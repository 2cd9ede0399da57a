/-
# The lines of the authentication log

`internal/plugins/system/auth_log.go`: the log is read from its start, with the last lines
kept in a window, and every line of the window in which a pattern occurs makes a finding.  The
error with which the scanner may stop is not looked at, so that a line which does not fit into
its buffer hides everything after it.
-/
import Arcsent.Go.Strings
import Arcsent.Lib.Window
import Arcsent.Plugins.Init

namespace Arcsent.Plugins

open Arcsent.Go Arcsent.Go.Strings Arcsent.Lib Arcsent.Scanner

/-- A finding of the plugin, with the evidence `line` as its bytes. -/
structure LineFinding where
  id : String
  severity : Severity
  category : String
  description : String
  line : Bytes
  remediation : String
deriving DecidableEq

/-- The finding for a line. -/
def authFailed (line : Bytes) : LineFinding where
  id := "auth_failed"
  severity := .medium
  category := "auth"
  description := "Authentication failure detected"
  line := line
  remediation := "Review auth logs and block suspicious sources."

lemma authFailed_injective : Function.Injective authFailed := by
  intro line line' h
  exact congrArg LineFinding.line h

/-- The result of a run. -/
structure AuthResult where
  scannerName : String
  status : Status
  findings : List LineFinding
  path : String
  timestamp : String
  linesScanned : ℕ

/-- The function `readLastLines`. -/
def readLastLines (content : Bytes) (maxLines : ℤ) : List Bytes :=
  (scan content).foldl (fun lines line =>
    if ((lines ++ [line]).length : ℤ) > maxLines then (lines ++ [line]).drop 1
    else lines ++ [line]) []

/-- The inner loop of `Run`, which the first pattern that occurs in the line ends. -/
def findingsFor (line : Bytes) : List String → List LineFinding
  | [] => []
  | pattern :: patterns =>
    if bytes pattern <:+: line then [authFailed line] else findingsFor line patterns

/-- The method `Run` of `AuthLogMonitor`, the file being opened or not. -/
def runAuthLog (path : String) (failedPatterns : List String) (maxLines : ℤ) (timestamp : String)
    (file : Except String Bytes) : Except String AuthResult :=
  match file with
  | .error err => .error ("open auth log: " ++ err)
  | .ok content =>
    let lines := readLastLines content maxLines
    .ok
      { scannerName := (Plugin.authLogMonitor path failedPatterns maxLines).name
        status := .success
        findings := lines.flatMap fun line => findingsFor line failedPatterns
        path := path
        timestamp := timestamp
        linesScanned := lines.length }

/-! ## The window and the findings -/

variable {content : Bytes} {maxLines : ℤ} {patterns : List String}

/-- What is kept is the end of what the scanner returns; with a negative number nothing is. -/
lemma readLastLines_eq (content : Bytes) (maxLines : ℤ) :
    readLastLines content maxLines = (scan content).rtake maxLines.toNat := by
  refine foldl_eq_rtake (fun w line hw => ?_) (scan content)
  have hlength : (w ++ [line]).length = w.length + 1 := by simp
  rw [slide]
  split_ifs with hover
  · have hone : (w ++ [line]).length - maxLines.toNat = 1 := by omega
    rw [List.rtake, hone]
  · exact (rtake_of_length_le (by omega)).symm

/-- A pattern occurs in the line. -/
def matchesAny (patterns : List String) (line : Bytes) : Bool :=
  patterns.any fun pattern => bytes pattern <:+: line

lemma findingsFor_eq (line : Bytes) (patterns : List String) :
    findingsFor line patterns = if matchesAny patterns line then [authFailed line] else [] := by
  induction patterns with
  | nil => rfl
  | cons pattern patterns ih =>
    rw [findingsFor, ih]
    by_cases h : bytes pattern <:+: line
    · rw [if_pos h, if_pos (by simp [matchesAny, h])]
    · rw [if_neg h]
      simp [matchesAny, h]

/-- There is one finding for each line with a pattern. -/
lemma flatMap_findingsFor (lines : List Bytes) (patterns : List String) :
    lines.flatMap (fun line => findingsFor line patterns) =
      (lines.filter (matchesAny patterns)).map authFailed := by
  induction lines with
  | nil => rfl
  | cons line lines ih =>
    rw [List.flatMap_cons, ih, findingsFor_eq]
    by_cases h : matchesAny patterns line = true
    · rw [if_pos h, List.filter_cons_of_pos h]
      rfl
    · rw [if_neg h, List.filter_cons_of_neg h]
      rfl

/-- The lines of a file that are to be reported: those with a pattern among the last ones. -/
def due (patterns : List String) (maxLines : ℤ) (lines : List Bytes) : List Bytes :=
  (lines.rtake maxLines.toNat).filter (matchesAny patterns)

/-- A result has one finding for each of the last lines of the file that has a pattern, in
the order of the file, and counts these lines. -/
structure Covers (patterns : List String) (maxLines : ℤ) (content : Bytes) (r : AuthResult) :
    Prop where
  findings : r.findings = (due patterns maxLines (lines content)).map authFailed
  scanned : (r.linesScanned : ℤ) = min maxLines (lines content).length

lemma runAuthLog_eq (path : String) (patterns : List String) (maxLines : ℤ) (timestamp : String)
    (content : Bytes) : ∃ r,
    runAuthLog path patterns maxLines timestamp (.ok content) = .ok r ∧
      r.findings = (due patterns maxLines (scan content)).map authFailed ∧
      r.linesScanned = min maxLines.toNat (scan content).length := by
  refine ⟨_, rfl, ?_, ?_⟩
  · dsimp only
    rw [flatMap_findingsFor, readLastLines_eq, due]
  · dsimp only
    rw [readLastLines_eq, length_rtake]

/-- The scanner sees what is to be reported: all lines of the file fit into its buffer, or the
last lines that it returns have the same lines with a pattern as those of the file. -/
structure SeenEnough (patterns : List String) (maxLines : ℤ) (content : Bytes) : Prop where
  nonneg : 0 ≤ maxLines
  seen : (∀ line ∈ rawLines content, fits line) ∨
    maxLines ≤ (scan content).length ∧
      due patterns maxLines (scan content) = due patterns maxLines (lines content)

/-- **When the last lines of the log are covered.**  A run reports each of the last lines of
the file that has a pattern, in order, and counts these lines, exactly when the scanner sees
enough of the file. -/
theorem covers_iff (path : String) (patterns : List String) (maxLines : ℤ) (timestamp : String)
    (content : Bytes) :
    (∃ r, runAuthLog path patterns maxLines timestamp (.ok content) = .ok r ∧
        Covers patterns maxLines content r) ↔ SeenEnough patterns maxLines content := by
  obtain ⟨r, hrun, hfindings, hscanned⟩ := runAuthLog_eq path patterns maxLines timestamp content
  have hle : (scan content).length ≤ (lines content).length := (scan_prefix_lines content).length_le
  constructor
  · rintro ⟨r', hrun', hcovers⟩
    obtain rfl := Except.ok.inj (hrun.symm.trans hrun')
    have hcount := hcovers.scanned
    rw [hscanned] at hcount
    refine ⟨by omega, ?_⟩
    by_cases hall : (scan content).length = (lines content).length
    · exact .inl (scan_eq_lines_iff.mp hall)
    · have hsame := hfindings.symm.trans hcovers.findings
      exact .inr ⟨by omega, List.map_injective_iff.mpr authFailed_injective hsame⟩
  · rintro ⟨hpos, hall | ⟨hmany, hsame⟩⟩
    · have hlength := scan_eq_lines_iff.mpr hall
      have hscan : scan content = lines content := (scan_prefix_lines content).eq_of_length hlength
      refine ⟨r, hrun, by rw [hfindings, hscan], ?_⟩
      rw [hscanned, hlength]
      omega
    · refine ⟨r, hrun, by rw [hfindings, hsame], ?_⟩
      rw [hscanned]
      omega

/-- A failed login, as the log has it. -/
def login : Bytes := bytes "sshd[7]: Failed password for root from 203.0.113.9"

/-- A line that does not fit into the buffer, and then a failed login. -/
def hiddenLogin : Bytes :=
  List.replicate maxScanTokenSize 0x78 ++ newline :: (login ++ [newline])

lemma scan_hiddenLogin : scan hiddenLogin = [] ∧
    lines hiddenLogin = [dropCR (List.replicate maxScanTokenSize 0x78), login] := by
  have hlong : newline ∉ List.replicate maxScanTokenSize (0x78 : UInt8) := fun h =>
    absurd (List.eq_of_mem_replicate h) (by decide)
  have hfits : ¬ fits (List.replicate maxScanTokenSize 0x78) = true := by simp [fits]
  have hlogin : (rawLines (login ++ [newline])).map dropCR = [login] := by decide +kernel
  have hraw : rawLines hiddenLogin =
      List.replicate maxScanTokenSize 0x78 :: rawLines (login ++ [newline]) :=
    rawLines_append_newline hlong _
  constructor
  · rw [scan, hraw, List.takeWhile_cons_of_neg hfits]
    rfl
  · rw [lines, hraw, List.map_cons, hlogin]

/-- Two failed logins, of which the last line is looked at. -/
theorem covers_last_login :
    ∃ r, runAuthLog "/var/log/auth.log" ["Failed password"] 1 "2024-01-01T00:00:00Z"
        (.ok (login ++ newline :: login)) = .ok r ∧
      Covers ["Failed password"] 1 (login ++ newline :: login) r :=
  (covers_iff _ _ 1 _ (login ++ newline :: login)).mpr
    ⟨by decide, .inl (by decide +kernel)⟩

/-- With the default settings the login after the long line is not reported. -/
theorem not_covers_hiddenLogin :
    ¬ ∀ (config : StringMap Value) (path : String) (patterns : List String) (maxLines : ℤ),
      (Plugin.authLogMonitor "" [] 0).initialised config =
        .authLogMonitor path patterns maxLines →
      ∀ (timestamp : String) (content : Bytes), ∃ r,
        runAuthLog path patterns maxLines timestamp (.ok content) = .ok r ∧
          Covers patterns maxLines content r := by
  intro h
  obtain ⟨r, hrun, hcovers⟩ := h .empty "/var/log/auth.log"
    ["Failed password", "authentication failure", "Invalid user"] 500 rfl "" hiddenLogin
  obtain ⟨r', hrun', hfindings, -⟩ := runAuthLog_eq "/var/log/auth.log"
    ["Failed password", "authentication failure", "Invalid user"] 500 "" hiddenLogin
  obtain rfl := Except.ok.inj (hrun.symm.trans hrun')
  obtain ⟨hscan, hlines⟩ := scan_hiddenLogin
  rw [hcovers.findings, hscan, hlines] at hfindings
  have hmatches : matchesAny ["Failed password", "authentication failure", "Invalid user"] login =
      true := by decide +kernel
  have hlogin : authFailed login ∈ (due ["Failed password", "authentication failure",
      "Invalid user"] 500 [dropCR (List.replicate maxScanTokenSize 0x78), login]).map
        authFailed := by
    refine List.mem_map_of_mem (List.mem_filter.mpr ⟨?_, hmatches⟩)
    rw [rtake_of_length_le (by decide)]
    simp
  rw [hfindings] at hlogin
  exact absurd hlogin List.not_mem_nil

end Arcsent.Plugins
