/-
# The processes that are not expected

`internal/plugins/system/process_monitor.go`: every directory of `/proc` that is named by a
positive number is a process.  A process is reported when the file that it executes can be
told and begins with none of the prefixes; without prefixes none is.
-/
import Arcsent.Daemon.Privileges
import Arcsent.Plugins.Init

namespace Arcsent.Plugins

open Arcsent.Go Arcsent.Scanner
open Arcsent.Daemon (atoi)

/-- An entry of `/proc`, with what `os.Readlink` says of its link `exe`. -/
structure ProcEntry where
  name : String
  isDir : Bool
  exe : Except String String

variable (whitelistPrefixes : List String)

/-- The finding about a process. -/
def notWhitelisted (pid : ℤ) (exePath : String) : Finding where
  id := "process_not_whitelisted"
  severity := .medium
  category := "process"
  description := "Process executable not in whitelist"
  evidence := [("pid", .int pid), ("exe", .string exePath)]
  remediation := "Verify the process is expected or update the whitelist."

/-- One round of the loop, on the number of processes and the findings so far. -/
def processRound (acc : ℕ × List Finding) (entry : ProcEntry) : ℕ × List Finding :=
  if !entry.isDir then acc
  else
    match atoi entry.name with
    | none => acc
    | some pid =>
      if pid ≤ 0 then acc
      else
        let processes := acc.1 + 1
        match entry.exe with
        | .error _ => (processes, acc.2)
        | .ok exePath =>
          if whitelistPrefixes = [] then (processes, acc.2)
          else if !whitelistPrefixes.any (hasPrefix exePath) then
            (processes, acc.2 ++ [notWhitelisted pid exePath])
          else (processes, acc.2)

/-- The method `Run` of `ProcessMonitor`. -/
def runProcessMonitor (timestamp : String) (procEntries : Except String (List ProcEntry)) :
    Except String Result :=
  match procEntries with
  | .error err => .error ("read /proc: " ++ err)
  | .ok entries =>
    let found := entries.foldl (processRound whitelistPrefixes) (0, [])
    .ok {
      scannerName := (Plugin.processMonitor whitelistPrefixes).name
      status := .success
      findings := found.2
      startedAt := 0
      finishedAt := 0
      duration := 0
      metadata :=
        ⟨[("timestamp", .string timestamp), ("processes", .int found.1),
          ("whitelist_prefixes", .string (",".intercalate whitelistPrefixes))], by simp⟩ }

/-! ## What is reported -/

/-- The number of the process that an entry stands for. -/
def ProcEntry.pid? (entry : ProcEntry) : Option ℤ :=
  if entry.isDir then (atoi entry.name).filter (0 < ·) else none

/-- The finding that a round makes. -/
def processFinding (entry : ProcEntry) : Option Finding :=
  match entry.pid?, entry.exe with
  | some pid, .ok exePath =>
    if whitelistPrefixes ≠ [] ∧ ∀ pre ∈ whitelistPrefixes, hasPrefix exePath pre = false then
      some (notWhitelisted pid exePath)
    else none
  | _, _ => none

lemma processRound_eq (acc : ℕ × List Finding) (entry : ProcEntry) :
    processRound whitelistPrefixes acc entry =
      (acc.1 + (if entry.pid?.isSome then 1 else 0),
        acc.2 ++ (processFinding whitelistPrefixes entry).toList) := by
  rw [processRound, processFinding, ProcEntry.pid?]
  cases entry.isDir with
  | false => simp
  | true =>
    cases hpid : atoi entry.name with
    | none => simp
    | some pid =>
      by_cases hpos : 0 < pid
      · have hle : ¬ pid ≤ 0 := by omega
        have hfilter : (some pid).filter (fun pid => decide (0 < pid)) = some pid := by
          simp [hpos]
        rw [hfilter]
        cases hexe : entry.exe with
        | error err => simp [hle]
        | ok exePath =>
          by_cases hnone : whitelistPrefixes = []
          · simp [hle, hnone]
          · by_cases hforeign : ∀ pre ∈ whitelistPrefixes, hasPrefix exePath pre = false
            · simp [hle, hnone, if_pos hforeign]
            · simp [hle, hnone, if_neg hforeign]
      · have hle : pid ≤ 0 := by omega
        have hfilter : (some pid).filter (fun pid => decide (0 < pid)) = none := by
          simp [hle]
        rw [hfilter]
        simp [hle]

/-- The loop counts the processes and makes a finding for each that is not expected. -/
lemma foldl_processRound (entries : List ProcEntry) (acc : ℕ × List Finding) :
    entries.foldl (processRound whitelistPrefixes) acc =
      (acc.1 + entries.countP (·.pid?.isSome),
        acc.2 ++ entries.filterMap (processFinding whitelistPrefixes)) := by
  induction entries generalizing acc with
  | nil => simp
  | cons entry entries ih =>
    rw [List.foldl_cons, ih, processRound_eq, List.countP_cons]
    refine Prod.ext ?_ ?_
    · dsimp only
      omega
    · cases h : processFinding whitelistPrefixes entry <;> simp [h]

/-- **What a run of the process monitor says**: the processes are counted, and the findings are
about those whose file is known and has none of the prefixes, in the order of the listing. -/
theorem runProcessMonitor_eq_ok {timestamp : String} {entries : List ProcEntry} {result : Result}
    (h : runProcessMonitor whitelistPrefixes timestamp (.ok entries) = .ok result) :
    result.findings = entries.filterMap (processFinding whitelistPrefixes) ∧
      result.metadata.get? "processes" =
        some (.int (entries.countP fun entry => entry.pid?.isSome)) := by
  rw [runProcessMonitor, foldl_processRound, Nat.zero_add, List.nil_append] at h
  obtain rfl := Except.ok.inj h
  exact ⟨rfl, rfl⟩

end Arcsent.Plugins
