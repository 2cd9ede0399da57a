/-
# Which alerts have the same fingerprint

The fingerprint hashes four texts joined with a bar.  Finding IDs and descriptions of rules
come from the configuration and may hold bars of their own, so text can be shifted over a
boundary.  Two alerts with the same fingerprint are one alert for the dedup window.
-/
import Arcsent.Daemon.OnResult
import Arcsent.Lib.Separators

namespace Arcsent.Alerting

open Arcsent.Go Arcsent.Scanner Arcsent.Lib

/-- What an alert is told apart by. -/
def Alert.identity (a : Alert) : String × Severity × String × String :=
  (a.scannerName, a.severity, a.finding.id, a.finding.description)

/-- The four texts that are joined. -/
def Alert.texts (a : Alert) : List (List Char) :=
  [a.scannerName.toList, a.severity.text.toList, a.finding.id.toList, a.finding.description.toList]

/-- The four texts cut at every bar and read one after another. -/
def Alert.pieces (a : Alert) : List (List Char) := Lib.pieces '|' a.texts

/-- The number of bars in each of the four texts. -/
def Alert.bars (a : Alert) : List ℕ := a.texts.map (List.count '|')

lemma fingerprintText_toList (a : Alert) :
    (fingerprintText a).toList = ['|'].intercalate a.texts := by
  simp [fingerprintText, Alert.texts, List.intercalate]

lemma fingerprintText_eq_iff {a b : Alert} :
    fingerprintText a = fingerprintText b ↔ a.pieces = b.pieces := by
  rw [← String.toList_inj, fingerprintText_toList, fingerprintText_toList]
  exact intercalate_eq_iff (List.cons_ne_nil _ _) (List.cons_ne_nil _ _)

lemma text_inj {x y : Severity} (h : x.text = y.text) : x = y := by
  cases x <;> cases y <;> first | rfl | exact absurd h (by decide)

lemma texts_eq_iff {a b : Alert} : a.texts = b.texts ↔ a.identity = b.identity := by
  simp only [Alert.texts, Alert.identity, List.cons.injEq, and_true, String.toList_inj,
    Prod.mk.injEq]
  exact and_congr_right' (and_congr_left' ⟨text_inj, fun h => by rw [h]⟩)

variable {sha256 : String → String}

lemma fingerprint_eq_iff (hsha : Function.Injective sha256) {a b : Alert} :
    fingerprint sha256 a = fingerprint sha256 b ↔ a.pieces = b.pieces :=
  hsha.eq_iff.trans fingerprintText_eq_iff

/-- Same pieces make the same fingerprint; with the same number of bars in each text they
make the same texts. -/
lemma fingerprint_ne_iff (hsha : Function.Injective sha256) (a b : Alert) :
    (a.identity ≠ b.identity → fingerprint sha256 a ≠ fingerprint sha256 b) ↔
      (a.pieces = b.pieces → a.bars = b.bars) := by
  rw [not_imp_not, fingerprint_eq_iff hsha, ← texts_eq_iff]
  constructor
  · intro h hpieces
    rw [Alert.bars, h hpieces, Alert.bars]
  · intro h hpieces
    exact eq_of_pieces_eq hpieces (h hpieces)

/-- The second of two alerts is passed over on account of the first. -/
def Merged (sha256 : String → String) (e : Engine) (now now' : Time) (a b : Alert) : Prop :=
  ((e.send sha256 now a).1.send sha256 now' b).2 = .throttled (fingerprint sha256 b)

lemma complete_id {a : Alert} (h : a.id = "") (now : Time) :
    (a.complete sha256 now).id = fingerprint sha256 a := if_pos h

/-- An enabled engine throttles the alerts whose identity it has seen within the window. -/
lemma send_eq_throttled_iff {e : Engine} (henabled : e.enabled = true) (now : Time) {a : Alert}
    (ha : a.id = "") : (e.send sha256 now a).2 = .throttled (fingerprint sha256 a) ↔
      e.SeenWithin now (fingerprint sha256 a) := by
  rw [← complete_id ha now]
  rcases e.send_cases sha256 henabled now a with
    ⟨hseen, hsend⟩ | ⟨hnew, outcome, queue, hsend, hout⟩
  · rw [hsend]
    exact iff_of_true rfl hseen
  · rw [hsend]
    refine iff_of_false (fun hthrottled => ?_) hnew
    rcases hout with ⟨-, rfl, -⟩ | ⟨-, rfl, -⟩
    · exact Outcome.noConfusion hthrottled
    · exact Outcome.noConfusion hthrottled

/-- Within the window the engine merges the alerts with the same fingerprint. -/
lemma merged_iff {e : Engine} (henabled : e.enabled = true) {now now' : Time}
    (hwindow : now' - now < e.throttle) {a b : Alert} (ha : a.id = "") (hb : b.id = "")
    (hfresh : e.lastSeen (fingerprint sha256 a) = none)
    (hfresh' : e.lastSeen (fingerprint sha256 b) = none) :
    Merged sha256 e now now' a b ↔ fingerprint sha256 a = fingerprint sha256 b := by
  have hnew : ¬ e.SeenWithin now (a.complete sha256 now).id := by
    rintro ⟨last, hlast, -⟩
    rw [complete_id ha, hfresh] at hlast
    exact absurd hlast (by simp)
  rcases e.send_cases sha256 henabled now a with ⟨hseen, -⟩ | ⟨-, outcome, queue, hsend, -⟩
  · exact absurd hseen hnew
  · rw [complete_id ha] at hsend
    rw [Merged, send_eq_throttled_iff (by rw [hsend]; exact henabled) now' hb, hsend,
      Engine.SeenWithin]
    -- the first alert is what the engine has seen last under its fingerprint
    by_cases hsame : fingerprint sha256 a = fingerprint sha256 b
    · refine iff_of_true ⟨now, ?_, hwindow⟩ hsame
      rw [← hsame]
      exact Function.update_self ..
    · refine iff_of_false ?_ hsame
      rintro ⟨last, hlast, -⟩
      dsimp only at hlast
      rw [Function.update_of_ne (Ne.symm hsame), hfresh'] at hlast
      exact absurd hlast (by simp)

/-! ## Findings of rules -/

/-- The texts of a rule's findings that go into a fingerprint, after the name of the scanner:
the description is the one that the engine makes up where the rule has none. -/
def ruleTexts (r : Detection.Rule) : List (List Char) :=
  [r.severity.text.toList, r.findingId.toList, r.desc.toList]

/-- The texts of a rule cut at every bar and read one after another. -/
def rulePieces (r : Detection.Rule) : List (List Char) := Lib.pieces '|' (ruleTexts r)

/-- Two rules that both find something on one scanner. -/
structure OnOneScanner (r r' : Detection.Rule) (a b : Alert) : Prop where
  names : r.name ≠ r'.name
  descriptions : r.description ≠ r'.description
  found : ∃ result result' f f', result.scannerName = result'.scannerName ∧
    r.evaluate result = some f ∧ r'.evaluate result' = some f' ∧
    a = Daemon.alertFor result.scannerName f ∧ b = Daemon.alertFor result'.scannerName f'

lemma OnOneScanner.pieces_eq_iff {r r' : Detection.Rule} {a b : Alert} (h : OnOneScanner r r' a b) :
    a.pieces = b.pieces ↔ rulePieces r = rulePieces r' := by
  obtain ⟨result, result', f, f', hscanner, hf, hf', rfl, rfl⟩ := h.found
  obtain ⟨value, rfl⟩ := Detection.Rule.eq_finding_of_evaluate hf
  obtain ⟨value', rfl⟩ := Detection.Rule.eq_finding_of_evaluate hf'
  have hpieces (r : Detection.Rule) (scanner : String) (value : ℚ) :
      (Daemon.alertFor scanner (r.finding value)).pieces =
        scanner.toList.splitOn '|' ++ rulePieces r := rfl
  rw [hpieces, hpieces, hscanner, List.append_cancel_left_eq]

/-- An alert whose fingerprint is new to an engine. -/
structure New (sha256 : String → String) (e : Engine) (a : Alert) : Prop where
  id : a.id = ""
  fresh : e.lastSeen (fingerprint sha256 a) = none

/-- **When distinct alerts have distinct fingerprints.**  With a hash that has no collisions,
two alerts that differ in a text have the same fingerprint exactly when their texts consist
of the same pieces between bars and some text of the one has another number of bars than
that of the other.  The engine merges the same alerts within the dedup window.  The findings
of two rules with different names and descriptions are merged exactly when severity, identifier
and description as they are found consist of the same pieces between bars. -/
theorem fingerprint_distinct_iff (sha256 : String → String) (hsha : Function.Injective sha256)
    (a b : Alert) :
    ((a.identity ≠ b.identity → fingerprint sha256 a ≠ fingerprint sha256 b) ↔
      (a.pieces = b.pieces → a.bars = b.bars)) ∧
    ∀ (e : Engine) (now now' : Time), e.enabled = true → now' - now < e.throttle →
      New sha256 e a → New sha256 e b →
      ((a.identity ≠ b.identity → ¬ Merged sha256 e now now' a b) ↔
        (a.pieces = b.pieces → a.bars = b.bars)) ∧
      ∀ r r', OnOneScanner r r' a b →
        (¬ Merged sha256 e now now' a b ↔ rulePieces r ≠ rulePieces r') := by
  refine ⟨fingerprint_ne_iff hsha a b, fun e now now' henabled hwindow ha hb => ?_⟩
  rw [merged_iff henabled hwindow ha.id hb.id ha.fresh hb.fresh]
  refine ⟨fingerprint_ne_iff hsha a b, fun r r' hrules => ?_⟩
  rw [fingerprint_eq_iff hsha, hrules.pieces_eq_iff]

/-! ## Two rules -/

/-- A rule on the load whose name holds a bar. -/
def barInName : Detection.Rule where
  name := "a|b"
  scanner := "system.cpu"
  metric := "load"
  operator := "gt"
  threshold := 90
  severity := .high
  description := "c"

/-- A rule on the same metric with the bar in its description. -/
def barInDescription : Detection.Rule :=
  { barInName with name := "a", description := "b|c" }

/-- A result that triggers both rules. -/
def loaded : Result where
  scannerName := "system.cpu"
  status := .success
  findings := []
  startedAt := 1
  finishedAt := 2
  duration := 1
  metadata := ⟨[("load", .float64 95)], by decide⟩

/-- The alerts of a result's findings by the rules. -/
def ruleAlerts (rules : List Detection.Rule) (result : Result) : List Alert :=
  (Detection.evaluate rules result).map (Daemon.alertFor result.scannerName)

/-- An engine that has seen nothing yet. -/
def newEngine : Engine where
  throttle := 5 * minute
  retryMax := 3
  retryBackoff := 2 * second
  enabled := true
  lastSeen := fun _ => none
  queue := .empty

/-- The two alerts differ in finding ID and description, and the second is merged with the
first. -/
theorem merged_rules :
    ∃ a b, ruleAlerts [barInName, barInDescription] loaded = [a, b] ∧
      a.identity ≠ b.identity ∧
      ∀ sha256 : String → String, fingerprint sha256 a = fingerprint sha256 b ∧
        Merged sha256 newEngine 0 second a b := by
  refine ⟨_, _, rfl, by decide, fun sha256 => ?_⟩
  have hsame : fingerprint sha256 (Daemon.alertFor "system.cpu" (barInName.finding 95))
      = fingerprint sha256 (Daemon.alertFor "system.cpu" (barInDescription.finding 95)) :=
    congrArg sha256 (by decide)
  exact ⟨hsame, (merged_iff rfl (by decide) rfl rfl rfl rfl).mpr hsame⟩

/-- A rule that leaves its description to the engine, and one that has it with another name. -/
def defaultDescription : Detection.Rule := { barInName with name := "Load", description := "" }

def copiedDescription : Detection.Rule :=
  { barInName with name := "load", description := "Rule Load triggered for load" }

example : rulePieces defaultDescription = rulePieces copiedDescription := by decide

/-- A rule with another name and no description. -/
def undescribed : Detection.Rule := { barInName with name := "a", description := "" }

/-- The alert of a rule on the load. -/
def loadAlert (r : Detection.Rule) : Alert := Daemon.alertFor "system.cpu" (r.finding 95)

lemma new_loadAlert (r : Detection.Rule) : New id newEngine (loadAlert r) := ⟨rfl, rfl⟩

/-- Where only the name has a bar, the alerts of the two rules are kept apart. -/
theorem not_merged_rules :
    ¬ Merged id newEngine 0 second (loadAlert barInName) (loadAlert undescribed) := by
  have hrules : OnOneScanner barInName undescribed (loadAlert barInName)
      (loadAlert undescribed) :=
    ⟨by decide, by decide, loaded, loaded, _, _, rfl, rfl, rfl, rfl, rfl⟩
  have hwindow : second - 0 < newEngine.throttle := by decide
  have hall := (fingerprint_distinct_iff id Function.injective_id (loadAlert barInName)
    (loadAlert undescribed)).2 newEngine 0 second rfl hwindow (new_loadAlert _) (new_loadAlert _)
  exact (hall.2 _ _ hrules).mpr (by decide)

end Arcsent.Alerting
