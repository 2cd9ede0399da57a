/-
# What the daemon does with a result

The hook that `internal/daemon/runner.go` gives to the scheduler: every numeric metric of a
result is compared with its baseline and added to it, rules and correlation add their
findings, the result is kept, and an alert is sent for each of its findings.  Each of these
calls reads the clock for itself.
-/
import Arcsent.Alerting.Batch
import Arcsent.Detection.BaselineRuns
import Arcsent.Detection.Correlation
import Arcsent.Detection.Rules
import Arcsent.State.ResultCache

namespace Arcsent.Daemon

open Arcsent.Go Arcsent.Storage Arcsent.Scanner Arcsent.Detection Arcsent.Alerting Arcsent.State

/-- The daemon's own copy of the conversion. -/
def toFloat : Value → Option ℚ := Detection.toFloat

/-- The finding that a metric has drifted. -/
def driftFinding (key : String) (value : ℚ) : Finding where
  id := "metric_drift"
  severity := .high
  category := "drift"
  description := "Metric drift detected beyond baseline."
  evidence := [("metric", .string key), ("value", .float64 value)]
  remediation := "Review system changes affecting this metric."

/-- What the hook reads and changes. -/
structure Hook (V : Type) where
  store : BadgerStore V
  rules : List Rule
  correlator : Correlator
  cache : ResultCache
  engine : Engine

variable {V : Type} (codec : Codec Baseline V)

/-- The findings of the call of `DetectDrift` on a metric, and the store after it. -/
def checkDrift (now : Time) (consecutive : ℤ) (scannerName : String) (s : BadgerStore V)
    (key : String) (value : ℚ) : BadgerStore V × List Finding :=
  match Manager.detectDrift codec s now scannerName key value consecutive with
  | .ok (s, true, _) => (s, [driftFinding key value])
  | .ok (s, false, _) => (s, [])
  | .error _ => (s, [])

/-- The store after the call of `Update`, whose error is not looked at. -/
def learn (now : Time) (scannerName : String) (s : BadgerStore V) (key : String) (value : ℚ) :
    BadgerStore V :=
  match Manager.update codec s now scannerName key value with
  | .ok (s, _) => s
  | .error _ => s

/-- The readings of the clock that a call of the hook makes: on each metric, for the
correlation, for the key of the result, and one for each alert. -/
structure Clocks where
  check : String → Time
  learn : String → Time
  correlate : Time
  save : Time
  send : ℕ → Time

/-- All readings at one time. -/
def Clocks.at (now : Time) : Clocks := ⟨fun _ => now, fun _ => now, now, now, fun _ => now⟩

/-- The loop over the metadata, in the order of the iteration. -/
def watch (clocks : Clocks) (consecutive : ℤ) (scannerName : String) :
    List (String × Value) → BadgerStore V → BadgerStore V × List Finding
  | [], s => (s, [])
  | (key, raw) :: rest, s =>
    match toFloat raw with
    | none => watch clocks consecutive scannerName rest s
    | some value =>
      let checked := checkDrift codec (clocks.check key) consecutive scannerName s key value
      let (s, findings) := watch clocks consecutive scannerName rest
        (learn codec (clocks.learn key) scannerName checked.1 key value)
      (s, checked.2 ++ findings)

/-- The alert for a finding, before `Send` completes it. -/
def alertFor (scannerName : String) (finding : Finding) : Alert where
  id := ""
  timestamp := 0
  severity := finding.severity
  scannerName := scannerName
  finding := finding
  reason := "finding_detected"

/-- The result with the findings of the hook added, the store and the correlator after
that; `order` is the order in which the loop goes over the metadata. -/
def process (consecutive : ℤ) (clocks : Clocks) (order : List (String × Value)) (h : Hook V)
    (result : Result) : BadgerStore V × Correlator × Result :=
  let (store, drifts) := watch codec clocks consecutive result.scannerName order h.store
  let result := { result with findings := result.findings ++ drifts }
  let result := { result with findings := result.findings ++ evaluate h.rules result }
  let (correlator, correlated) := h.correlator.add clocks.correlate result
  (store, correlator, { result with findings := result.findings ++ correlated })

/-- The hook; `suffix` is the random end of the key that the result is saved under. -/
def onResult (results : ResultCodec V) (sha256 : String → String) (consecutive : ℤ)
    (clocks : Clocks) (suffix : String) (order : List (String × Value)) (h : Hook V)
    (result : Result) : Hook V :=
  let (store, correlator, result) := process codec consecutive clocks order h result
  { h with
    store := (ResultsStore.save results store clocks.save suffix result).toOption.getD store
    correlator := correlator
    cache := h.cache.add result
    engine := h.engine.sendAll sha256 clocks.send
      (result.findings.map (alertFor result.scannerName)) }

/-! ## The store stays in order -/

variable {codec} {scannerName : String}

section

variable (now : Time) (consecutive : ℤ)

lemma checkDrift_frame {s : BadgerStore V} (hs : OwnKeys codec s) (key : String) (value : ℚ) :
    Frame codec scannerName key s (checkDrift codec now consecutive scannerName s key value).1 := by
  rw [checkDrift]
  split
  · exact Frame.detectDrift hs ‹_›
  · exact Frame.detectDrift hs ‹_›
  · exact Frame.refl codec scannerName key s

lemma learn_frame {s : BadgerStore V} (hs : OwnKeys codec s) (key : String) (value : ℚ) :
    Frame codec scannerName key s (learn codec now scannerName s key value) := by
  rw [learn]
  split
  · exact Frame.update hs ‹_›
  · exact Frame.refl codec scannerName key s

/-- One round of the loop leaves the records of the other metrics alone. -/
lemma round_frame (now' : Time) {s : BadgerStore V} (hs : OwnKeys codec s) (key : String)
    (value : ℚ) :
    Frame codec scannerName key s (learn codec now' scannerName
      (checkDrift codec now consecutive scannerName s key value).1 key value) :=
  have hcheck := checkDrift_frame now consecutive hs key value
  hcheck.trans (learn_frame now' (hcheck.ownKeys hs) key value)

/-- What the hook calls on a metric the manager can be called on by itself. -/
lemma checkDrift_eq_perform (s : BadgerStore V) (key : String) (value : ℚ) :
    (checkDrift codec now consecutive scannerName s key value).1 =
      (Call.detectDrift now value consecutive).perform codec scannerName key s := by
  rw [checkDrift, Call.perform]
  rcases Manager.detectDrift codec s now scannerName key value consecutive with
    err | ⟨s', drift, reason⟩
  · rfl
  · cases drift <;> rfl

lemma learn_eq_perform (s : BadgerStore V) (key : String) (value : ℚ) :
    learn codec now scannerName s key value =
      (Call.update now value).perform codec scannerName key s := rfl

end

lemma reached_watch (clocks : Clocks) (consecutive : ℤ) {s : BadgerStore V}
    (hs : Reached codec s) (order : List (String × Value)) :
    Reached codec (watch codec clocks consecutive scannerName order s).1 := by
  induction order generalizing s with
  | nil => exact hs
  | cons entry order ih =>
    obtain ⟨key, raw⟩ := entry
    rw [watch]
    cases toFloat raw with
    | none => exact ih hs
    | some value =>
      refine ih ?_
      rw [learn_eq_perform, checkDrift_eq_perform]
      exact (hs.call scannerName key _).call scannerName key _

/-- What is saved with the results is written to another bucket. -/
lemma reached_save {s s' : BadgerStore V} (hs : Reached codec s) {results : ResultCodec V}
    {now : Time} {suffix : String} {result : Result}
    (h : ResultsStore.save results s now suffix result = .ok s') : Reached codec s' := by
  let w : Write V := .put resultsBucket
    (bytes (toString (unixNano now) ++ "-" ++ result.scannerName ++ "-" ++ suffix))
    (results.marshal result)
  have hput : s.perform w = s' := by
    rw [ResultsStore.save] at h
    show (s.put _ _ _).toOption.getD s = s'
    rw [h]
    rfl
  have hslash : slash ∉ resultsBucket := by decide
  have hne : resultsBucket ≠ baselineBucket := by decide
  rw [← hput]
  exact hs.write hslash fun hbucket => absurd hbucket hne

/-- The hook makes stores of the daemon of stores of the daemon. -/
theorem reached_onResult {h : Hook V} (hs : Reached codec h.store) (results : ResultCodec V)
    (sha256 : String → String) (consecutive : ℤ) (clocks : Clocks) (suffix : String)
    (order : List (String × Value)) (result : Result) :
    Reached codec
      (onResult codec results sha256 consecutive clocks suffix order h result).store := by
  have hwatch : Reached codec (process codec consecutive clocks order h result).1 :=
    reached_watch clocks consecutive hs order
  rw [onResult]
  dsimp only
  cases hsave : ResultsStore.save results _ clocks.save suffix _ with
  | error err => exact hwatch
  | ok s' => exact reached_save hwatch hsave

end Arcsent.Daemon
