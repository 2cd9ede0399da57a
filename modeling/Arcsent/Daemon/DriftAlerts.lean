/-
# Which drifting metrics alert

All alerts for drifting metrics of one scanner have the same fingerprint, since it leaves
out the evidence that names the metric.  A drifting metric is therefore alerted only when
some finding that carries it comes no less than the window after the last one with its
fingerprint that got past the check.
-/
import Arcsent.Alerting.Suppression
import Arcsent.Daemon.OnResult

namespace Arcsent.Daemon

open Arcsent.Go Arcsent.Storage Arcsent.Scanner Arcsent.Detection Arcsent.Alerting Arcsent.State

variable {V : Type} (codec : Codec Baseline V) (results : ResultCodec V)
  (sha256 : String → String) (consecutive : ℤ)

/-! ## Which metrics drift -/

/-- `DetectDrift` reports drift for a value of a metric. -/
def Drifts (now : Time) (scannerName : String) (s : BadgerStore V) (key : String)
    (value : ℚ) : Prop :=
  ∃ s' reason, Manager.detectDrift codec s now scannerName key value consecutive
    = .ok (s', true, reason)

/-- The finding for an entry of the metadata, if it is a number and drifts. -/
def driftsOf (clocks : Clocks) (scannerName : String) (s : BadgerStore V)
    (entry : String × Value) : List Finding :=
  match toFloat entry.2 with
  | none => []
  | some value =>
    (checkDrift codec (clocks.check entry.1) consecutive scannerName s entry.1 value).2

variable {codec results sha256 consecutive} {now : Time}

/-- The finding of `DetectDrift` is decided by the record of the metric. -/
lemma checkDrift_findings (scannerName : String) (s : BadgerStore V) (key : String) (value : ℚ) :
    (checkDrift codec now consecutive scannerName s key value).2 =
      match Manager.get codec s scannerName key with
      | .error _ => []
      | .ok b =>
        if (Manager.drifted (b.judge now value (b.anomaly value).1)
            (if consecutive < 1 then 1 else consecutive) (b.anomaly value).2).1 = true
        then [driftFinding key value] else [] := by
  rw [checkDrift, Manager.detectDrift, Manager.isAnomaly]
  cases hget : Manager.get codec s scannerName key with
  | error err => rfl
  | ok b =>
    dsimp only
    obtain ⟨s', hput, -⟩ := Manager.put_eq codec s
      (r := b.judge now value (b.anomaly value).1) rfl
    rw [hput]
    dsimp only
    generalize Manager.drifted _ _ _ = answer
    obtain ⟨drift, reason⟩ := answer
    cases drift <;> rfl

lemma driftsOf_congr {scannerName : String} {s s' : BadgerStore V} {entry : String × Value}
    (h : Manager.get codec s' scannerName entry.1 = Manager.get codec s scannerName entry.1)
    (clocks clocks' : Clocks) :
    driftsOf codec consecutive clocks scannerName s' entry
      = driftsOf codec consecutive clocks' scannerName s entry := by
  rw [driftsOf, driftsOf]
  cases toFloat entry.2 with
  | none => rfl
  | some value =>
    dsimp only
    rw [checkDrift_findings, checkDrift_findings, h]
    rfl

/-- A metric drifts when there is a finding for it. -/
lemma drifts_iff {scannerName : String} {s : BadgerStore V} {key : String} {value : ℚ} :
    Drifts codec consecutive now scannerName s key value ↔
      (checkDrift codec now consecutive scannerName s key value).2.length = 1 := by
  rw [Drifts, checkDrift]
  rcases Manager.detectDrift codec s now scannerName key value consecutive with
    err | ⟨s', drift, reason⟩
  · simp
  · cases drift <;> simp

/-- The loop finds the drifts that the store shows before it: no metric changes the record
of another, and no finding depends on the readings of the clock. -/
lemma watch_findings (clocks clocks' : Clocks) {scannerName : String} {s : BadgerStore V}
    (hs : OwnKeys codec s) (order : List (String × Value))
    (hnodup : (order.map Prod.fst).Nodup) :
    (watch codec clocks consecutive scannerName order s).2
      = order.flatMap (driftsOf codec consecutive clocks' scannerName s) := by
  -- the rounds before have left the records of the metrics that are still to come
  suffices hmain : ∀ s', OwnKeys codec s' →
      (∀ entry ∈ order, Manager.get codec s' scannerName entry.1
        = Manager.get codec s scannerName entry.1) →
      (watch codec clocks consecutive scannerName order s').2
        = order.flatMap (driftsOf codec consecutive clocks' scannerName s) from
    hmain s hs fun _ _ => rfl
  induction order with
  | nil => exact fun _ _ _ => rfl
  | cons entry order ih =>
    intro s' hs' hget
    rw [List.map_cons, List.nodup_cons] at hnodup
    rw [List.flatMap_cons, ← driftsOf_congr (hget entry List.mem_cons_self) clocks, driftsOf]
    obtain ⟨key, raw⟩ := entry
    rw [watch]
    cases toFloat raw with
    | none =>
      exact ih hnodup.2 s' hs' fun e he => hget e (List.mem_cons_of_mem _ he)
    | some value =>
      have hround : Frame codec scannerName key s' _ :=
        round_frame (clocks.check key) consecutive (clocks.learn key) hs' key value
      dsimp only
      rw [ih hnodup.2 _ (hround.ownKeys hs') fun e he => ?_]
      rw [hround.others e.1 fun heq => hnodup.1 (heq ▸ List.mem_map.mpr ⟨e, he, rfl⟩)]
      exact hget e (List.mem_cons_of_mem _ he)

/-! ## Which findings alert -/

/-- A finding carries a metric in its evidence. -/
def Carries (key : String) (f : Finding) : Prop :=
  f.evidence.lookup "metric" = some (.string key)

instance (key : String) (f : Finding) : Decidable (Carries key f) :=
  inferInstanceAs (Decidable (_ = _))

/-- The identity of the alert for a finding. -/
def alertId (sha256 : String → String) (scannerName : String) (f : Finding) : String :=
  fingerprint sha256 (alertFor scannerName f)

variable (codec consecutive)

/-- The findings of the result, of its drifting metrics and of the rules. -/
def reported (clocks : Clocks) (order : List (String × Value)) (h : Hook V) (result : Result) :
    List Finding :=
  result.findings ++
    order.flatMap (driftsOf codec consecutive clocks result.scannerName h.store) ++
    evaluate h.rules result

variable {codec consecutive}

/-- The findings that the hook sends alerts for; those of the correlation come last and
carry no metric. -/
lemma process_findings (clocks : Clocks) (consecutive : ℤ) {h : Hook V}
    (hs : OwnKeys codec h.store) {order : List (String × Value)}
    (hnodup : (order.map Prod.fst).Nodup) (result : Result) :
    (process codec consecutive clocks order h result).2.2.scannerName = result.scannerName ∧
    ∃ correlated, (process codec consecutive clocks order h result).2.2.findings
        = reported codec consecutive clocks order h result ++ correlated ∧
      ∀ f ∈ correlated, ∀ key, ¬ Carries key f := by
  let correlating : Result :=
    { result with findings := reported codec consecutive clocks order h result }
  refine ⟨rfl, (h.correlator.add clocks.correlate correlating).2, ?_, ?_⟩
  · simp only [process, correlating, reported, ← watch_findings clocks clocks hs order hnodup]
    rfl
  · intro f hf key
    rcases Correlator.add_findings h.correlator clocks.correlate correlating with
      hnone | ⟨c, unique, hone⟩
    · rw [hnone] at hf
      exact absurd hf List.not_mem_nil
    · rw [hone, List.mem_singleton] at hf
      subst hf
      simp [Carries, Correlator.finding, List.lookup_cons]

/-- A finding that carries the metric is sent no less than the window after the last send
with its fingerprint that got past the check, before the result or for a finding in front
of it. -/
def CarrierPasses (sha256 : String → String) (e : Engine) (clock : ℕ → Time)
    (scannerName key : String) (findings : List Finding) : Prop :=
  ∃ pre f post, findings = pre ++ f :: post ∧ Carries key f ∧
    ¬ Within e.throttle (clock pre.length) (lastPassed sha256 e.throttle
      (alertId sha256 scannerName f) (e.lastSeen (alertId sha256 scannerName f)) clock
      (pre.map (alertFor scannerName)))

variable {clock : ℕ → Time}

/-- Findings at the end that do not carry the metric make no difference. -/
lemma carrierPasses_append {e : Engine} {scannerName key : String} {findings more : List Finding}
    (hmore : ∀ f ∈ more, ¬ Carries key f) :
    CarrierPasses sha256 e clock scannerName key (findings ++ more) ↔
      CarrierPasses sha256 e clock scannerName key findings := by
  constructor
  · rintro ⟨pre, f, post, hsplit, hcarries, hnot⟩
    rcases List.append_eq_append_iff.mp hsplit with ⟨mid, -, hmid⟩ | ⟨mid, rfl, hmid⟩
    · have hf : f ∈ more := by
        rw [hmid]
        exact List.mem_append_right _ List.mem_cons_self
      exact absurd hcarries (hmore f hf)
    · cases mid with
      | nil =>
        have hf : f ∈ more := by
          rw [List.nil_append] at hmid
          rw [← hmid]
          exact List.mem_cons_self
        exact absurd hcarries (hmore f hf)
      | cons g mid =>
        obtain ⟨rfl, -⟩ := List.cons.inj hmid
        exact ⟨pre, f, mid, rfl, hcarries, hnot⟩
  · rintro ⟨pre, f, post, rfl, hcarries, hnot⟩
    exact ⟨pre, f, post ++ more, by simp, hcarries, hnot⟩

lemma alertId_eq_sentId (scannerName : String) (f : Finding) :
    alertId sha256 scannerName f = (alertFor scannerName f).sentId sha256 := by
  rw [alertId, Alert.sentId]
  exact (if_pos rfl).symm

/-- An alert that carries the metric is put in the queue exactly when such a finding gets
past the check. -/
lemma sendAll_carries_iff {e : Engine} (he : e.enabled = true) {scannerName key : String}
    {findings : List Finding} (hroom : e.queue.alerts.length + findings.length ≤ queueSize) :
    (∃ a ∈ (e.sendAll sha256 clock (findings.map (alertFor scannerName))).queue.alerts.drop
        e.queue.alerts.length, a.scannerName = scannerName ∧ Carries key a.finding) ↔
      CarrierPasses sha256 e clock scannerName key findings := by
  obtain ⟨put, hput, hmem⟩ := Engine.sendAll_queue sha256 he clock
    (findings.map (alertFor scannerName)) (by simpa using hroom)
  rw [hput, List.drop_left]
  constructor
  · rintro ⟨a, ha, -, hcarries⟩
    obtain ⟨pre, b, post, hsplit, rfl, hnot⟩ := (hmem a).mp ha
    obtain ⟨pre', rest, rfl, rfl, hrest⟩ := List.map_eq_append_iff.mp hsplit
    obtain ⟨f, post', rfl, rfl, -⟩ := List.map_eq_cons_iff.mp hrest
    refine ⟨pre', f, post', rfl, hcarries, ?_⟩
    rw [alertId_eq_sentId]
    simpa only [List.length_map, Alert.complete_id] using hnot
  · rintro ⟨pre, f, post, rfl, hcarries, hnot⟩
    refine ⟨(alertFor scannerName f).complete sha256 (clock pre.length), (hmem _).mpr ?_, rfl,
      hcarries⟩
    refine ⟨pre.map (alertFor scannerName), alertFor scannerName f,
      post.map (alertFor scannerName), by simp, by rw [List.length_map], ?_⟩
    rw [alertId_eq_sentId] at hnot
    simpa only [List.length_map, Alert.complete_id] using hnot

/-! ## Every drifting metric alerts -/

/-- An alert for the scanner that carries the metric was queued within the window; `before`
has the alerts queued before, with their times. -/
def AlertedWithin (before : List (Alert × Time)) (throttle : Duration) (now : Time)
    (scannerName key : String) : Prop :=
  ∃ q ∈ before, q.1.scannerName = scannerName ∧ Carries key q.1.finding ∧ now - q.2 < throttle

variable (codec results sha256 consecutive)

/-- The time at which the alert for a drifting metric is sent: after those for the findings
of the result and for the drifts that the iteration comes to before. -/
def sentAt (clocks : Clocks) (order : List (String × Value)) (h : Hook V) (result : Result)
    (key : String) : Time :=
  clocks.send (result.findings.length + ((order.takeWhile fun e => e.1 ≠ key).flatMap
    (driftsOf codec consecutive clocks result.scannerName h.store)).length)

/-- For each metric that drifts, an alert that carries it is put in the queue, unless one
was queued within the window before. -/
def EveryDriftAlerts (clocks : Clocks) (suffix : String) (before : List (Alert × Time))
    (order : List (String × Value)) (h : Hook V) (result : Result) : Prop :=
  ∀ key raw value, (key, raw) ∈ order → toFloat raw = some value →
    Drifts codec consecutive (clocks.check key) result.scannerName h.store key value →
    (∃ a ∈ (onResult codec results sha256 consecutive clocks suffix order h
        result).engine.queue.alerts.drop h.engine.queue.alerts.length,
      a.scannerName = result.scannerName ∧ Carries key a.finding) ∨
    AlertedWithin before h.engine.throttle (sentAt codec consecutive clocks order h result key)
      result.scannerName key

/-- Each metric that drifts, unless it was alerted within the window before, is carried by
a finding that comes no less than the window after the last one with its fingerprint that
got past the check. -/
def DriftsPass (clocks : Clocks) (before : List (Alert × Time)) (order : List (String × Value))
    (h : Hook V) (result : Result) : Prop :=
  ∀ key raw value, (key, raw) ∈ order → toFloat raw = some value →
    Drifts codec consecutive (clocks.check key) result.scannerName h.store key value →
    CarrierPasses sha256 h.engine clocks.send result.scannerName key
      (reported codec consecutive clocks order h result) ∨
    AlertedWithin before h.engine.throttle (sentAt codec consecutive clocks order h result key)
      result.scannerName key

/-- **Every drifting metric of a result alerts exactly when each of them is carried by a
finding that comes no less than the window after the last one with its fingerprint that got
past the check**, for every order of the iteration over the metadata, every reading of the
clock and every store of the daemon, when the queue has room. -/
theorem everyDriftAlerts_iff (clocks : Clocks) (suffix : String) (before : List (Alert × Time))
    (h : Hook V) (henabled : h.engine.enabled = true) (hs : Reached codec h.store)
    (result : Result) (order : List (String × Value))
    (horder : result.metadata.IterationOrder order)
    (hroom : h.engine.queue.alerts.length +
      (process codec consecutive clocks order h result).2.2.findings.length ≤ queueSize) :
    EveryDriftAlerts codec results sha256 consecutive clocks suffix before order h result ↔
      DriftsPass codec sha256 consecutive clocks before order h result := by
  have hnodup : (order.map Prod.fst).Nodup :=
    (horder.map Prod.fst).nodup_iff.mpr result.metadata.nodup
  obtain ⟨hname, correlated, hfindings, hmore⟩ :=
    process_findings clocks consecutive hs.ownKeys hnodup result
  refine forall₃_congr fun key raw value => ?_
  refine forall₃_congr fun _ _ _ => or_congr_left ?_
  rw [← carrierPasses_append fun f hf => hmore f hf key, ← hfindings,
    ← sendAll_carries_iff henabled hroom]
  rfl

/-! ## One metric and two -/

/-- A codec for baselines in a store that has results as well. -/
def baselineCodec : Codec Baseline (Baseline ⊕ Result) where
  marshal := .inl
  unmarshal := fun
    | .inl b => .ok b
    | .inr _ => .error "not a baseline"
  unmarshal_marshal _ := rfl

/-- A codec for results in a store that has baselines as well. -/
def resultCodec : ResultCodec (Baseline ⊕ Result) where
  marshal := .inr
  unmarshal := fun
    | .inl _ => .error "not a result"
    | .inr r => .ok (r.readBack id)
  rest := id
  unmarshal_marshal _ := rfl

/-- A store in which two metrics of a scanner have been steady for twelve results. -/
def steadyStore : BadgerStore (Baseline ⊕ Result) :=
  afterCalls baselineCodec "system.load_avg" "load5"
    (afterCalls baselineCodec "system.load_avg" "load1" .empty
      (List.replicate 12 (.update 1 10)))
    (List.replicate 12 (.update 1 10))

/-- The daemon with that store, no rules, and alerting enabled. -/
def steadyHook : Hook (Baseline ⊕ Result) where
  store := steadyStore
  rules := []
  correlator := .new 0 2 0
  cache := .new 50
  engine := .new enabledAlerting

lemma reached_steadyHook : Reached baselineCodec steadyHook.store := by
  rw [steadyHook, steadyStore]
  dsimp only
  exact (Reached.empty.afterCalls _).afterCalls _

/-- A result with given metadata. -/
def loadResult (metadata : StringMap Value) : Result where
  scannerName := "system.load_avg"
  status := .success
  findings := []
  startedAt := 1
  finishedAt := 2
  duration := 1
  metadata := metadata

/-- One metric is far off its baseline. -/
def oneOff : StringMap Value := ⟨[("load1", .float64 50), ("load5", .float64 10)], by decide⟩

/-- Two metrics are far off their baselines. -/
def twoOff : StringMap Value := ⟨[("load1", .float64 50), ("load5", .float64 50)], by decide⟩

/-- A single drifting metric alerts. -/
theorem everyDriftAlerts_oneOff :
    EveryDriftAlerts baselineCodec resultCodec id 1 (.at (10 * minute)) "ab" [] oneOff.entries
      steadyHook (loadResult oneOff) := by
  refine (everyDriftAlerts_iff baselineCodec resultCodec id 1 (.at (10 * minute)) "ab" []
    steadyHook rfl reached_steadyHook (loadResult oneOff) oneOff.entries (List.Perm.refl _)
    (by decide +kernel)).mpr ?_
  have hreported : reported baselineCodec 1 (.at (10 * minute)) oneOff.entries steadyHook
      (loadResult oneOff) = [driftFinding "load1" 50] := by decide +kernel
  intro key raw value hmem hvalue hdrifts
  have hentry : (key, raw) = ("load1", .float64 50) ∨ (key, raw) = ("load5", .float64 10) := by
    simpa [oneOff] using hmem
  rcases hentry with heq | heq
  · obtain ⟨rfl, rfl⟩ := Prod.mk.inj heq
    refine .inl ⟨[], driftFinding "load1" 50, [], hreported, rfl, ?_⟩
    rintro ⟨last, hlast, -⟩
    cases hlast
  · -- the other metric is on its baseline
    obtain ⟨rfl, rfl⟩ := Prod.mk.inj heq
    obtain rfl : (10 : ℚ) = value := Option.some.inj hvalue
    rw [drifts_iff] at hdrifts
    exact absurd hdrifts (by decide +kernel)

/-- Of two metrics that drift together only the one that the iteration comes to first
alerts. -/
theorem second_drift_is_silent :
    ¬ ∀ (h : Hook (Baseline ⊕ Result)) (result : Result) (order : List (String × Value))
      (clocks : Clocks), h.engine.enabled = true → Reached baselineCodec h.store →
      result.metadata.IterationOrder order →
      h.engine.queue.alerts.length +
        (process baselineCodec 1 clocks order h result).2.2.findings.length ≤ queueSize →
      EveryDriftAlerts baselineCodec resultCodec id 1 clocks "ab" [] order h result := by
  intro hclaim
  have hdrifts : Drifts baselineCodec 1 (10 * minute) (loadResult twoOff).scannerName
      steadyHook.store "load5" 50 := by
    rw [drifts_iff]
    decide +kernel
  have hsilent : ∀ a ∈ (onResult baselineCodec resultCodec id 1 (.at (10 * minute)) "ab"
      twoOff.entries steadyHook (loadResult twoOff)).engine.queue.alerts,
      ¬ Carries "load5" a.finding := by
    decide +kernel
  rcases hclaim steadyHook (loadResult twoOff) twoOff.entries (.at (10 * minute)) rfl
    reached_steadyHook (List.Perm.refl _) (by decide +kernel) "load5" (.float64 50) 50
    (by simp [twoOff]) rfl hdrifts with ⟨a, ha, -, hcarries⟩ | ⟨q, hq, -⟩
  · exact hsilent a (List.mem_of_mem_drop ha) hcarries
  · exact absurd hq List.not_mem_nil

end Arcsent.Daemon
