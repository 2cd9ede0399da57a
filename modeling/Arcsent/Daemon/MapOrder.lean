/-
# The order of the metadata makes no difference

Go goes over the entries of a map in no fixed order.  Each round of the hook's loop
changes the record of its own metric only, so the records after the loop are those that
the metrics had before it, each taken through its own round; the findings are those of
the rounds in the order that the loop came to them.
-/
import Arcsent.Daemon.DriftAlerts

namespace Arcsent.Daemon

open Arcsent.Go Arcsent.Storage Arcsent.Scanner Arcsent.Detection

variable {V : Type} {codec : Codec Baseline V} {clocks : Clocks} {consecutive : ℤ}
  {scannerName : String}

/-! ## One round -/

/-- What the call of `DetectDrift` makes of the record of its metric. -/
def judged (now : Time) (value : ℚ) (record : Except Error Baseline) : Except Error Baseline :=
  record.map fun b => b.judge now value (b.anomaly value).1

/-- What the call of `Update` makes of the record of its metric. -/
def learned (now : Time) (scannerName key : String) (value : ℚ)
    (record : Except Error Baseline) : Except Error Baseline :=
  if scannerName = "" ∨ key = "" then record
  else
    match record with
    | .error .notFound => .ok ((Baseline.fresh scannerName key value).observe now value)
    | .error err => .error err
    | .ok b => .ok (b.observe now value)

/-- What a round makes of the record of its metric. -/
def round (clocks : Clocks) (scannerName key : String) (value : ℚ)
    (record : Except Error Baseline) : Except Error Baseline :=
  learned (clocks.learn key) scannerName key value (judged (clocks.check key) value record)

lemma get_checkDrift (now : Time) {s : BadgerStore V} (hs : OwnKeys codec s) (key : String)
    (value : ℚ) :
    Manager.get codec (checkDrift codec now consecutive scannerName s key value).1 scannerName key
      = judged now value (Manager.get codec s scannerName key) := by
  cases hget : Manager.get codec s scannerName key with
  | error err =>
    rw [checkDrift, Manager.detectDrift]
    simp only [hget]
    rfl
  | ok b =>
    have hcell : Cell codec s scannerName key (some b) := ⟨hget, hs scannerName key b hget⟩
    obtain ⟨s', hdetect, hcell'⟩ := hcell.detectDrift now value consecutive
    rw [checkDrift, hdetect]
    generalize Manager.drifted _ _ _ = answer
    obtain ⟨drift, reason⟩ := answer
    cases drift <;> exact hcell'.1

lemma get_learn (now : Time) {s : BadgerStore V} (hs : OwnKeys codec s) (key : String)
    (value : ℚ) :
    Manager.get codec (learn codec now scannerName s key value) scannerName key
      = learned now scannerName key value (Manager.get codec s scannerName key) := by
  rw [learn]
  unfold learned
  split_ifs with hnames
  · rw [Manager.update, Manager.load, if_pos hnames]
  · obtain ⟨hscanner, hkey⟩ := not_or.mp hnames
    cases hget : Manager.get codec s scannerName key with
    | error err =>
      cases err with
      | notFound =>
        have hcell : Cell codec s scannerName key none := hget
        obtain ⟨s', hupdate, hcell'⟩ := hcell.update hscanner hkey now value
        rw [hupdate]
        exact hcell'.1
      | text msg =>
        rw [Manager.update, Manager.load, if_neg hnames]
        simp only [hget]
    | ok b =>
      have hcell : Cell codec s scannerName key (some b) := ⟨hget, hs scannerName key b hget⟩
      obtain ⟨s', hupdate, hcell'⟩ := hcell.update hscanner hkey now value
      rw [hupdate]
      exact hcell'.1

/-- The store after a round. -/
def roundStore (codec : Codec Baseline V) (clocks : Clocks) (consecutive : ℤ)
    (scannerName : String) (s : BadgerStore V) (key : String) (value : ℚ) : BadgerStore V :=
  learn codec (clocks.learn key) scannerName
    (checkDrift codec (clocks.check key) consecutive scannerName s key value).1 key value

lemma roundStore_frame {s : BadgerStore V} (hs : OwnKeys codec s) (key : String) (value : ℚ) :
    Frame codec scannerName key s
      (roundStore codec clocks consecutive scannerName s key value) :=
  round_frame (clocks.check key) consecutive (clocks.learn key) hs key value

/-- A round takes the record of its metric through both calls. -/
lemma get_roundStore {s : BadgerStore V} (hs : OwnKeys codec s) (key : String) (value : ℚ) :
    Manager.get codec (roundStore codec clocks consecutive scannerName s key value)
        scannerName key
      = round clocks scannerName key value (Manager.get codec s scannerName key) := by
  have hcheck : OwnKeys codec
      (checkDrift codec (clocks.check key) consecutive scannerName s key value).1 :=
    (checkDrift_frame (clocks.check key) consecutive hs key value).ownKeys hs
  rw [roundStore, get_learn _ hcheck, get_checkDrift _ hs, round]

/-- The records under other keys are left alone. -/
lemma get_roundStore_of_ne {s : BadgerStore V} (hs : OwnKeys codec s) {key : String} (value : ℚ)
    {scanner metric : String}
    (hne : baselineKey scannerName key ≠ baselineKey scanner metric) :
    Manager.get codec (roundStore codec clocks consecutive scannerName s key value)
        scanner metric
      = Manager.get codec s scanner metric := by
  have hcheck : Frame codec scannerName key s
      (checkDrift codec (clocks.check key) consecutive scannerName s key value).1 :=
    checkDrift_frame (clocks.check key) consecutive hs key value
  calc Manager.get codec (roundStore codec clocks consecutive scannerName s key value)
        scanner metric
      = Manager.get codec (checkDrift codec (clocks.check key) consecutive scannerName s key
          value).1 scanner metric := by
        rw [roundStore, learn]
        split
        · exact Manager.get_of_update (hcheck.ownKeys hs) ‹_› hne
        · rfl
    _ = Manager.get codec s scanner metric := by
        rw [checkDrift]
        split
        · exact Manager.get_of_detectDrift hs ‹_› hne
        · exact Manager.get_of_detectDrift hs ‹_› hne
        · rfl

/-! ## The whole loop -/

lemma watch_cons_some {key : String} {raw : Value} {value : ℚ} (hvalue : toFloat raw = some value)
    (order : List (String × Value)) (s : BadgerStore V) :
    (watch codec clocks consecutive scannerName ((key, raw) :: order) s).1 =
      (watch codec clocks consecutive scannerName order
        (roundStore codec clocks consecutive scannerName s key value)).1 := by
  rw [watch, hvalue]
  rfl

lemma watch_cons_none {key : String} {raw : Value} (hvalue : toFloat raw = none)
    (order : List (String × Value)) (s : BadgerStore V) :
    watch codec clocks consecutive scannerName ((key, raw) :: order) s =
      watch codec clocks consecutive scannerName order s := by
  rw [watch, hvalue]

/-- The loop leaves the records alone that are not under the key of a metric it meets. -/
lemma get_watch_of_ne {scanner metric : String} {s : BadgerStore V} (hs : OwnKeys codec s)
    (order : List (String × Value))
    (hne : ∀ key raw value, (key, raw) ∈ order → toFloat raw = some value →
      baselineKey scannerName key ≠ baselineKey scanner metric) :
    Manager.get codec (watch codec clocks consecutive scannerName order s).1 scanner metric
      = Manager.get codec s scanner metric := by
  induction order generalizing s with
  | nil => rfl
  | cons entry order ih =>
    obtain ⟨key, raw⟩ := entry
    have hrest : ∀ key raw value, (key, raw) ∈ order → toFloat raw = some value →
        baselineKey scannerName key ≠ baselineKey scanner metric :=
      fun key raw value hmem => hne key raw value (List.mem_cons_of_mem _ hmem)
    cases hvalue : toFloat raw with
    | none => rw [watch_cons_none hvalue, ih hs hrest]
    | some value =>
      have hkey := hne key raw value List.mem_cons_self hvalue
      rw [watch_cons_some hvalue, ih ((roundStore_frame hs key value).ownKeys hs) hrest,
        get_roundStore_of_ne hs value hkey]

/-- The record of a metric that the loop meets goes through its round, wherever the metric
stands in the order. -/
lemma get_watch_of_mem {key : String} {raw : Value} {value : ℚ}
    (hvalue : toFloat raw = some value) {s : BadgerStore V} (hs : OwnKeys codec s)
    {order : List (String × Value)} (hnodup : (order.map Prod.fst).Nodup)
    (hmem : (key, raw) ∈ order) :
    Manager.get codec (watch codec clocks consecutive scannerName order s).1 scannerName key
      = round clocks scannerName key value (Manager.get codec s scannerName key) := by
  induction order generalizing s with
  | nil => exact absurd hmem List.not_mem_nil
  | cons entry order ih =>
    obtain ⟨key', raw'⟩ := entry
    rw [List.map_cons, List.nodup_cons] at hnodup
    rcases List.mem_cons.mp hmem with heq | hlater
    · -- the metric is not met again
      obtain ⟨rfl, rfl⟩ := Prod.mk.inj heq
      have hframe : Frame codec scannerName key s
          (roundStore codec clocks consecutive scannerName s key value) :=
        roundStore_frame hs key value
      rw [watch_cons_some hvalue, get_watch_of_ne (hframe.ownKeys hs), get_roundStore hs]
      intro key' raw' value' hmem' _ hkey
      obtain rfl := baselineKey_inj hkey
      exact hnodup.1 (List.mem_map.mpr ⟨_, hmem', rfl⟩)
    · -- the metric of another entry comes first, whose round leaves this record alone
      have hne : key' ≠ key := by
        rintro rfl
        exact hnodup.1 (List.mem_map.mpr ⟨_, hlater, rfl⟩)
      cases hvalue' : toFloat raw' with
      | none => rw [watch_cons_none hvalue', ih hs hnodup.2 hlater]
      | some value' =>
        have hframe : Frame codec scannerName key' s
            (roundStore codec clocks consecutive scannerName s key' value') :=
          roundStore_frame hs key' value'
        rw [watch_cons_some hvalue', ih (hframe.ownKeys hs) hnodup.2 hlater,
          hframe.others key hne.symm]

/-! ## Records without their times -/

/-- The record without the time of its last change. -/
def untimed (b : Baseline) : Baseline := { b with updatedAt := 0 }

/-- The record of a pair without the time of its last change, or the error for it. -/
def recordOf (codec : Codec Baseline V) (s : BadgerStore V) (scanner metric : String) :
    Except Error Baseline :=
  (Manager.get codec s scanner metric).map untimed

/-- The readings of the clock are only kept in the time of the record. -/
lemma untimed_round (clocks clocks' : Clocks) (scannerName key : String) (value : ℚ)
    (record : Except Error Baseline) :
    (round clocks scannerName key value record).map untimed
      = (round clocks' scannerName key value record).map untimed := by
  unfold round learned
  split_ifs with hnames
  · cases record <;> rfl
  · rcases record with (_ | _) | _ <;> rfl

lemma recordOf_congr_key (s : BadgerStore V) {scanner metric scanner' metric' : String}
    (hkey : baselineKey scanner metric = baselineKey scanner' metric') :
    recordOf codec s scanner metric = recordOf codec s scanner' metric' := by
  rw [recordOf, recordOf, Manager.get, Manager.get, hkey]

/-- The records after the loop do not depend on its order. -/
lemma recordOf_watch (clocks clocks' : Clocks) {s : BadgerStore V} (hs : OwnKeys codec s)
    {order order' : List (String × Value)} (hnodup : (order.map Prod.fst).Nodup)
    (hperm : order.Perm order') (scanner metric : String) :
    recordOf codec (watch codec clocks consecutive scannerName order s).1 scanner metric
      = recordOf codec (watch codec clocks' consecutive scannerName order' s).1
          scanner metric := by
  have hnodup' : (order'.map Prod.fst).Nodup := (hperm.map Prod.fst).nodup_iff.mp hnodup
  by_cases hmet : ∃ key raw value, (key, raw) ∈ order ∧ toFloat raw = some value ∧
      baselineKey scannerName key = baselineKey scanner metric
  · obtain ⟨key, raw, value, hmem, hvalue, hkey⟩ := hmet
    rw [← recordOf_congr_key _ hkey, ← recordOf_congr_key _ hkey, recordOf, recordOf,
      get_watch_of_mem hvalue hs hnodup hmem,
      get_watch_of_mem hvalue hs hnodup' (hperm.mem_iff.mp hmem)]
    exact untimed_round clocks clocks' scannerName key value _
  · have hne : ∀ key raw value, (key, raw) ∈ order → toFloat raw = some value →
        baselineKey scannerName key ≠ baselineKey scanner metric :=
      fun key raw value hmem hvalue hkey => hmet ⟨key, raw, value, hmem, hvalue, hkey⟩
    rw [recordOf, recordOf, get_watch_of_ne hs order hne,
      get_watch_of_ne hs order' fun key raw value hmem =>
        hne key raw value (hperm.mem_iff.mpr hmem)]

/-- The findings of the loop are reordered with it. -/
lemma watch_findings_perm (clocks clocks' : Clocks) {s : BadgerStore V} (hs : OwnKeys codec s)
    {order order' : List (String × Value)} (hnodup : (order.map Prod.fst).Nodup)
    (hperm : order.Perm order') :
    (watch codec clocks consecutive scannerName order s).2.Perm
      (watch codec clocks' consecutive scannerName order' s).2 := by
  have hnodup' : (order'.map Prod.fst).Nodup := (hperm.map Prod.fst).nodup_iff.mp hnodup
  have hfound : (watch codec clocks consecutive scannerName order s).2 =
      order.flatMap (driftsOf codec consecutive clocks scannerName s) :=
    watch_findings clocks clocks hs order hnodup
  have hfound' : (watch codec clocks' consecutive scannerName order' s).2 =
      order'.flatMap (driftsOf codec consecutive clocks scannerName s) :=
    watch_findings clocks' clocks hs order' hnodup'
  rw [hfound, hfound']
  exact hperm.flatMap_right _

/-! ## The result -/

/-- The correlator looks at the scanner of a result and at whether it has findings. -/
lemma correlator_add_congr (c : Correlator) (now : Time) {result result' : Result}
    (hname : result.scannerName = result'.scannerName)
    (hlength : result.findings.length = result'.findings.length) :
    c.add now result = c.add now result' := by
  rw [Correlator.add, Correlator.add, hname, hlength]

/-- A finding that a metric has drifted. -/
def IsDriftFinding (f : Finding) : Prop := ∃ key value, f = driftFinding key value

lemma isDriftFinding_of_mem {s : BadgerStore V} {order : List (String × Value)} {f : Finding}
    (hf : f ∈ (watch codec clocks consecutive scannerName order s).2) : IsDriftFinding f := by
  induction order generalizing s with
  | nil => exact absurd hf List.not_mem_nil
  | cons entry order ih =>
    obtain ⟨key, raw⟩ := entry
    rw [watch] at hf
    cases hvalue : toFloat raw with
    | none =>
      rw [hvalue] at hf
      exact ih hf
    | some value =>
      simp only [hvalue, List.mem_append] at hf
      rcases hf with hf | hf
      · rw [checkDrift] at hf
        split at hf
        · exact ⟨key, value, List.mem_singleton.mp hf⟩
        · exact absurd hf List.not_mem_nil
        · exact absurd hf List.not_mem_nil
      · exact ih hf

/-- The same result up to a reordering of findings that metrics have drifted. -/
def SameUpToDriftOrder (result result' : Result) : Prop :=
  ∃ own drifts drifts' more : List Finding, drifts.Perm drifts' ∧
    (∀ f ∈ drifts, IsDriftFinding f) ∧
    result.findings = own ++ drifts ++ more ∧
    result' = { result with findings := own ++ drifts' ++ more }

/-- **The order of the iteration over the metadata makes no difference**: the records of
all pairs are the same up to the time of their last change, the findings are the same up
to the order of the drifts, and the correlator answers and ends the same. -/
theorem process_order_irrelevant (clocks clocks' : Clocks)
    (hnow : clocks.correlate = clocks'.correlate) {h : Hook V} (hs : Reached codec h.store)
    (result : Result) {order order' : List (String × Value)}
    (horder : result.metadata.IterationOrder order)
    (horder' : result.metadata.IterationOrder order') :
    let out := process codec consecutive clocks order h result
    let out' := process codec consecutive clocks' order' h result
    (∀ scanner metric, recordOf codec out.1 scanner metric
      = recordOf codec out'.1 scanner metric) ∧
    out.2.1 = out'.2.1 ∧
    SameUpToDriftOrder out.2.2 out'.2.2 := by
  have hnodup : (order.map Prod.fst).Nodup :=
    (horder.map Prod.fst).nodup_iff.mpr result.metadata.nodup
  have hperm : order.Perm order' := horder.trans horder'.symm
  -- the loop over the metadata finds the same drifts, in another order
  have hdrifts : (watch codec clocks consecutive result.scannerName order h.store).2.Perm
      (watch codec clocks' consecutive result.scannerName order' h.store).2 :=
    watch_findings_perm clocks clocks' hs.ownKeys hnodup hperm
  let ruled := evaluate h.rules result
  let found (drifts : List Finding) : Result :=
    { result with findings := result.findings ++ drifts ++ ruled }
  -- the correlator only looks at how many findings there are
  have hadd : h.correlator.add clocks.correlate
        (found (watch codec clocks consecutive result.scannerName order h.store).2)
      = h.correlator.add clocks'.correlate
        (found (watch codec clocks' consecutive result.scannerName order' h.store).2) := by
    rw [hnow]
    refine correlator_add_congr _ clocks'.correlate rfl ?_
    simp only [found, List.length_append, hdrifts.length_eq]
  have hcorrelator : (h.correlator.add clocks.correlate
        (found (watch codec clocks consecutive result.scannerName order h.store).2)).1
      = (h.correlator.add clocks'.correlate
        (found (watch codec clocks' consecutive result.scannerName order' h.store).2)).1 := by
    rw [hadd]
  refine ⟨fun scanner metric =>
    recordOf_watch clocks clocks' hs.ownKeys hnodup hperm scanner metric, hcorrelator, ?_⟩
  refine ⟨result.findings, _, _, ruled ++ (h.correlator.add clocks.correlate
    (found (watch codec clocks consecutive result.scannerName order h.store).2)).2,
    hdrifts, fun f hf => isDriftFinding_of_mem hf, ?_, ?_⟩
  · rw [← List.append_assoc]
    rfl
  · rw [hadd, ← List.append_assoc]
    rfl

/-- The readings of the clock in another run, which are the same for the correlation only. -/
def otherClocks : Clocks :=
  ⟨fun _ => 9 * minute, fun _ => 10 * minute, 11 * minute, 12 * minute, fun _ => 13 * minute⟩

/-- Two metrics that drift together, met in either order. -/
theorem process_twoOff_orders :
    let out := process baselineCodec 1 (.at (11 * minute)) twoOff.entries steadyHook
      (loadResult twoOff)
    let out' := process baselineCodec 1 otherClocks twoOff.entries.reverse steadyHook
      (loadResult twoOff)
    (∀ scanner metric, recordOf baselineCodec out.1 scanner metric
      = recordOf baselineCodec out'.1 scanner metric) ∧
    out.2.1 = out'.2.1 ∧
    SameUpToDriftOrder out.2.2 out'.2.2 :=
  process_order_irrelevant (.at (11 * minute)) otherClocks rfl reached_steadyHook
    (loadResult twoOff) (List.Perm.refl _) (List.reverse_perm _)

end Arcsent.Daemon
