/-
# What the baselines hold after a sequence of calls

A record is read, changed and written back by every `Update` and every `DetectDrift`.
Here the calls on one pair of scanner and metric come one after the other: the store
behaves like a cell that holds the record of the pair, and the record summarizes the
values of the `Update` calls.
-/
import Arcsent.Detection.BaselineStore
import Arcsent.Lib.RunningStats
import Arcsent.Lib.Window

namespace Arcsent.Detection

open Arcsent.Go Arcsent.Storage Arcsent.Lib

variable {V : Type} {codec : Codec Baseline V} {s : BadgerStore V} {scanner metric : String}

/-! ## The record of a list of values -/

/-- A record summarizes a list of values. -/
structure Summarizes (r : Baseline) (xs : List ℚ) : Prop where
  /-- It has their number, -/
  count : r.count = xs.length
  /-- their mean, -/
  mean : r.mean = mean xs
  /-- the sum of their squared deviations from it, -/
  m2 : r.m2 = sumSqDev xs
  /-- the least of them -/
  min : IsLeast {x | x ∈ xs} r.min
  /-- and the greatest, -/
  max : IsGreatest {x | x ∈ xs} r.max
  /-- and the last of them in order, at most as many as the window has room for. -/
  samples : r.samples = xs.rtake maxSamples

lemma observe_samples (r : Baseline) (now : Time) (value : ℚ) :
    (r.observe now value).samples = (r.samples ++ [value]).rtake maxSamples := by
  rw [Baseline.observe]
  dsimp only
  split_ifs with h
  · rfl
  · exact (rtake_of_length_le (not_lt.mp h)).symm

/-- The first value of a metric. -/
lemma summarizes_fresh (now : Time) (value : ℚ) :
    Summarizes ((Baseline.fresh scanner metric value).observe now value) [value] := by
  refine ⟨?_, ?_, ?_, ?_, ?_, ?_⟩
  · simp [Baseline.observe, Baseline.fresh]
  · simp [Baseline.observe, Baseline.fresh, mean]
  · simp [Baseline.observe, Baseline.fresh, sumSqDev, mean]
  · simp [Baseline.observe, Baseline.fresh, IsLeast, lowerBounds]
  · simp [Baseline.observe, Baseline.fresh, IsGreatest, upperBounds]
  · exact observe_samples _ now value

/-- A further value of a metric. -/
lemma Summarizes.observe {r : Baseline} {xs : List ℚ} (h : Summarizes r xs) (now : Time)
    (value : ℚ) : Summarizes (r.observe now value) (xs ++ [value]) := by
  have hmean : (r.observe now value).mean = Lib.mean (xs ++ [value]) := by
    rw [mean_concat, ← h.mean]
    simp [Baseline.observe, h.count]
  refine ⟨?_, hmean, ?_, isLeast_concat h.min, isGreatest_concat h.max, ?_⟩
  · simp [Baseline.observe, h.count]
  · rw [sumSqDev_concat, ← hmean, ← h.mean, ← h.m2]
    rfl
  · rw [observe_samples, h.samples]
    exact rtake_rtake_append maxSamples xs [value]

/-- A verdict on a value changes no statistic. -/
lemma Summarizes.judge {r : Baseline} {xs : List ℚ} (h : Summarizes r xs) (now : Time)
    (value : ℚ) (anomaly : Bool) : Summarizes (r.judge now value anomaly) xs :=
  ⟨h.count, h.mean, h.m2, h.min, h.max, h.samples⟩

/-! ## Sequences of calls -/

/-- A call on the pair. -/
inductive Call
  | update (now : Time) (value : ℚ)
  | detectDrift (now : Time) (value : ℚ) (consecutive : ℤ)
  | isAnomaly (value : ℚ)

/-- The store after a call; a call that returns an error leaves it as it was. -/
def Call.perform (codec : Codec Baseline V) (scanner metric : String) (s : BadgerStore V) :
    Call → BadgerStore V
  | .update now value =>
    match Manager.update codec s now scanner metric value with
    | .ok (s', _) => s'
    | .error _ => s
  | .detectDrift now value consecutive =>
    match Manager.detectDrift codec s now scanner metric value consecutive with
    | .ok (s', _) => s'
    | .error _ => s
  | .isAnomaly _ => s

/-- The store after a sequence of calls. -/
def afterCalls (codec : Codec Baseline V) (scanner metric : String) (s : BadgerStore V)
    (calls : List Call) : BadgerStore V :=
  calls.foldl (Call.perform codec scanner metric) s

/-- A call keeps every record under its own key. -/
lemma OwnKeys.perform (hs : OwnKeys codec s) (c : Call) :
    OwnKeys codec (c.perform codec scanner metric s) := by
  cases c with
  | update now value =>
    rw [Call.perform]
    split
    · exact (Frame.update hs ‹_›).ownKeys hs
    · exact hs
  | detectDrift now value consecutive =>
    rw [Call.perform]
    split
    · exact (Frame.detectDrift hs ‹_›).ownKeys hs
    · exact hs
  | isAnomaly value => exact hs

/-- So does a sequence of them. -/
lemma ownKeys_afterCalls (hs : OwnKeys codec s) (calls : List Call) :
    OwnKeys codec (afterCalls codec scanner metric s calls) := by
  induction calls generalizing s with
  | nil => exact hs
  | cons c calls ih => exact ih (hs.perform c)

/-! ## The stores of the daemon -/

/-- The stores that the daemon makes of an empty one.  It calls the manager on whatever pairs,
deletes records of any bucket, and writes to the other buckets for itself. -/
inductive Reached (codec : Codec Baseline V) : BadgerStore V → Prop
  | empty : Reached codec .empty
  | call {s : BadgerStore V} (hs : Reached codec s) (scanner metric : String) (c : Call) :
    Reached codec (c.perform codec scanner metric s)
  | write {s : BadgerStore V} (hs : Reached codec s) {w : Write V} (hslash : slash ∉ w.bucket)
    (hother : w.bucket = baselineBucket → w.value = none) : Reached codec (s.perform w)

/-- A write to another bucket is not seen among the baselines, and a deletion leaves the other
records alone. -/
lemma OwnKeys.write (hs : OwnKeys codec s) {w : Write V} (hslash : slash ∉ w.bucket)
    (hother : w.bucket = baselineBucket → w.value = none) : OwnKeys codec (s.perform w) := by
  intro scanner metric r hget
  by_cases hempty : w.bucket = [] ∨ w.key = []
  · rw [s.perform_of_empty hempty] at hget
    exact hs scanner metric r hget
  · refine hs scanner metric r ?_
    rw [Manager.get, BadgerStore.get, s.getElem?_perform hempty] at hget
    by_cases hkey : makeKey w.bucket w.key
        = makeKey baselineBucket (bytes (baselineKey scanner metric))
    · have hbucket : w.bucket = baselineBucket :=
        ((makeKey_inj hslash (by decide)).mp hkey).1
      rw [if_neg (names_ne_nil scanner metric), if_pos hkey, hother hbucket] at hget
      cases hget
    · rw [if_neg hkey] at hget
      exact hget

/-- **Every record of a store of the daemon is found under its own key.** -/
theorem Reached.ownKeys (h : Reached codec s) : OwnKeys codec s := by
  induction h with
  | empty => exact ownKeys_empty codec
  | call _ scanner metric c ih => exact ih.perform c
  | write _ hslash hother ih => exact ih.write hslash hother

lemma Reached.afterCalls (h : Reached codec s) (calls : List Call) :
    Reached codec (afterCalls codec scanner metric s calls) := by
  induction calls generalizing s with
  | nil => exact h
  | cons c calls ih => exact ih (h.call scanner metric c)

/-- The value that an `Update` adds. -/
def Call.added : Call → Option ℚ
  | .update _ value => some value
  | _ => none

/-- The values that the `Update` calls add. -/
def added (calls : List Call) : List ℚ := calls.filterMap Call.added

/-- The cell after the values `xs` have been added. -/
def CellOf (codec : Codec Baseline V) (s : BadgerStore V) (scanner metric : String)
    (xs : List ℚ) : Prop :=
  ∃ cell, Cell codec s scanner metric cell ∧
    match cell with
    | none => xs = []
    | some r => Summarizes r xs

/-- One call keeps the summary. -/
lemma CellOf.perform (hs : scanner ≠ "") (hm : metric ≠ "") {xs : List ℚ}
    (h : CellOf codec s scanner metric xs) (c : Call) :
    CellOf codec (c.perform codec scanner metric s) scanner metric (xs ++ c.added.toList) := by
  obtain ⟨cell, hcell, hsum⟩ := h
  cases c with
  | update now value =>
    obtain ⟨s', hupdate, hcell'⟩ := hcell.update hs hm now value
    refine ⟨_, by simpa only [Call.perform, hupdate] using hcell', ?_⟩
    cases cell with
    | none =>
      obtain rfl : xs = [] := hsum
      exact summarizes_fresh now value
    | some r => exact Summarizes.observe hsum now value
  | detectDrift now value consecutive =>
    cases cell with
    | none =>
      obtain rfl : xs = [] := hsum
      refine ⟨none, ?_, rfl⟩
      rw [Call.perform, hcell.detectDrift_none]
      exact hcell
    | some r =>
      obtain ⟨s', hdrift, hcell'⟩ := hcell.detectDrift now value consecutive
      refine ⟨_, by simpa only [Call.perform, hdrift] using hcell', ?_⟩
      simpa [Call.added] using Summarizes.judge hsum now value (r.anomaly value).1
  | isAnomaly value =>
    exact ⟨cell, hcell, by simpa [Call.added] using hsum⟩

/-- All calls keep the summary. -/
lemma CellOf.afterCalls (hs : scanner ≠ "") (hm : metric ≠ "") {xs : List ℚ}
    (h : CellOf codec s scanner metric xs) (calls : List Call) :
    CellOf codec (afterCalls codec scanner metric s calls) scanner metric (xs ++ added calls) := by
  induction calls generalizing s xs with
  | nil => simpa [added, Detection.afterCalls] using h
  | cons c calls ih =>
    have hrest := ih (h.perform hs hm c)
    have hadded : added (c :: calls) = c.added.toList ++ added calls := by
      rw [added, List.filterMap_cons]
      cases c.added <;> rfl
    rw [hadded, ← List.append_assoc]
    exact hrest

/-- Two records have the same statistics. -/
structure SameStatistics (r r' : Baseline) : Prop where
  count : r'.count = r.count
  mean : r'.mean = r.mean
  m2 : r'.m2 = r.m2
  min : r'.min = r.min
  max : r'.max = r.max
  samples : r'.samples = r.samples

/-- A call that adds no value changes no statistic of a record. -/
lemma Cell.perform_of_not_added {r : Baseline} (h : Cell codec s scanner metric (some r))
    {c : Call} (hc : c.added = none) :
    ∃ r', Manager.get codec (c.perform codec scanner metric s) scanner metric = .ok r' ∧
      SameStatistics r r' := by
  cases c with
  | update now value => simp [Call.added] at hc
  | detectDrift now value consecutive =>
    obtain ⟨s', hdrift, hcell'⟩ := h.detectDrift now value consecutive
    refine ⟨r.judge now value (r.anomaly value).1, ?_, rfl, rfl, rfl, rfl, rfl, rfl⟩
    rw [Call.perform, hdrift]
    exact hcell'.1
  | isAnomaly value => exact ⟨r, h.1, rfl, rfl, rfl, rfl, rfl, rfl⟩

/-- **Baseline statistics over whole runs.**  Starting from no record, the record found
after any sequence of calls has the statistics of the values of the `Update` calls, and
is found as soon as there is one; the other calls change none of them. -/
theorem statistics_afterCalls (codec : Codec Baseline V) (s : BadgerStore V)
    {scanner metric : String} (hs : scanner ≠ "") (hm : metric ≠ "")
    (hnone : Manager.get codec s scanner metric = .error .notFound) (calls : List Call) :
    (added calls = [] →
      Manager.get codec (afterCalls codec scanner metric s calls) scanner metric
        = .error .notFound) ∧
    (added calls ≠ [] → ∃ r,
      Manager.get codec (afterCalls codec scanner metric s calls) scanner metric = .ok r ∧
      r.count = (added calls).length ∧
      r.mean = (added calls).sum / (added calls).length ∧
      r.m2 = ((added calls).map fun x => (x - r.mean) ^ 2).sum ∧
      IsLeast {x | x ∈ added calls} r.min ∧
      IsGreatest {x | x ∈ added calls} r.max ∧
      r.samples = (added calls).rtake 200 ∧
      ∀ c : Call, c.added = none → ∃ r',
        Manager.get codec (afterCalls codec scanner metric s (calls ++ [c])) scanner metric
          = .ok r' ∧ SameStatistics r r') := by
  have hstart : CellOf codec s scanner metric [] := ⟨none, hnone, rfl⟩
  obtain ⟨cell, hcell, hsum⟩ := hstart.afterCalls hs hm calls
  rw [List.nil_append] at hsum
  cases cell with
  | none => exact ⟨fun _ => hcell, fun hne => absurd hsum hne⟩
  | some r =>
    have hsum : Summarizes r (added calls) := hsum
    refine ⟨fun he => ?_, fun _ => ⟨r, hcell.1, hsum.count, hsum.mean, ?_, hsum.min, hsum.max,
      hsum.samples, fun c hc => ?_⟩⟩
    · have hmin : r.min ∈ added calls := hsum.min.1
      rw [he] at hmin
      exact absurd hmin List.not_mem_nil
    · rw [hsum.m2, hsum.mean]
      rfl
    · rw [afterCalls, List.foldl_append]
      exact hcell.perform_of_not_added hc

/-- A codec that writes a record as itself. -/
def plainCodec : Codec Baseline Baseline where
  marshal r := r
  unmarshal r := .ok r
  unmarshal_marshal _ := rfl

/-- The statistics of two values, with a drift check between them. -/
theorem statistics_two_values :
    ∃ r, Manager.get plainCodec
        (afterCalls plainCodec "system.cpu" "load" .empty
          [.update 1 10, .detectDrift 2 50 3, .update 3 20]) "system.cpu" "load" = .ok r ∧
      r.count = 2 ∧ r.mean = 15 ∧ r.m2 = 50 ∧ r.samples = [10, 20] := by
  obtain ⟨r, hget, hcount, hmean, hm2, -, -, hsamples, -⟩ :=
    (statistics_afterCalls plainCodec .empty (by decide : "system.cpu" ≠ "")
      (by decide : "load" ≠ "") rfl [.update 1 10, .detectDrift 2 50 3, .update 3 20]).2
      (by decide)
  have hadded : added [.update 1 10, .detectDrift 2 50 3, .update 3 20] = [10, 20] := rfl
  have hmean' : r.mean = 15 := by
    rw [hmean, hadded]
    norm_num
  refine ⟨r, hget, hcount, hmean', ?_, hsamples⟩
  rw [hm2, hmean', hadded]
  norm_num

end Arcsent.Detection
