/-
# Verdicts on values

The test `Manager.IsAnomaly` in exact arithmetic, on the records that `Update` makes.  A
change of units changes no verdict.  The normal values of a record form an interval.  The
z-score looks at all values and the fences at the last two hundred, so the interval can be
empty; the last section says when.
-/
import Mathlib.Order.Interval.Set.OrdConnected
import Arcsent.Detection.BaselineRuns
import Arcsent.Lib.Quantile

namespace Arcsent.Detection

open Arcsent.Go Arcsent.Storage Arcsent.Lib

variable {V : Type} {codec : Codec Baseline V} {s : BadgerStore V} {scanner metric : String}

/-! ## Quartiles and fences -/

lemma isRank_percent (xs : List ℚ) {p : ℚ} (h0 : 0 ≤ p) (h100 : p ≤ 100) :
    IsRank xs (p / 100 * (xs.length - 1 : ℕ)) := by
  have hlen : (0 : ℚ) ≤ (xs.length - 1 : ℕ) := Nat.cast_nonneg _
  refine ⟨by positivity, ?_⟩
  have hp : p / 100 ≤ 1 := by linarith
  exact (mul_le_mul_of_nonneg_right hp hlen).trans_eq (one_mul _)

/-- A percentile strictly between the ends is the value at a rank. -/
lemma percentile_eq_atRank {sorted : List ℚ} (hne : sorted ≠ []) {p : ℚ} (h0 : 0 < p)
    (h100 : p < 100) :
    percentile sorted p = atRank sorted (p / 100 * (sorted.length - 1 : ℕ)) := by
  have hlen : ¬ sorted.length = 0 := fun h => hne (List.length_eq_zero_iff.mp h)
  rw [percentile, if_neg hlen, if_neg (not_le.mpr h0), if_neg (not_le.mpr h100)]
  generalize p / 100 * ((sorted.length - 1 : ℕ) : ℚ) = rank
  have hfloor : rank.floor.toNat = ⌊rank⌋₊ := Int.floor_toNat rank
  have hceil : rank.ceil.toNat = ⌈rank⌉₊ := by
    rw [Rat.ceil_eq_neg_floor_neg]
    exact Int.ceil_toNat rank
  simp only [hfloor, hceil]
  rw [atRank]
  split_ifs with he
  · rw [← he]
    ring
  · ring

/-- The sorted samples are empty only when there are none. -/
lemma sorted_ne_nil {xs : List ℚ} (hxs : xs ≠ []) : xs.insertionSort (· ≤ ·) ≠ [] := by
  intro h
  have hlen := List.length_insertionSort (· ≤ ·) xs
  rw [h] at hlen
  exact hxs (List.length_eq_zero_iff.mp hlen.symm)

/-- The percentile of samples in any order. -/
def quantile (xs : List ℚ) (p : ℚ) : ℚ :=
  atRank (xs.insertionSort (· ≤ ·)) (p / 100 * (xs.length - 1 : ℕ))

/-- The quartiles are the percentiles of the sorted samples. -/
lemma quartiles_eq_percentiles {samples : List ℚ} (hne : samples ≠ []) :
    quartiles samples = (percentile (samples.insertionSort (· ≤ ·)) 25,
      percentile (samples.insertionSort (· ≤ ·)) 75) := by
  have hlen : ¬ samples.length = 0 := fun h => hne (List.length_eq_zero_iff.mp h)
  rw [quartiles, if_neg hlen]

lemma quartiles_eq {xs : List ℚ} (hxs : xs ≠ []) :
    quartiles xs = (quantile xs 25, quantile xs 75) := by
  rw [quartiles_eq_percentiles hxs,
    percentile_eq_atRank (sorted_ne_nil hxs) (by norm_num) (by norm_num),
    percentile_eq_atRank (sorted_ne_nil hxs) (by norm_num) (by norm_num),
    List.length_insertionSort]
  rfl

lemma isRank_sorted (xs : List ℚ) {p : ℚ} (h0 : 0 ≤ p) (h100 : p ≤ 100) :
    IsRank (xs.insertionSort (· ≤ ·)) (p / 100 * (xs.length - 1 : ℕ)) := by
  have h := isRank_percent (xs.insertionSort (· ≤ ·)) h0 h100
  rwa [List.length_insertionSort] at h

lemma quantile_mono {xs : List ℚ} (hxs : xs ≠ []) {p p' : ℚ} (h0 : 0 ≤ p) (hle : p ≤ p')
    (h100 : p' ≤ 100) : quantile xs p ≤ quantile xs p' := by
  refine atRank_mono (List.pairwise_insertionSort (· ≤ ·) xs) (sorted_ne_nil hxs)
    (isRank_sorted xs h0 (hle.trans h100)) (isRank_sorted xs (h0.trans hle) h100) ?_
  have hlen : (0 : ℚ) ≤ (xs.length - 1 : ℕ) := Nat.cast_nonneg _
  exact mul_le_mul_of_nonneg_right (by linarith) hlen

/-- Percentiles follow a map that keeps the order. -/
lemma quantile_map_of_pos {xs : List ℚ} (hxs : xs ≠ []) {a : ℚ} (ha : 0 < a) (b : ℚ) {p : ℚ}
    (h0 : 0 ≤ p) (h100 : p ≤ 100) :
    quantile (xs.map fun x => a * x + b) p = a * quantile xs p + b := by
  have hmono : StrictMono fun x : ℚ => a * x + b := fun x y hxy =>
    add_lt_add_left (mul_lt_mul_of_pos_left hxy ha) b
  rw [quantile, insertionSort_map_of_strictMono hmono, List.length_map,
    atRank_map (sorted_ne_nil hxs) (isRank_sorted xs h0 h100)]
  rfl

/-- A map that turns the order around turns the percentages around. -/
lemma quantile_map_of_neg {xs : List ℚ} (hxs : xs ≠ []) {a : ℚ} (ha : a < 0) (b : ℚ) {p : ℚ}
    (h0 : 0 ≤ p) (h100 : p ≤ 100) :
    quantile (xs.map fun x => a * x + b) p = a * quantile xs (100 - p) + b := by
  have hanti : StrictAnti fun x : ℚ => a * x + b := fun x y hxy =>
    add_lt_add_left (mul_lt_mul_of_neg_left hxy ha) b
  have hmap : (xs.insertionSort (· ≤ ·)).map (fun x => a * x + b) ≠ [] :=
    fun h => sorted_ne_nil hxs (List.map_eq_nil_iff.mp h)
  have hrank : IsRank ((xs.insertionSort (· ≤ ·)).map fun x => a * x + b)
      (p / 100 * (xs.length - 1 : ℕ)) := by
    rw [IsRank, List.length_map]
    exact isRank_sorted xs h0 h100
  rw [quantile, insertionSort_map_of_strictAnti hanti, List.length_map,
    atRank_reverse hmap hrank, List.length_map, List.length_insertionSort]
  have hmirror : ((xs.length - 1 : ℕ) : ℚ) - p / 100 * (xs.length - 1 : ℕ)
      = (100 - p) / 100 * (xs.length - 1 : ℕ) := by ring
  rw [hmirror, atRank_map (sorted_ne_nil hxs)
    (isRank_sorted xs (sub_nonneg.mpr h100) (by linarith))]
  rfl

/-- The fences outside of which a value is an outlier. -/
def fences (samples : List ℚ) : ℚ × ℚ :=
  let q := quartiles samples
  (q.1 - 3 / 2 * (q.2 - q.1), q.2 + 3 / 2 * (q.2 - q.1))

lemma fences_map_of_pos {xs : List ℚ} (hxs : xs ≠ []) {a : ℚ} (ha : 0 < a) (b : ℚ) :
    fences (xs.map fun x => a * x + b) = (a * (fences xs).1 + b, a * (fences xs).2 + b) := by
  have hmap : (xs.map fun x => a * x + b) ≠ [] := fun h => hxs (List.map_eq_nil_iff.mp h)
  simp only [fences, quartiles_eq hmap, quartiles_eq hxs]
  rw [quantile_map_of_pos hxs ha b (by norm_num) (by norm_num),
    quantile_map_of_pos hxs ha b (by norm_num) (by norm_num)]
  ext1 <;> ring

lemma fences_map_of_neg {xs : List ℚ} (hxs : xs ≠ []) {a : ℚ} (ha : a < 0) (b : ℚ) :
    fences (xs.map fun x => a * x + b) = (a * (fences xs).2 + b, a * (fences xs).1 + b) := by
  have hmap : (xs.map fun x => a * x + b) ≠ [] := fun h => hxs (List.map_eq_nil_iff.mp h)
  simp only [fences, quartiles_eq hmap, quartiles_eq hxs]
  rw [quantile_map_of_neg hxs ha b (by norm_num) (by norm_num),
    quantile_map_of_neg hxs ha b (by norm_num) (by norm_num)]
  norm_num
  constructor <;> ring

/-- When all samples are the same, both fences stand on them. -/
lemma fences_of_forall_eq {xs : List ℚ} (hxs : xs ≠ []) {c : ℚ} (hc : ∀ x ∈ xs, x = c) :
    fences xs = (c, c) := by
  have hquantile : ∀ p, 0 ≤ p → p ≤ 100 → quantile xs p = c := fun p h0 h100 =>
    atRank_of_forall_eq (sorted_ne_nil hxs) (isRank_sorted xs h0 h100) fun x hx =>
      hc x ((List.mem_insertionSort (· ≤ ·)).mp hx)
  simp only [fences, quartiles_eq hxs, hquantile 25 (by norm_num) (by norm_num),
    hquantile 75 (by norm_num) (by norm_num), sub_self, mul_zero, sub_zero, add_zero]

/-- A value between the fences. -/
def Fenced (samples : List ℚ) (v : ℚ) : Prop := (fences samples).1 ≤ v ∧ v ≤ (fences samples).2

/-- Being between the fences does not depend on units. -/
lemma fenced_map {xs : List ℚ} (hxs : xs ≠ []) {a : ℚ} (ha : a ≠ 0) (b v : ℚ) :
    Fenced (xs.map fun x => a * x + b) (a * v + b) ↔ Fenced xs v := by
  rcases lt_or_gt_of_ne ha with hneg | hpos
  · rw [Fenced, fences_map_of_neg hxs hneg, Fenced, add_le_add_iff_right, add_le_add_iff_right,
      mul_le_mul_left_of_neg hneg, mul_le_mul_left_of_neg hneg, and_comm]
  · rw [Fenced, fences_map_of_pos hxs hpos, Fenced, add_le_add_iff_right, add_le_add_iff_right,
      mul_le_mul_iff_right₀ hpos, mul_le_mul_iff_right₀ hpos]

/-! ## The two tests -/

/-- When a value is normal. -/
lemma anomaly_eq_false_iff (r : Baseline) (v : ℚ) :
    (r.anomaly v).1 = false ↔
      r.count < minSamples ∨ (r.zOutlier v = false ∧ Fenced r.samples v) := by
  rw [Baseline.anomaly]
  by_cases hcount : r.count < minSamples
  · rw [if_pos hcount]
    exact iff_of_true rfl (Or.inl hcount)
  · rw [if_neg hcount, or_iff_right hcount]
    cases hz : r.zOutlier v with
    | true => simp
    | false =>
      rw [if_neg Bool.false_ne_true, and_iff_right rfl, Fenced, fences]
      dsimp only
      split_ifs with hout
      · exact iff_of_false not_false fun h => hout.elim (not_lt.mpr h.1) (not_lt.mpr h.2)
      · exact iff_of_true rfl ⟨not_lt.mp fun h => hout (.inl h), not_lt.mp fun h => hout (.inr h)⟩

lemma zOutlier_eq_false_iff {r : Baseline} (h : 2 ≤ r.count) (v : ℚ) :
    r.zOutlier v = false ↔ r.variance ≤ 0 ∨ (v - r.mean) ^ 2 < 9 * r.variance := by
  rw [Baseline.zOutlier, if_neg (not_lt.mpr h)]
  split_ifs with hvar
  · exact iff_of_true rfl (Or.inl hvar)
  · rw [or_iff_right hvar, decide_eq_false_iff_not, not_le]

/-! ## Change of units -/

/-- A record summarizes at least one value. -/
lemma Summarizes.ne_nil {r : Baseline} {xs : List ℚ} (h : Summarizes r xs) : xs ≠ [] :=
  List.ne_nil_of_mem h.min.1

lemma length_samples {r : Baseline} {xs : List ℚ} (h : Summarizes r xs) :
    r.samples.length = min xs.length maxSamples := by
  rw [h.samples, List.rtake, List.length_drop]
  omega

lemma Summarizes.samples_ne_nil {r : Baseline} {xs : List ℚ} (h : Summarizes r xs) :
    r.samples ≠ [] := by
  have hpos := List.length_pos_iff.mpr h.ne_nil
  refine List.length_pos_iff.mp ?_
  rw [length_samples h]
  exact lt_min hpos (by decide)

lemma rtake_map {α β : Type} (f : α → β) (xs : List α) (k : ℕ) :
    (xs.map f).rtake k = (xs.rtake k).map f := by
  rw [List.rtake, List.rtake, List.length_map, List.map_drop]

section Units

variable {r r' : Baseline} {xs : List ℚ} {a b : ℚ}

lemma Summarizes.variance_map (h : Summarizes r xs)
    (h' : Summarizes r' (xs.map fun x => a * x + b)) : r'.variance = a ^ 2 * r.variance := by
  have hcount : r'.count = r.count := by rw [h'.count, h.count, List.length_map]
  rw [Baseline.variance, Baseline.variance, hcount, h'.m2, h.m2, sumSqDev_map, mul_div_assoc]

/-- The test on the z-score does not depend on units. -/
lemma Summarizes.zOutlier_map (h : Summarizes r xs)
    (h' : Summarizes r' (xs.map fun x => a * x + b)) (ha : a ≠ 0) (hcount : 2 ≤ r.count) (v : ℚ) :
    r'.zOutlier (a * v + b) = false ↔ r.zOutlier v = false := by
  have hcount' : 2 ≤ r'.count := by
    rw [h'.count, List.length_map, ← h.count]
    exact hcount
  have hsq : 0 < a ^ 2 := by positivity
  have hdist : (a * v + b - r'.mean) ^ 2 = a ^ 2 * (v - r.mean) ^ 2 := by
    rw [h'.mean, mean_map h.ne_nil, ← h.mean]
    ring
  rw [zOutlier_eq_false_iff hcount', zOutlier_eq_false_iff hcount, h.variance_map h', hdist,
    mul_left_comm, mul_lt_mul_iff_right₀ hsq]
  exact or_congr_left ⟨fun hle => nonpos_of_mul_nonpos_right hle hsq,
    fun hle => mul_nonpos_of_nonneg_of_nonpos hsq.le hle⟩

/-- The verdict on a value does not depend on units. -/
lemma Summarizes.anomaly_map (h : Summarizes r xs)
    (h' : Summarizes r' (xs.map fun x => a * x + b)) (ha : a ≠ 0) (v : ℚ) :
    (r'.anomaly (a * v + b)).1 = (r.anomaly v).1 := by
  have hcount : r'.count = r.count := by rw [h'.count, h.count, List.length_map]
  have hiff : (r'.anomaly (a * v + b)).1 = false ↔ (r.anomaly v).1 = false := by
    rw [anomaly_eq_false_iff, anomaly_eq_false_iff, hcount]
    by_cases hfew : r.count < minSamples
    · exact iff_of_true (Or.inl hfew) (Or.inl hfew)
    · have htwo : 2 ≤ r.count := le_trans (by decide) (not_lt.mp hfew)
      rw [or_iff_right hfew, or_iff_right hfew, h.zOutlier_map h' ha htwo, h'.samples, rtake_map,
        ← h.samples, fenced_map h.samples_ne_nil ha]
  exact Bool.not_inj (Bool.eq_iff_iff.mpr (by simpa using hiff))

end Units

/-- The store after `Update` calls for the observed values, each with the time it is made at. -/
def observed (codec : Codec Baseline V) (scanner metric : String) (s : BadgerStore V)
    (observations : List (Time × ℚ)) : BadgerStore V :=
  afterCalls codec scanner metric s (observations.map fun o => .update o.1 o.2)

/-- The verdict of `IsAnomaly` without its text. -/
def verdict (codec : Codec Baseline V) (s : BadgerStore V) (scanner metric : String) (v : ℚ) :
    Except Error Bool :=
  (Manager.isAnomaly codec s scanner metric v).map Prod.fst

/-- The values of the observations. -/
lemma added_observations (observations : List (Time × ℚ)) :
    added (observations.map fun o => .update o.1 o.2) = observations.map Prod.snd := by
  rw [added, List.filterMap_map]
  exact List.filterMap_eq_map_iff_forall_eq_some.mpr fun _ _ => rfl

/-- The record after observations on a fresh baseline. -/
lemma cellOf_observed (hs : scanner ≠ "") (hm : metric ≠ "")
    (hnone : Manager.get codec s scanner metric = .error .notFound)
    (observations : List (Time × ℚ)) :
    CellOf codec (observed codec scanner metric s observations) scanner metric
      (observations.map Prod.snd) := by
  have hstart : CellOf codec s scanner metric [] := ⟨none, hnone, rfl⟩
  have h := hstart.afterCalls hs hm (observations.map fun o => .update o.1 o.2)
  rwa [List.nil_append, added_observations] at h

lemma verdict_of_get {r : Baseline} (h : Manager.get codec s scanner metric = .ok r) (v : ℚ) :
    verdict codec s scanner metric v = .ok (r.anomaly v).1 := by
  rw [verdict, Manager.isAnomaly, h]
  rfl

lemma verdict_of_error {err : Error} (h : Manager.get codec s scanner metric = .error err) (v : ℚ) :
    verdict codec s scanner metric v = .error err := by
  rw [verdict, Manager.isAnomaly, h]
  rfl

/-- An `Update` without names is refused. -/
lemma observed_of_empty (h : scanner = "" ∨ metric = "") (observations : List (Time × ℚ)) :
    observed codec scanner metric s observations = s := by
  induction observations with
  | nil => rfl
  | cons o observations ih =>
    have hrefused : Call.perform codec scanner metric s (.update o.1 o.2) = s := by
      rw [Call.perform, Manager.update, Manager.load, if_pos h]
    rw [observed, List.map_cons, afterCalls, List.foldl_cons, hrefused]
    exact ih

/-- **Verdicts do not depend on units.**  Two fresh baselines are given the same number of
values, those of the second in another unit than those of the first.  Then `IsAnomaly`
answers alike on a value and on the value in the other unit. -/
theorem verdict_affine (codec : Codec Baseline V) {s s' : BadgerStore V} {scanner metric : String}
    (hnone : Manager.get codec s scanner metric = .error .notFound)
    (hnone' : Manager.get codec s' scanner metric = .error .notFound) {a : ℚ} (ha : a ≠ 0) (b : ℚ)
    {observations observations' : List (Time × ℚ)}
    (hunits : observations'.map Prod.snd = (observations.map Prod.snd).map fun x => a * x + b)
    (v : ℚ) :
    verdict codec (observed codec scanner metric s' observations') scanner metric (a * v + b)
      = verdict codec (observed codec scanner metric s observations) scanner metric v := by
  by_cases hempty : scanner = "" ∨ metric = ""
  · rw [observed_of_empty hempty, observed_of_empty hempty, verdict_of_error hnone,
      verdict_of_error hnone']
  · obtain ⟨hs, hm⟩ := not_or.mp hempty
    obtain ⟨cell, hcell, hsum⟩ := cellOf_observed hs hm hnone observations
    obtain ⟨cell', hcell', hsum'⟩ := cellOf_observed hs hm hnone' observations'
    rw [hunits] at hsum'
    cases cell with
    | none =>
      -- no value at all: neither of the two has a record
      have hxs : observations.map Prod.snd = [] := hsum
      cases cell' with
      | none => rw [verdict_of_error hcell, verdict_of_error hcell']
      | some r' =>
        have hsum' : Summarizes r' _ := hsum'
        exact absurd (by rw [hxs, List.map_nil]) hsum'.ne_nil
    | some r =>
      have hsum : Summarizes r _ := hsum
      cases cell' with
      | none => exact absurd (List.map_eq_nil_iff.mp hsum') hsum.ne_nil
      | some r' =>
        rw [verdict_of_get hcell.1, verdict_of_get hcell'.1, hsum.anomaly_map hsum' ha]

/-- Fourteen values and a fifteenth to judge, all turned around and doubled. -/
theorem verdict_doubled :
    verdict plainCodec (observed plainCodec "system.cpu" "load" .empty
        ((List.range 14).map fun i => (1, -2 * (i * i : ℚ) + 7))) "system.cpu" "load" (-2 * 300 + 7)
      = verdict plainCodec (observed plainCodec "system.cpu" "load" .empty
        ((List.range 14).map fun i => (1, (i * i : ℚ)))) "system.cpu" "load" 300 :=
  verdict_affine plainCodec rfl rfl (by norm_num : (-2 : ℚ) ≠ 0) 7
    (by simp only [List.map_map]; rfl) 300

/-! ## The normal values -/

/-- The values that pass the test on the z-score form an interval. -/
lemma ordConnected_not_zOutlier (r : Baseline) :
    Set.OrdConnected {v | r.zOutlier v = false} := by
  refine ⟨fun x hx y hy v hv => ?_⟩
  by_cases hcount : r.count < 2
  · rw [Set.mem_ofPred_eq, Baseline.zOutlier, if_pos hcount]
  · rw [Set.mem_ofPred_eq, zOutlier_eq_false_iff (not_lt.mp hcount)] at hx hy ⊢
    by_cases hvar : r.variance ≤ 0
    · exact Or.inl hvar
    · rw [or_iff_right hvar] at hx hy ⊢
      -- the farther end of the interval is the farther one from the mean
      rcases le_total r.mean v with hle | hle
      · refine lt_of_le_of_lt (pow_le_pow_left₀ (sub_nonneg.mpr hle) ?_ 2) hy
        exact sub_le_sub_right hv.2 _
      · rw [← neg_sq, neg_sub] at hx ⊢
        refine lt_of_le_of_lt (pow_le_pow_left₀ (sub_nonneg.mpr hle) ?_ 2) hx
        exact sub_le_sub_left hv.1 _

lemma ordConnected_fenced (samples : List ℚ) : Set.OrdConnected {v | Fenced samples v} :=
  Set.ordConnected_Icc

/-- The normal values of a record form an interval. -/
lemma ordConnected_normal (r : Baseline) : Set.OrdConnected {v | (r.anomaly v).1 = false} := by
  have heq : {v | (r.anomaly v).1 = false}
      = {v | r.count < minSamples ∨ (r.zOutlier v = false ∧ Fenced r.samples v)} :=
    Set.ext fun v => anomaly_eq_false_iff r v
  rw [heq]
  by_cases hfew : r.count < minSamples
  · simp only [hfew, true_or, Set.ofPred_true]
    exact Set.ordConnected_univ
  · simp only [hfew, false_or]
    exact (ordConnected_not_zOutlier r).inter (ordConnected_fenced r.samples)

/-- **The normal values form an interval.**  In every store, what lies between two normal
values is normal, and what lies beyond an anomalous value, seen from a normal one, is
anomalous. -/
theorem normal_interval (codec : Codec Baseline V) (s : BadgerStore V) (scanner metric : String) :
    (∀ a b c, a ≤ b → b ≤ c → verdict codec s scanner metric a = .ok false →
      verdict codec s scanner metric c = .ok false →
      verdict codec s scanner metric b = .ok false) ∧
    (∀ v w u, verdict codec s scanner metric v = .ok false →
      verdict codec s scanner metric w = .ok true →
      (v ≤ w ∧ w ≤ u ∨ u ≤ w ∧ w ≤ v) → verdict codec s scanner metric u = .ok true) := by
  cases hget : Manager.get codec s scanner metric with
  | error err =>
    simp only [verdict_of_error hget]
    exact ⟨fun a b c _ _ ha => absurd ha (by simp), fun v w u hv => absurd hv (by simp)⟩
  | ok r =>
    have hnormal := ordConnected_normal r
    simp only [verdict_of_get hget, Except.ok.injEq]
    refine ⟨fun a b c hab hbc ha hc => hnormal.out ha hc ⟨hab, hbc⟩, fun v w u hv hw hside => ?_⟩
    by_contra hu
    rw [Bool.not_eq_true] at hu
    have hwn : (r.anomaly w).1 = false := by
      rcases hside with ⟨hvw, hwu⟩ | ⟨huw, hwv⟩
      · exact hnormal.out hv hu ⟨hvw, hwu⟩
      · exact hnormal.out hu hv ⟨huw, hwv⟩
    rw [hw] at hwn
    exact Bool.noConfusion hwn

/-- After equal values only the same value is normal. -/
lemma Summarizes.anomaly_of_forall_eq {r : Baseline} {xs : List ℚ} (h : Summarizes r xs)
    (hcount : minSamples ≤ r.count) {c : ℚ} (hc : ∀ x ∈ xs, x = c) (v : ℚ) :
    (r.anomaly v).1 = false ↔ v = c := by
  have hsamples : ∀ x ∈ r.samples, x = c := by
    intro x hx
    rw [h.samples] at hx
    exact hc x (List.mem_of_mem_drop hx)
  rw [anomaly_eq_false_iff, or_iff_right (not_lt.mpr hcount), Fenced,
    fences_of_forall_eq h.samples_ne_nil hsamples]
  refine ⟨fun hv => le_antisymm hv.2.2 hv.2.1, ?_⟩
  rintro rfl
  refine ⟨?_, le_rfl, le_rfl⟩
  rw [zOutlier_eq_false_iff (le_trans (by decide) hcount), h.mean, mean_of_forall_eq h.ne_nil hc]
  rcases le_or_gt r.variance 0 with hle | hpos
  · exact Or.inl hle
  · exact Or.inr (by linarith)

/-- After twelve equal values a smaller one is anomalous, and so is one that is smaller yet. -/
theorem anomalous_beyond :
    verdict plainCodec (observed plainCodec "system.cpu" "load" .empty (List.replicate 12 (1, 5)))
      "system.cpu" "load" 2 = .ok true := by
  have hrecord : CellOf plainCodec
      (observed plainCodec "system.cpu" "load" .empty (List.replicate 12 (1, 5)))
      "system.cpu" "load" ((List.replicate 12 (1, 5)).map Prod.snd) :=
    cellOf_observed (by decide) (by decide) rfl _
  obtain ⟨cell, hcell, hsum⟩ := hrecord
  rw [List.map_replicate] at hsum
  cases cell with
  | none => exact absurd hsum (by decide)
  | some r =>
    have hsum : Summarizes r (List.replicate 12 5) := hsum
    have hcount : minSamples ≤ r.count := by
      rw [hsum.count]
      decide
    have hnormal := hsum.anomaly_of_forall_eq hcount fun x hx => List.eq_of_mem_replicate hx
    have hfive := (hnormal 5).mpr rfl
    have hthree : (r.anomaly 3).1 = true := by
      rw [← Bool.not_eq_false, hnormal]
      norm_num
    refine (normal_interval plainCodec _ "system.cpu" "load").2 5 3 2 ?_ ?_ ?_
    · rw [verdict_of_get hcell.1, hfive]
    · rw [verdict_of_get hcell.1, hthree]
    · exact .inr ⟨by norm_num, by norm_num⟩

end Arcsent.Detection
