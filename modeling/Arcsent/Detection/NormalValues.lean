/-
# When no value is normal

The test on the z-score accepts what is near the mean of all values, the fences accept
what is near most of the last two hundred.  After a level shift in a long history the two
can be disjoint; then every value is anomalous.
-/
import Mathlib.Tactic.LinearCombination
import Arcsent.Detection.Verdicts

namespace Arcsent.Detection

open Arcsent.Go Arcsent.Storage Arcsent.Lib

variable {V : Type} {codec : Codec Baseline V} {s : BadgerStore V} {scanner metric : String}
variable {xs : List ℚ}

/-! ## The fences of the last values and the mean of all values -/

/-- The square of the standard deviation of a list of values. -/
def sampleVariance (xs : List ℚ) : ℚ := sumSqDev xs / (xs.length - 1 : ℕ)

/-- The lower and the upper fence of the last values. -/
def lowFence (xs : List ℚ) : ℚ := (fences (xs.rtake maxSamples)).1

def highFence (xs : List ℚ) : ℚ := (fences (xs.rtake maxSamples)).2

/-- The mean of all values lies between the fences of the last ones, or the fence next to it
is less than three standard deviations away. -/
def MeanNearFences (xs : List ℚ) : Prop :=
  (lowFence xs ≤ mean xs ∧ mean xs ≤ highFence xs) ∨
  (highFence xs < mean xs ∧ (highFence xs - mean xs) ^ 2 < 9 * sampleVariance xs) ∨
  (mean xs < lowFence xs ∧ (lowFence xs - mean xs) ^ 2 < 9 * sampleVariance xs)

lemma rtake_ne_nil (hxs : xs ≠ []) : xs.rtake maxSamples ≠ [] := by
  have hpos := List.length_pos_iff.mpr hxs
  refine List.length_pos_iff.mp ?_
  rw [List.rtake, List.length_drop, maxSamples]
  omega

lemma quartile_le_quartile (hxs : xs ≠ []) :
    quantile (xs.rtake maxSamples) 25 ≤ quantile (xs.rtake maxSamples) 75 :=
  quantile_mono (rtake_ne_nil hxs) (by norm_num) (by norm_num) (by norm_num)

lemma quartile_le_highFence (hxs : xs ≠ []) : quantile (xs.rtake maxSamples) 75 ≤ highFence xs := by
  have hmono := quartile_le_quartile hxs
  simp only [highFence, fences, quartiles_eq (rtake_ne_nil hxs)]
  linarith

lemma lowFence_le_quartile (hxs : xs ≠ []) : lowFence xs ≤ quantile (xs.rtake maxSamples) 25 := by
  have hmono := quartile_le_quartile hxs
  simp only [lowFence, fences, quartiles_eq (rtake_ne_nil hxs)]
  linarith

lemma lowFence_le_highFence (hxs : xs ≠ []) : lowFence xs ≤ highFence xs :=
  (lowFence_le_quartile hxs).trans
    ((quantile_mono (rtake_ne_nil hxs) (by norm_num) (by norm_num) (by norm_num)).trans
      (quartile_le_highFence hxs))

/-- Without deviation all values are the mean, and so are the fences. -/
lemma meanNearFences_of_sumSqDev (hxs : xs ≠ []) (h : sumSqDev xs = 0) : MeanNearFences xs := by
  have hall := forall_eq_of_sumSqDev h
  have hfences : fences (xs.rtake maxSamples) = (mean xs, mean xs) :=
    fences_of_forall_eq (rtake_ne_nil hxs) fun x hx => hall x (List.mem_of_mem_drop hx)
  refine Or.inl ⟨?_, ?_⟩
  · rw [lowFence, hfences]
  · rw [highFence, hfences]

lemma Summarizes.variance_eq {r : Baseline} (h : Summarizes r xs) :
    r.variance = sampleVariance xs := by
  have hpos := List.length_pos_iff.mpr h.ne_nil
  have hcount : r.count - 1 = (xs.length - 1 : ℕ) := by
    rw [h.count]
    omega
  rw [Baseline.variance, sampleVariance, h.m2, hcount, Int.cast_natCast]

/-- A record of ten values or more finds some value normal exactly when the mean is near the
fences. -/
lemma exists_normal_iff {r : Baseline} (h : Summarizes r xs) (h10 : 10 ≤ xs.length) :
    (∃ v, (r.anomaly v).1 = false) ↔ MeanNearFences xs := by
  have hcount : minSamples ≤ r.count := by
    rw [h.count, minSamples]
    omega
  have hnormal : ∀ v, (r.anomaly v).1 = false ↔
      (sampleVariance xs ≤ 0 ∨ (v - mean xs) ^ 2 < 9 * sampleVariance xs) ∧
        lowFence xs ≤ v ∧ v ≤ highFence xs := by
    intro v
    rw [anomaly_eq_false_iff, or_iff_right (not_lt.mpr hcount),
      zOutlier_eq_false_iff (le_trans (by decide) hcount), h.variance_eq, h.mean, Fenced, h.samples]
    rfl
  simp only [hnormal]
  have hordered := lowFence_le_highFence h.ne_nil
  constructor
  · rintro ⟨v, hz | hz, hlow, hhigh⟩
    · refine meanNearFences_of_sumSqDev h.ne_nil (le_antisymm ?_ (sumSqDev_nonneg xs))
      have hpos : (0 : ℚ) < (xs.length - 1 : ℕ) := by
        rw [Nat.cast_pos]
        omega
      rw [sampleVariance] at hz
      by_contra hlt
      exact absurd hz (not_le.mpr (div_pos (not_le.mp hlt) hpos))
    · rcases lt_or_ge (mean xs) (lowFence xs) with hbelow | hlow'
      · refine Or.inr (Or.inr ⟨hbelow, lt_of_le_of_lt ?_ hz⟩)
        exact pow_le_pow_left₀ (sub_nonneg.mpr hbelow.le) (sub_le_sub_right hlow _) 2
      · rcases lt_or_ge (highFence xs) (mean xs) with habove | hhigh'
        · refine Or.inr (Or.inl ⟨habove, lt_of_le_of_lt ?_ hz⟩)
          rw [← neg_sq (highFence xs - _), ← neg_sq (v - _), neg_sub, neg_sub]
          exact pow_le_pow_left₀ (sub_nonneg.mpr habove.le) (sub_le_sub_left hhigh _) 2
        · exact Or.inl ⟨hlow', hhigh'⟩
  · rintro (⟨hlow, hhigh⟩ | ⟨-, hz⟩ | ⟨-, hz⟩)
    · refine ⟨mean xs, ?_, hlow, hhigh⟩
      rcases le_or_gt (sampleVariance xs) 0 with hle | hpos
      · exact Or.inl hle
      · exact Or.inr (by linarith)
    · exact ⟨highFence xs, Or.inr hz, hordered, le_rfl⟩
    · exact ⟨lowFence xs, Or.inr hz, le_rfl, hordered⟩

/-! ## Short histories -/

/-- More than three quarters of the places in a list hold at most the third quartile. -/
lemma quarter_lt_countP {w : List ℚ} (hw : w ≠ []) :
    (75 / 100 * (w.length - 1 : ℕ) : ℚ) < w.countP fun x => x ≤ quantile w 75 := by
  have hcount := floor_lt_countP (List.pairwise_insertionSort (· ≤ ·) w) (sorted_ne_nil hw)
    (isRank_sorted w (p := 75) (by norm_num) (by norm_num))
  rw [(List.perm_insertionSort (· ≤ ·) w).countP_eq] at hcount
  exact (Nat.lt_floor_add_one _).trans_le (by exact_mod_cast hcount)

/-- So do at least as many of all values hold at most the upper fence. -/
lemma quarter_lt_countP_highFence (hxs : xs ≠ []) :
    (75 / 100 * ((xs.rtake maxSamples).length - 1 : ℕ) : ℚ)
      < xs.countP fun x => x ≤ highFence xs := by
  refine (quarter_lt_countP (rtake_ne_nil hxs)).trans_le (Nat.cast_le.mpr ?_)
  calc (xs.rtake maxSamples).countP (fun x => x ≤ quantile (xs.rtake maxSamples) 75)
      ≤ (xs.rtake maxSamples).countP (fun x => x ≤ highFence xs) :=
        List.countP_mono_left fun x _ hx => decide_eq_true
          ((of_decide_eq_true hx).trans (quartile_le_highFence hxs))
    _ ≤ xs.countP (fun x => x ≤ highFence xs) := (List.drop_sublist _ xs).countP_le

/-- In a short history the mean is not three standard deviations above the upper fence: too
many values lie below it. -/
lemma near_highFence (h10 : 10 ≤ xs.length) (h1500 : xs.length ≤ 1500)
    (h : highFence xs < mean xs) : (highFence xs - mean xs) ^ 2 < 9 * sampleVariance xs := by
  have hxs : xs ≠ [] := List.length_pos_iff.mp (by omega)
  by_contra hfar
  have hdist : 0 < (highFence xs - mean xs) ^ 2 := sq_pos_of_neg (sub_neg.mpr h)
  have hn : ((xs.length - 1 : ℕ) : ℚ) = xs.length - 1 := Nat.cast_pred (by omega)
  have hdev : 9 * sumSqDev xs ≤ (xs.length - 1) * (highFence xs - mean xs) ^ 2 := by
    have hpos : (0 : ℚ) < (xs.length - 1 : ℕ) := Nat.cast_pos.mpr (by omega)
    have hfar := not_lt.mp hfar
    rw [sampleVariance, ← mul_div_assoc, div_le_iff₀ hpos, hn] at hfar
    linarith
  -- the squares are taken about a point a little above the mean
  have hsquares := countP_mul_sq_le xs (fun x => x ≤ highFence xs)
    (mean xs + (mean xs - highFence xs) / 9) (highFence xs) fun x hx => by
      have hle : x ≤ highFence xs := of_decide_eq_true hx
      rw [← neg_sq, ← neg_sq (x - _)]
      exact pow_le_pow_left₀ (by linarith) (by linarith) 2
  have hcount := quarter_lt_countP_highFence hxs
  generalize (xs.countP fun x => decide (x ≤ highFence xs)) = k at hsquares hcount
  have hfew : 100 * (k : ℚ) ≤ 10 * xs.length - 9 := by
    refine le_of_mul_le_mul_right ?_ hdist
    linear_combination 81 * hsquares + 9 * hdev
  have hwindow : (xs.rtake maxSamples).length = min xs.length 200 := by
    rw [List.rtake, List.length_drop, maxSamples]
    omega
  rw [hwindow] at hcount
  have h1500' : (xs.length : ℚ) ≤ 1500 := by exact_mod_cast h1500
  have h10' : (10 : ℚ) ≤ xs.length := by exact_mod_cast h10
  rcases le_total xs.length 200 with hle | hge
  · rw [min_eq_left hle, hn] at hcount
    linarith
  · rw [min_eq_right hge] at hcount
    have hwhole : 149 < k := by
      have hlt : ((149 : ℕ) : ℚ) < k := lt_trans (by norm_num) hcount
      exact Nat.cast_lt.mp hlt
    have hwhole' : (150 : ℚ) ≤ k := by exact_mod_cast hwhole
    linarith

lemma sampleVariance_neg (xs : List ℚ) :
    sampleVariance (xs.map fun x => -1 * x + 0) = sampleVariance xs := by
  rw [sampleVariance, sampleVariance, sumSqDev_map, List.length_map]
  norm_num

/-- So it is below the lower fence. -/
lemma near_lowFence (h10 : 10 ≤ xs.length) (h1500 : xs.length ≤ 1500)
    (h : mean xs < lowFence xs) : (lowFence xs - mean xs) ^ 2 < 9 * sampleVariance xs := by
  have hxs : xs ≠ [] := List.length_pos_iff.mp (by omega)
  -- with the signs of all values changed this is the upper fence
  have hmean := mean_map hxs (-1) 0
  have hfence : highFence (xs.map fun x => -1 * x + 0) = -1 * lowFence xs + 0 := by
    rw [highFence, rtake_map, fences_map_of_neg (rtake_ne_nil hxs) (by norm_num), lowFence]
  have hlen : (xs.map fun x => -1 * x + 0).length = xs.length := List.length_map _
  have hnear := near_highFence (hlen.symm ▸ h10) (hlen.symm ▸ h1500)
    (by rw [hfence, hmean]; linarith)
  rw [sampleVariance_neg, hfence, hmean] at hnear
  linarith

/-- In a short history the mean is near the fences. -/
lemma meanNearFences_of_length (h10 : 10 ≤ xs.length) (h1500 : xs.length ≤ 1500) :
    MeanNearFences xs := by
  rcases lt_or_ge (highFence xs) (mean xs) with habove | hhigh
  · exact Or.inr (Or.inl ⟨habove, near_highFence h10 h1500 habove⟩)
  · rcases lt_or_ge (mean xs) (lowFence xs) with hbelow | hlow
    · exact Or.inr (Or.inr ⟨hbelow, near_lowFence h10 h1500 hbelow⟩)
    · exact Or.inl ⟨hlow, hhigh⟩

/-- **When some value is normal.**  After at least ten values on a fresh baseline some value
is normal exactly when the mean of all values is near the fences of the last two hundred; up
to fifteen hundred values it always is. -/
theorem exists_normal_value_iff (codec : Codec Baseline V) {s : BadgerStore V}
    {scanner metric : String} (hs : scanner ≠ "") (hm : metric ≠ "")
    (hnone : Manager.get codec s scanner metric = .error .notFound)
    (observations : List (Time × ℚ)) (h10 : 10 ≤ observations.length) :
    ((∃ v, verdict codec (observed codec scanner metric s observations) scanner metric v
        = .ok false) ↔ MeanNearFences (observations.map Prod.snd)) ∧
    (observations.length ≤ 1500 → MeanNearFences (observations.map Prod.snd)) := by
  have hlen : 10 ≤ (observations.map Prod.snd).length := by rwa [List.length_map]
  refine ⟨?_, fun h1500 => meanNearFences_of_length hlen (by rwa [List.length_map])⟩
  obtain ⟨cell, hcell, hsum⟩ := cellOf_observed hs hm hnone observations
  cases cell with
  | none =>
    have hnil : observations.map Prod.snd = [] := hsum
    rw [hnil] at hlen
    exact absurd hlen (by decide)
  | some r =>
    rw [← exists_normal_iff hsum hlen]
    simp only [verdict_of_get hcell.1, Except.ok.injEq]

/-- After twelve equal values some value is normal. -/
theorem exists_normal_value_of_equal :
    ∃ v, verdict plainCodec (observed plainCodec "system.cpu" "load" .empty
      (List.replicate 12 (1, 5))) "system.cpu" "load" v = .ok false := by
  have h := exists_normal_value_iff plainCodec (s := .empty) (by decide : "system.cpu" ≠ "")
    (by decide : "load" ≠ "") rfl (List.replicate 12 (1, 5)) (by decide)
  exact h.1.mpr (h.2 (by decide))

/-! ## A level shift -/

/-- Zeros for a long time, then ones for as long as the window is. -/
def levelShift : List (Time × ℚ) := List.replicate 1801 (1, 0) ++ List.replicate 200 (2, 1)

lemma levelShift_values :
    levelShift.map Prod.snd = List.replicate 1801 0 ++ List.replicate 200 1 := by
  rw [levelShift, List.map_append, List.map_replicate, List.map_replicate]

lemma length_levelShift : (levelShift.map Prod.snd).length = 2001 := by
  rw [levelShift_values, List.length_append, List.length_replicate, List.length_replicate]

lemma mean_levelShift : mean (levelShift.map Prod.snd) = 200 / 2001 := by
  rw [mean, length_levelShift, levelShift_values, List.sum_append, List.sum_replicate,
    List.sum_replicate]
  norm_num

lemma fences_levelShift : fences ((levelShift.map Prod.snd).rtake maxSamples) = (1, 1) := by
  have hwindow : (levelShift.map Prod.snd).rtake maxSamples = List.replicate 200 1 := by
    rw [List.rtake, length_levelShift, levelShift_values]
    exact List.drop_left' List.length_replicate
  rw [hwindow]
  exact fences_of_forall_eq (by simp) fun x hx => List.eq_of_mem_replicate hx

lemma sampleVariance_levelShift :
    sampleVariance (levelShift.map Prod.snd) = 200 * 1801 / 2001 / 2000 := by
  rw [sampleVariance, sumSqDev_eq, mean_levelShift, length_levelShift, levelShift_values,
    List.map_append, List.map_replicate, List.map_replicate, List.sum_append, List.sum_replicate,
    List.sum_replicate]
  norm_num

/-- After the shift the mean is more than three standard deviations below both fences. -/
lemma not_meanNearFences_levelShift : ¬ MeanNearFences (levelShift.map Prod.snd) := by
  rw [MeanNearFences, lowFence, highFence, fences_levelShift, mean_levelShift,
    sampleVariance_levelShift]
  norm_num

/-- After the shift no value is normal. -/
theorem levelShift_all_anomalous :
    10 ≤ levelShift.length ∧ ∀ v, verdict plainCodec
      (observed plainCodec "system.cpu" "load" .empty levelShift) "system.cpu" "load" v
        = .ok true := by
  have hlen : levelShift.length = 2001 := by
    rw [← length_levelShift, List.length_map]
  refine ⟨by omega, fun v => ?_⟩
  have hrecord : CellOf plainCodec (observed plainCodec "system.cpu" "load" .empty levelShift)
      "system.cpu" "load" (levelShift.map Prod.snd) :=
    cellOf_observed (by decide) (by decide) rfl levelShift
  obtain ⟨cell, hcell, hsum⟩ := hrecord
  cases cell with
  | none =>
    have hnil : levelShift.map Prod.snd = [] := hsum
    have hlen' := length_levelShift
    rw [hnil] at hlen'
    exact absurd hlen' (by decide)
  | some r =>
    have hlen' : 10 ≤ (levelShift.map Prod.snd).length := by
      rw [length_levelShift]
      omega
    rw [verdict_of_get hcell.1]
    cases hv : (r.anomaly v).1 with
    | true => rfl
    | false =>
      exact absurd ((exists_normal_iff hsum hlen').mp ⟨v, hv⟩) not_meanNearFences_levelShift

end Arcsent.Detection
