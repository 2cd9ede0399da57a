/-
# Percentiles and quartiles of the samples

`percentile` and `quartiles` of `internal/detection/baseline.go` once more, on slices this
time: with every index checked against the length of the slice, and with the copy that is
sorted in the place of the caller's samples.  On lists they are the functions of
`Arcsent.Detection.Baseline`, and there a percentile is the value at a rank.
-/
import Arcsent.Detection.Verdicts
import Arcsent.Go.Slices

namespace Arcsent.Detection

open Arcsent.Go Arcsent.Lib

/-- The function `percentile`; no result when an index is out of range. -/
def percentileAt (mem : Memory ℚ) (sorted : Slice) (p : ℚ) : Option ℚ :=
  if sorted.len = 0 then some 0
  else if p ≤ 0 then mem.index sorted 0
  else if p ≥ 100 then mem.index sorted (sorted.len - 1)
  else do
    let rank := p / 100 * ((sorted.len - 1 : ℤ) : ℚ)
    let lower := rank.floor
    let upper := rank.ceil
    if lower = upper then mem.index sorted lower
    else do
      let weight := rank - lower
      let below ← mem.index sorted lower
      let above ← mem.index sorted upper
      return below * (1 - weight) + above * weight

/-- The function `quartiles`; `room` is what `append` leaves behind the copy. -/
def quartilesAt (mem : Memory ℚ) (room : List ℚ) (samples : Slice) :
    Option (Memory ℚ × ℚ × ℚ) :=
  if samples.len = 0 then some (mem, 0, 0)
  else do
    let sorted := (mem.clone room samples).2
    let mem := (mem.clone room samples).1.sort sorted
    let q1 ← percentileAt mem sorted 25
    let q3 ← percentileAt mem sorted 75
    return (mem, q1, q3)

/-! ## Percentiles of a sorted list -/

section Ends

variable {sorted : List ℚ}

/-- From no percent on downwards a percentile is the first element. -/
lemma percentile_of_nonpos (hne : sorted ≠ []) {p : ℚ} (h0 : p ≤ 0) :
    percentile sorted p = sorted.getD 0 0 := by
  have hlen : ¬ sorted.length = 0 := fun h => hne (List.length_eq_zero_iff.mp h)
  rw [percentile, if_neg hlen, if_pos h0, List.headD_eq_head?_getD, List.head?_eq_getElem?,
    List.getD_eq_getElem?_getD]

/-- From a hundred percent on upwards a percentile is the last element. -/
lemma percentile_of_ge (hne : sorted ≠ []) {p : ℚ} (h100 : p ≥ 100) :
    percentile sorted p = sorted.getD (sorted.length - 1) 0 := by
  have hlen : ¬ sorted.length = 0 := fun h => hne (List.length_eq_zero_iff.mp h)
  have h0 : ¬ p ≤ 0 := not_le.mpr (by linarith)
  rw [percentile, if_neg hlen, if_neg h0, if_pos h100, List.getLastD_eq_getLast?,
    List.getLast?_eq_getElem?, List.getD_eq_getElem?_getD]

/-- With both ends the percentiles are values at ranks. -/
lemma percentile_eq_atRank_of_mem (hne : sorted ≠ []) {p : ℚ} (hp : p ∈ Set.Icc (0 : ℚ) 100) :
    percentile sorted p = atRank sorted (p / 100 * (sorted.length - 1 : ℕ)) := by
  rcases hp.1.eq_or_lt with rfl | h0
  · have hzero := atRank_natCast sorted 0
    rw [Nat.cast_zero] at hzero
    rw [percentile_of_nonpos hne le_rfl, zero_div, zero_mul, hzero]
  rcases hp.2.eq_or_lt with rfl | h100
  · rw [percentile_of_ge hne le_rfl, div_self (by norm_num), one_mul, atRank_natCast]
  · exact percentile_eq_atRank hne h0 h100

/-- The percentiles of a sorted list grow. -/
lemma monotoneOn_percentile (hsorted : sorted.Pairwise (· ≤ ·)) (hne : sorted ≠ []) :
    MonotoneOn (percentile sorted) (Set.Icc 0 100) := by
  intro p hp p' hp' hle
  have hlen : (0 : ℚ) ≤ (sorted.length - 1 : ℕ) := Nat.cast_nonneg _
  rw [percentile_eq_atRank_of_mem hne hp, percentile_eq_atRank_of_mem hne hp']
  refine atRank_mono hsorted hne (isRank_percent sorted hp.1 hp.2)
    (isRank_percent sorted hp'.1 hp'.2) ?_
  exact mul_le_mul_of_nonneg_right (by linarith) hlen

lemma isLeast_percentile_zero (hsorted : sorted.Pairwise (· ≤ ·)) (hne : sorted ≠ []) :
    IsLeast {x | x ∈ sorted} (percentile sorted 0) := by
  rw [percentile_of_nonpos hne le_rfl]
  exact isLeast_getD_zero hsorted hne

lemma isGreatest_percentile_hundred (hsorted : sorted.Pairwise (· ≤ ·)) (hne : sorted ≠ []) :
    IsGreatest {x | x ∈ sorted} (percentile sorted 100) := by
  rw [percentile_of_ge hne le_rfl]
  exact isGreatest_getD_last hsorted hne

end Ends

/-! ## Every index is in range -/

section Ranks

variable {xs : List ℚ} {rank : ℚ}

lemma floor_nonneg_of_isRank (h : IsRank xs rank) : 0 ≤ rank.floor := Int.floor_nonneg.mpr h.1

lemma ceil_le_of_isRank (h : IsRank xs rank) : rank.ceil ≤ (xs.length - 1 : ℕ) := by
  rw [Rat.ceil_eq_neg_floor_neg]
  exact Int.ceil_le.mpr (by exact_mod_cast h.2)

lemma floor_le_ceil (rank : ℚ) : rank.floor ≤ rank.ceil := by
  rw [Rat.ceil_eq_neg_floor_neg]
  exact Int.floor_le_ceil rank

end Ranks

section Indices

variable {mem : Memory ℚ} {s : Slice}

/-- Strictly between the ends both indices are in range. -/
lemma percentileAt_of_between (h : mem.Valid s) (hempty : s.len ≠ 0) {p : ℚ} (h0 : 0 < p)
    (h100 : p < 100) : percentileAt mem s p = some (percentile (mem.elems s) p) := by
  have hlen := h.length_elems
  have hrank := isRank_percent (mem.elems s) h0.le h100.le
  have hcast : ((s.len - 1 : ℤ) : ℚ) = ((s.len - 1 : ℕ) : ℚ) := by
    rw [Nat.cast_pred (Nat.pos_of_ne_zero hempty)]
    push_cast
    rfl
  rw [percentileAt, if_neg hempty, if_neg (not_le.mpr h0), if_neg (not_le.mpr h100), percentile,
    hlen, if_neg hempty, if_neg (not_le.mpr h0), if_neg (not_le.mpr h100), hcast]
  rw [hlen] at hrank
  dsimp only
  generalize p / 100 * ((s.len - 1 : ℕ) : ℚ) = rank at hrank ⊢
  have hfloor := floor_nonneg_of_isRank hrank
  have hceil := ceil_le_of_isRank hrank
  have hle := floor_le_ceil rank
  rw [hlen] at hceil
  have hsame : rank.floor = rank.ceil ↔ rank.floor.toNat = rank.ceil.toNat := by omega
  have hbelow : ((rank.floor.toNat : ℕ) : ℚ) = (rank.floor : ℤ) := by
    exact_mod_cast Int.toNat_of_nonneg hfloor
  rw [h.index_eq_some hfloor (by omega) 0, h.index_eq_some (hfloor.trans hle) (by omega) 0, hbelow]
  by_cases he : rank.floor = rank.ceil
  · rw [if_pos he, if_pos (hsame.mp he)]
  · rw [if_neg he, if_neg fun heq => he (hsame.mpr heq)]
    rfl

/-- On a slice `percentile` never panics, and it is the percentile of the elements. -/
lemma percentileAt_eq (h : mem.Valid s) (p : ℚ) :
    percentileAt mem s p = some (percentile (mem.elems s) p) := by
  have hlen := h.length_elems
  by_cases hempty : s.len = 0
  · rw [percentileAt, if_pos hempty, percentile, hlen, if_pos hempty]
  have hne : mem.elems s ≠ [] := by
    intro hnil
    rw [hnil] at hlen
    exact hempty hlen.symm
  by_cases h0 : p ≤ 0
  · rw [percentile_of_nonpos hne h0, percentileAt, if_neg hempty, if_pos h0,
      h.index_eq_some le_rfl (by omega) 0]
    rfl
  by_cases h100 : p ≥ 100
  · have hlast : ((s.len : ℤ) - 1).toNat = s.len - 1 := by omega
    rw [percentile_of_ge hne h100, percentileAt, if_neg hempty, if_neg h0, if_pos h100,
      h.index_eq_some (by omega) (by omega) 0, hlast, hlen]
  · exact percentileAt_of_between h hempty (not_le.mp h0) (not_le.mp h100)

end Indices

/-! ## Quartiles -/

/-- Samples in another order have the same quartiles. -/
lemma quartiles_perm {samples samples' : List ℚ} (h : samples'.Perm samples) :
    quartiles samples' = quartiles samples := by
  rw [quartiles, quartiles, insertionSort_eq_of_perm h, h.length_eq]

/-- The run of `quartiles` on a valid slice: it ends with the quartiles of the elements, and
the arrays that were there are as they were. -/
lemma quartilesAt_eq {mem : Memory ℚ} {samples : Slice} (h : mem.Valid samples) (room : List ℚ) :
    ∃ mem', quartilesAt mem room samples = some (mem', quartiles (mem.elems samples)) ∧
      mem.Keeps mem' := by
  have hlen := h.length_elems
  by_cases hempty : samples.len = 0
  · refine ⟨mem, ?_, .refl mem⟩
    rw [quartilesAt, if_pos hempty, quartiles, hlen, if_pos hempty]
  · obtain ⟨hkeeps, hnewer⟩ := mem.keeps_clone room samples
    have hcopy := mem.valid_clone room samples
    refine ⟨(mem.clone room samples).1.sort (mem.clone room samples).2, ?_,
      hkeeps.overwrite hnewer _ _⟩
    rw [quartilesAt, if_neg hempty, quartiles, hlen, if_neg hempty]
    dsimp only
    rw [percentileAt_eq hcopy.sort, percentileAt_eq hcopy.sort, hcopy.elems_sort, mem.elems_clone]
    rfl

lemma setOf_mem_insertionSort (samples : List ℚ) :
    {x | x ∈ samples.insertionSort (· ≤ ·)} = {x | x ∈ samples} := by
  ext x
  exact List.mem_insertionSort _

/-- **Quartiles are well behaved.**  Of sorted samples `percentile` takes every index within
the slice, it grows from the least sample to the greatest, and the quartiles lie in that
order between the two.  They do not depend on the order of the samples.  On a slice of the
caller `quartiles` returns them and leaves the elements of every slice as they were. -/
theorem quartiles_between {samples : List ℚ} (hne : samples ≠ []) :
    (∀ (mem : Memory ℚ) (sorted : Slice), mem.Valid sorted →
      mem.elems sorted = samples.insertionSort (· ≤ ·) →
      ∀ p, percentileAt mem sorted p = some (percentile (samples.insertionSort (· ≤ ·)) p)) ∧
    MonotoneOn (percentile (samples.insertionSort (· ≤ ·))) (Set.Icc 0 100) ∧
    IsLeast {x | x ∈ samples} (percentile (samples.insertionSort (· ≤ ·)) 0) ∧
    IsGreatest {x | x ∈ samples} (percentile (samples.insertionSort (· ≤ ·)) 100) ∧
    percentile (samples.insertionSort (· ≤ ·)) 0 ≤ (quartiles samples).1 ∧
    (quartiles samples).1 ≤ (quartiles samples).2 ∧
    (quartiles samples).2 ≤ percentile (samples.insertionSort (· ≤ ·)) 100 ∧
    (∀ samples', samples'.Perm samples → quartiles samples' = quartiles samples) ∧
    ∀ (mem : Memory ℚ) (room : List ℚ) (caller : Slice), mem.Valid caller →
      mem.elems caller = samples →
      ∃ mem', quartilesAt mem room caller = some (mem', quartiles samples) ∧
        ∀ s, mem.Valid s → mem'.elems s = mem.elems s := by
  have hsorted := List.pairwise_insertionSort (· ≤ ·) samples
  have hsne := sorted_ne_nil hne
  have hmono := monotoneOn_percentile hsorted hsne
  have hleast := isLeast_percentile_zero hsorted hsne
  have hgreatest := isGreatest_percentile_hundred hsorted hsne
  rw [setOf_mem_insertionSort] at hleast hgreatest
  have hmem : ∀ p : ℚ, 0 ≤ p → p ≤ 100 → p ∈ Set.Icc (0 : ℚ) 100 := fun p h0 h100 => ⟨h0, h100⟩
  refine ⟨fun mem sorted hvalid helems p => ?_, hmono, hleast, hgreatest, ?_, ?_, ?_,
    fun samples' hperm => quartiles_perm hperm, fun mem room caller hvalid helems => ?_⟩
  · rw [percentileAt_eq hvalid, helems]
  · rw [quartiles_eq_percentiles hne]
    exact hmono (hmem 0 le_rfl (by norm_num)) (hmem 25 (by norm_num) (by norm_num)) (by norm_num)
  · rw [quartiles_eq_percentiles hne]
    exact hmono (hmem 25 (by norm_num) (by norm_num)) (hmem 75 (by norm_num) (by norm_num))
      (by norm_num)
  · rw [quartiles_eq_percentiles hne]
    exact hmono (hmem 75 (by norm_num) (by norm_num)) (hmem 100 (by norm_num) le_rfl)
      (by norm_num)
  · obtain ⟨mem', hrun, hkeeps⟩ := quartilesAt_eq hvalid room
    rw [helems] at hrun
    exact ⟨mem', hrun, fun s hs => hkeeps.elems_eq hs⟩

/-- Three samples, out of order in the middle of an array of five. -/
theorem quartiles_three :
    (quartiles [3, 1, 2]).1 ≤ (quartiles [3, 1, 2]).2 ∧
    quartiles [1, 2, 3] = quartiles [3, 1, 2] ∧
    ∃ mem', quartilesAt ⟨[[7], [9, 3, 1, 2, 8]]⟩ [0] ⟨1, 1, 3, 4, by decide⟩
        = some (mem', quartiles [3, 1, 2]) ∧
      mem'.elems ⟨1, 1, 3, 4, by decide⟩ = [3, 1, 2] := by
  obtain ⟨-, -, -, -, -, hle, -, hperm, hrun⟩ :=
    quartiles_between (List.cons_ne_nil (3 : ℚ) [1, 2])
  have hvalid : (⟨[[7], [9, 3, 1, 2, 8]]⟩ : Memory ℚ).Valid ⟨1, 1, 3, 4, by decide⟩ :=
    ⟨by decide, by decide⟩
  obtain ⟨mem', hresult, hkept⟩ := hrun _ [0] _ hvalid rfl
  exact ⟨hle, hperm _ (by decide), mem', hresult, hkept _ hvalid⟩

end Arcsent.Detection
