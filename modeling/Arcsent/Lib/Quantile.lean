/-
# Values of a sorted list at a rank

A rank between two positions of a list stands for the value on the line between their
elements.  Taken from the sorted list such values grow with the rank, and they follow the
elements through every affine map; a map that turns the order around turns the ranks
around too.  The last section counts the elements below a value taken at a rank.
-/
import Mathlib.Algebra.Order.Floor.Ring
import Mathlib.Data.List.GetD
import Mathlib.Data.List.Sort
import Mathlib.Tactic.Linarith
import Mathlib.Tactic.Ring

namespace Arcsent.Lib

section Sorting

variable {α : Type*} [LinearOrder α]

/-- Sorting forgets the order. -/
theorem insertionSort_eq_of_perm {xs ys : List α} (h : xs.Perm ys) :
    xs.insertionSort (· ≤ ·) = ys.insertionSort (· ≤ ·) := by
  refine List.Perm.eq_of_pairwise' (r := (· ≤ ·)) (List.pairwise_insertionSort _ _)
    (List.pairwise_insertionSort _ _) ?_
  exact (List.perm_insertionSort _ _).trans (h.trans (List.perm_insertionSort _ _).symm)

/-- Sorting after a map that keeps the order. -/
theorem insertionSort_map_of_strictMono {f : α → α} (hf : StrictMono f) (xs : List α) :
    (xs.map f).insertionSort (· ≤ ·) = (xs.insertionSort (· ≤ ·)).map f :=
  (List.map_insertionSort (· ≤ ·) (· ≤ ·) f xs fun _ _ _ _ => hf.le_iff_le.symm).symm

/-- Sorting after a map that turns the order around. -/
theorem insertionSort_map_of_strictAnti {f : α → α} (hf : StrictAnti f) (xs : List α) :
    (xs.map f).insertionSort (· ≤ ·) = ((xs.insertionSort (· ≤ ·)).map f).reverse := by
  refine List.Perm.eq_of_pairwise' (r := (· ≤ ·)) (List.pairwise_insertionSort _ _) ?_ ?_
  · rw [List.pairwise_reverse, List.pairwise_map]
    exact (List.pairwise_insertionSort (· ≤ ·) xs).imp fun h => hf.antitone h
  · have hmap := (List.perm_insertionSort (· ≤ ·) xs).map f
    exact (List.perm_insertionSort _ _).trans (hmap.symm.trans (List.reverse_perm _).symm)

end Sorting

section Rank

variable {K : Type*} [Field K] [LinearOrder K] [IsStrictOrderedRing K] [FloorRing K]

/-- The value of a list at a rank: on the line between the elements next to it. -/
def atRank (xs : List K) (r : K) : K :=
  xs.getD ⌊r⌋₊ 0 + (r - ⌊r⌋₊) * (xs.getD ⌈r⌉₊ 0 - xs.getD ⌊r⌋₊ 0)

variable {xs : List K} {r r' : K}

/-- A rank lies between two positions of the list. -/
def IsRank (xs : List K) (r : K) : Prop := 0 ≤ r ∧ r ≤ (xs.length - 1 : ℕ)

omit [IsStrictOrderedRing K] in
lemma IsRank.ceil_le (h : IsRank xs r) : ⌈r⌉₊ ≤ xs.length - 1 := Nat.ceil_le.mpr h.2

lemma IsRank.floor_le (h : IsRank xs r) : ⌊r⌋₊ ≤ xs.length - 1 :=
  (Nat.floor_le_ceil r).trans h.ceil_le

lemma ceil_eq_floor_or (r : K) : ⌈r⌉₊ = ⌊r⌋₊ ∨ ⌈r⌉₊ = ⌊r⌋₊ + 1 := by
  have h₁ := Nat.floor_le_ceil r
  have h₂ := Nat.ceil_le_floor_add_one r
  omega

/-- At a position the value is the element there. -/
lemma atRank_natCast (xs : List K) (n : ℕ) : atRank xs n = xs.getD n 0 := by
  rw [atRank, Nat.floor_natCast, sub_self, zero_mul, add_zero]

/-- Values at a rank follow an affine map of the elements. -/
theorem atRank_map (hxs : xs ≠ []) (h : IsRank xs r) (a b : K) :
    atRank (xs.map fun x => a * x + b) r = a * atRank xs r + b := by
  have hlen := List.length_pos_iff.mpr hxs
  have hget : ∀ i ≤ xs.length - 1,
      (xs.map fun x => a * x + b).getD i 0 = a * xs.getD i 0 + b := by
    intro i hi
    rw [List.getD_eq_getElem _ _ (by rw [List.length_map]; omega),
      List.getD_eq_getElem _ _ (by omega), List.getElem_map]
  rw [atRank, atRank, hget _ h.floor_le, hget _ h.ceil_le]
  ring

/-- Where all elements are the same, so is the value. -/
lemma atRank_of_forall_eq (hxs : xs ≠ []) (h : IsRank xs r) {c : K} (hc : ∀ x ∈ xs, x = c) :
    atRank xs r = c := by
  have hlen := List.length_pos_iff.mpr hxs
  have hget : ∀ i ≤ xs.length - 1, xs.getD i 0 = c := by
    intro i hi
    have hlt : i < xs.length := by omega
    rw [List.getD_eq_getElem _ _ hlt]
    exact hc _ (List.getElem_mem hlt)
  rw [atRank, hget _ h.floor_le, hget _ h.ceil_le]
  ring

/-- Turning the list around turns the ranks around. -/
theorem atRank_reverse (hxs : xs ≠ []) (h : IsRank xs r) :
    atRank xs.reverse r = atRank xs ((xs.length - 1 : ℕ) - r) := by
  have hlen := List.length_pos_iff.mpr hxs
  have hfloor := h.floor_le
  have hceil := h.ceil_le
  have hr : (⌊r⌋₊ : K) ≤ r := Nat.floor_le h.1
  -- the position above the one rank mirrors the position below the other
  have hfloor' : ⌊((xs.length - 1 : ℕ) : K) - r⌋₊ = xs.length - 1 - ⌈r⌉₊ := by
    rw [Nat.floor_eq_iff (sub_nonneg.mpr h.2), Nat.cast_sub hceil]
    have h₁ := Nat.le_ceil r
    have h₂ := Nat.ceil_lt_add_one h.1
    constructor <;> linarith
  have hceil' : ⌈((xs.length - 1 : ℕ) : K) - r⌉₊ = xs.length - 1 - ⌊r⌋₊ := by
    refine le_antisymm (Nat.ceil_le.mpr ?_) ?_
    · rw [Nat.cast_sub hfloor]
      linarith
    · by_contra hlt
      have hsum : ⌈((xs.length - 1 : ℕ) : K) - r⌉₊ + ⌊r⌋₊ + 1 ≤ xs.length - 1 := by omega
      have hsum' : ((⌈((xs.length - 1 : ℕ) : K) - r⌉₊ + ⌊r⌋₊ + 1 : ℕ) : K)
          ≤ (xs.length - 1 : ℕ) := Nat.cast_le.mpr hsum
      have h₁ := Nat.le_ceil (((xs.length - 1 : ℕ) : K) - r)
      have h₂ := Nat.lt_floor_add_one r
      push_cast at hsum' h₁
      linarith
  rw [atRank, atRank, hfloor', hceil', List.getD_reverse _ (by omega),
    List.getD_reverse _ (by omega), Nat.cast_sub hceil]
  rcases ceil_eq_floor_or r with he | he
  · rw [he]
    ring
  · rw [he]
    push_cast
    ring

/-! ## Sorted lists -/

section Sorted

variable (hsorted : xs.Pairwise (· ≤ ·))

include hsorted

omit [Field K] [IsStrictOrderedRing K] [FloorRing K] in
lemma getD_le_getD [Zero K] {i j : ℕ} (hij : i ≤ j) (hj : j < xs.length) :
    xs.getD i 0 ≤ xs.getD j 0 := by
  rw [List.getD_eq_getElem _ _ (hij.trans_lt hj), List.getD_eq_getElem _ _ hj]
  rcases hij.eq_or_lt with rfl | hlt
  · exact le_rfl
  · exact List.pairwise_iff_getElem.mp hsorted i j _ hj hlt

omit [Field K] [IsStrictOrderedRing K] [FloorRing K] in
/-- The first element is the least. -/
lemma isLeast_getD_zero [Zero K] (hxs : xs ≠ []) : IsLeast {x | x ∈ xs} (xs.getD 0 0) := by
  have hpos := List.length_pos_iff.mpr hxs
  refine ⟨?_, fun x hx => ?_⟩
  · rw [List.getD_eq_getElem _ _ hpos]
    exact List.getElem_mem hpos
  · obtain ⟨i, hi, rfl⟩ := List.mem_iff_getElem.mp hx
    have hle := getD_le_getD hsorted (Nat.zero_le i) hi
    rwa [List.getD_eq_getElem _ _ hi] at hle

omit [Field K] [IsStrictOrderedRing K] [FloorRing K] in
/-- The last element is the greatest. -/
lemma isGreatest_getD_last [Zero K] (hxs : xs ≠ []) :
    IsGreatest {x | x ∈ xs} (xs.getD (xs.length - 1) 0) := by
  have hlast : xs.length - 1 < xs.length := Nat.pred_lt (List.length_pos_iff.mpr hxs).ne'
  refine ⟨?_, fun x hx => ?_⟩
  · rw [List.getD_eq_getElem _ _ hlast]
    exact List.getElem_mem hlast
  · obtain ⟨i, hi, rfl⟩ := List.mem_iff_getElem.mp hx
    have hle := getD_le_getD hsorted (Nat.le_pred_of_lt hi) hlast
    rwa [List.getD_eq_getElem _ _ hi] at hle

/-- The value lies between the two elements next to the rank. -/
lemma getD_floor_le_atRank (hxs : xs ≠ []) (h : IsRank xs r) :
    xs.getD ⌊r⌋₊ 0 ≤ atRank xs r := by
  have hlen := List.length_pos_iff.mpr hxs
  have hmono := getD_le_getD hsorted (Nat.floor_le_ceil r) (by have := h.ceil_le; omega)
  have hweight : 0 ≤ r - ⌊r⌋₊ := sub_nonneg.mpr (Nat.floor_le h.1)
  exact le_add_of_nonneg_right (mul_nonneg hweight (sub_nonneg.mpr hmono))

lemma atRank_le_getD_ceil (hxs : xs ≠ []) (h : IsRank xs r) :
    atRank xs r ≤ xs.getD ⌈r⌉₊ 0 := by
  have hlen := List.length_pos_iff.mpr hxs
  have hmono := getD_le_getD hsorted (Nat.floor_le_ceil r) (by have := h.ceil_le; omega)
  have hweight : r - ⌊r⌋₊ ≤ 1 := by
    have := (Nat.lt_floor_add_one r).le
    linarith
  have hle := mul_le_mul_of_nonneg_right hweight (sub_nonneg.mpr hmono)
  rw [atRank]
  linarith

/-- Values of a sorted list grow with the rank. -/
theorem atRank_mono (hxs : xs ≠ []) (h : IsRank xs r) (h' : IsRank xs r') (hle : r ≤ r') :
    atRank xs r ≤ atRank xs r' := by
  have hlen := List.length_pos_iff.mpr hxs
  have hfloor := h'.floor_le
  by_cases hnext : ⌈r⌉₊ ≤ ⌊r'⌋₊
  · calc atRank xs r ≤ xs.getD ⌈r⌉₊ 0 := atRank_le_getD_ceil hsorted hxs h
      _ ≤ xs.getD ⌊r'⌋₊ 0 := getD_le_getD hsorted hnext (by omega)
      _ ≤ atRank xs r' := getD_floor_le_atRank hsorted hxs h'
  · -- both ranks lie between the same two positions
    have hmono := Nat.floor_le_floor hle
    have hceil := Nat.ceil_le_ceil hle
    have hr := ceil_eq_floor_or r
    have hr' := ceil_eq_floor_or r'
    have hfl : ⌊r'⌋₊ = ⌊r⌋₊ := by omega
    have hce : ⌈r'⌉₊ = ⌈r⌉₊ := by omega
    have hdiff := getD_le_getD hsorted (Nat.floor_le_ceil r) (by have := h.ceil_le; omega)
    have hprod := mul_le_mul_of_nonneg_right (sub_le_sub_right hle (⌊r⌋₊ : K))
      (sub_nonneg.mpr hdiff)
    rw [atRank, atRank, hfl, hce]
    linarith

/-- The elements up to the rank are at most the value. -/
theorem floor_lt_countP (hxs : xs ≠ []) (h : IsRank xs r) :
    ⌊r⌋₊ < xs.countP fun x => x ≤ atRank xs r := by
  have hlen := List.length_pos_iff.mpr hxs
  have hfloor := h.floor_le
  have hall : ∀ x ∈ xs.take (⌊r⌋₊ + 1), decide (x ≤ atRank xs r) = true := by
    intro x hx
    obtain ⟨i, hi, rfl⟩ := List.mem_iff_getElem.mp hx
    rw [List.length_take] at hi
    rw [List.getElem_take, decide_eq_true_iff]
    calc xs[i] = xs.getD i 0 := (List.getD_eq_getElem _ _ (by omega)).symm
      _ ≤ xs.getD ⌊r⌋₊ 0 := getD_le_getD hsorted (by omega) (by omega)
      _ ≤ atRank xs r := getD_floor_le_atRank hsorted hxs h
  have hcount := (List.take_sublist (⌊r⌋₊ + 1) xs).countP_le (p := fun x => x ≤ atRank xs r)
  rw [List.countP_eq_length.mpr hall, List.length_take] at hcount
  omega

end Sorted

end Rank

end Arcsent.Lib
