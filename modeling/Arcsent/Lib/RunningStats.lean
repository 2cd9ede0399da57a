/-
# Running statistics of a list of numbers

The mean and the sum of squared deviations of a list can be kept up to date one element
at a time, from the old values, the new element and the new length alone.  So can the
least and the greatest element.  This file has the definitions over a whole list and the
step equation of each.
-/
import Mathlib.Algebra.Field.Basic
import Mathlib.Algebra.CharZero.Defs
import Mathlib.Algebra.BigOperators.Group.List.Basic
import Mathlib.Algebra.BigOperators.Ring.List
import Mathlib.Algebra.Order.BigOperators.Group.List
import Mathlib.Algebra.Order.Field.Basic
import Mathlib.Order.Bounds.Basic
import Mathlib.Tactic.FieldSimp
import Mathlib.Tactic.Linarith
import Mathlib.Tactic.Ring

namespace Arcsent.Lib

section Field

variable {K : Type*} [Field K]

/-- The mean of a list; zero for the empty list. -/
def mean (xs : List K) : K := xs.sum / xs.length

/-- The sum of the squared deviations from the mean. -/
def sumSqDev (xs : List K) : K := (xs.map fun x => (x - mean xs) ^ 2).sum

@[simp] lemma mean_nil : mean ([] : List K) = 0 := by simp [mean]

@[simp] lemma sumSqDev_nil : sumSqDev ([] : List K) = 0 := by simp [sumSqDev]

variable [CharZero K]

/-- The step of the mean: the old mean moves by its distance to the new element over the
new length. -/
theorem mean_concat (xs : List K) (x : K) :
    mean (xs ++ [x]) = mean xs + (x - mean xs) / (xs.length + 1 : ℕ) := by
  have hn : ((xs.length + 1 : ℕ) : K) ≠ 0 := Nat.cast_ne_zero.mpr (Nat.succ_ne_zero _)
  simp only [mean, List.sum_append, List.sum_singleton, List.length_append,
    List.length_singleton]
  rcases Nat.eq_zero_or_pos xs.length with h0 | hpos
  · obtain rfl : xs = [] := List.length_eq_zero_iff.mp h0
    simp
  · have hl : (xs.length : K) ≠ 0 := Nat.cast_ne_zero.mpr hpos.ne'
    push_cast at hn ⊢
    field_simp
    ring

omit [CharZero K] in
/-- The sum of squares about any point, in terms of the two power sums. -/
lemma sum_sq_sub (xs : List K) (c : K) :
    (xs.map fun x => (x - c) ^ 2).sum
      = (xs.map fun x => x ^ 2).sum - 2 * c * xs.sum + xs.length * c ^ 2 := by
  induction xs with
  | nil => simp
  | cons x xs ih =>
    simp only [List.map_cons, List.sum_cons, List.length_cons, ih]
    push_cast
    ring

/-- The mean times the number of the elements is their sum. -/
lemma sum_eq (xs : List K) : xs.sum = xs.length * mean xs := by
  rcases Nat.eq_zero_or_pos xs.length with h0 | hpos
  · obtain rfl : xs = [] := List.length_eq_zero_iff.mp h0
    simp
  · have hl : (xs.length : K) ≠ 0 := Nat.cast_ne_zero.mpr hpos.ne'
    rw [mean]
    field_simp

lemma sumSqDev_eq (xs : List K) :
    sumSqDev xs = (xs.map fun x => x ^ 2).sum - xs.length * mean xs ^ 2 := by
  rw [sumSqDev, sum_sq_sub, sum_eq xs]
  ring

/-- The squares about any point exceed those about the mean by its distance. -/
lemma sum_sq_sub_eq (xs : List K) (m : K) :
    (xs.map fun x => (x - m) ^ 2).sum = sumSqDev xs + xs.length * (mean xs - m) ^ 2 := by
  rw [sum_sq_sub, sumSqDev_eq, sum_eq xs]
  ring

/-- The step of the sum of squared deviations: the product of the distances of the new
element to the old and to the new mean. -/
theorem sumSqDev_concat (xs : List K) (x : K) :
    sumSqDev (xs ++ [x]) = sumSqDev xs + (x - mean xs) * (x - mean (xs ++ [x])) := by
  have hn : ((xs.length + 1 : ℕ) : K) ≠ 0 := Nat.cast_ne_zero.mpr (Nat.succ_ne_zero _)
  rw [sumSqDev_eq, sumSqDev_eq, mean_concat]
  simp only [List.map_append, List.sum_append, List.map_singleton, List.sum_singleton,
    List.length_append, List.length_singleton]
  push_cast at hn ⊢
  field_simp
  ring

lemma mean_of_forall_eq {xs : List K} (hxs : xs ≠ []) {c : K} (hc : ∀ x ∈ xs, x = c) :
    mean xs = c := by
  have hl : (xs.length : K) ≠ 0 :=
    Nat.cast_ne_zero.mpr fun h => hxs (List.length_eq_zero_iff.mp h)
  rw [mean, List.sum_eq_card_nsmul xs c hc, nsmul_eq_mul]
  field_simp

/-! ### Affine maps -/

omit [CharZero K] in
lemma sum_map_affine (xs : List K) (a b : K) :
    (xs.map fun x => a * x + b).sum = a * xs.sum + xs.length * b := by
  induction xs with
  | nil => simp
  | cons x xs ih =>
    simp only [List.map_cons, List.sum_cons, List.length_cons, ih]
    push_cast
    ring

/-- The mean follows an affine map of the elements. -/
theorem mean_map {xs : List K} (hxs : xs ≠ []) (a b : K) :
    mean (xs.map fun x => a * x + b) = a * mean xs + b := by
  have hl : (xs.length : K) ≠ 0 :=
    Nat.cast_ne_zero.mpr fun h => hxs (List.length_eq_zero_iff.mp h)
  rw [mean, mean, sum_map_affine, List.length_map]
  field_simp

/-- The sum of squared deviations grows with the square of the factor. -/
theorem sumSqDev_map (xs : List K) (a b : K) :
    sumSqDev (xs.map fun x => a * x + b) = a ^ 2 * sumSqDev xs := by
  by_cases hxs : xs = []
  · subst hxs
    simp
  · rw [sumSqDev, sumSqDev, List.map_map, ← List.sum_map_mul_left]
    congr 1
    refine List.map_congr_left fun x _ => ?_
    rw [Function.comp_apply, mean_map hxs]
    ring

end Field

/-! ### Elements far from the mean -/

section OrderedField

variable {K : Type*} [Field K] [LinearOrder K] [IsStrictOrderedRing K]

lemma sumSqDev_nonneg (xs : List K) : 0 ≤ sumSqDev xs :=
  List.sum_nonneg fun y hy => by
    obtain ⟨x, -, rfl⟩ := List.mem_map.mp hy
    exact sq_nonneg _

/-- Without deviation every element is the mean. -/
lemma forall_eq_of_sumSqDev {xs : List K} (h : sumSqDev xs = 0) : ∀ x ∈ xs, x = mean xs := by
  intro x hx
  have hterm : (x - mean xs) ^ 2 ≤ sumSqDev xs := by
    refine List.single_le_sum (fun y hy => ?_) _ (List.mem_map_of_mem hx)
    obtain ⟨z, -, rfl⟩ := List.mem_map.mp hy
    exact sq_nonneg _
  rw [h] at hterm
  exact sub_eq_zero.mp (pow_eq_zero_iff two_ne_zero |>.mp (le_antisymm hterm (sq_nonneg _)))

/-- Elements on which a function is large contribute to its sum. -/
lemma countP_mul_le_sum {α : Type*} {f : α → K} (hf : ∀ x, 0 ≤ f x) (p : α → Bool) {t : K}
    (hp : ∀ x, p x = true → t ≤ f x) (xs : List α) : xs.countP p * t ≤ (xs.map f).sum := by
  induction xs with
  | nil => simp
  | cons x xs ih =>
    rw [List.map_cons, List.sum_cons]
    cases hx : p x with
    | true =>
      rw [List.countP_cons_of_pos hx]
      push_cast
      linarith [hp x hx]
    | false =>
      rw [List.countP_cons_of_neg (by simp [hx])]
      linarith [hf x]

/-- If the elements of a kind are on the far side of `y` from a point `m`, they are at most
as many as the squares about `m` have room for. -/
theorem countP_mul_sq_le (xs : List K) (p : K → Bool) (m y : K)
    (hp : ∀ x, p x = true → (y - m) ^ 2 ≤ (x - m) ^ 2) :
    xs.countP p * (y - m) ^ 2 ≤ sumSqDev xs + xs.length * (mean xs - m) ^ 2 := by
  rw [← sum_sq_sub_eq]
  exact countP_mul_le_sum (fun x => sq_nonneg (x - m)) p hp xs

end OrderedField

section Extremes

variable {K : Type*} [LinearOrder K] {xs : List K} {m x : K}

/-- The step of the least element. -/
theorem isLeast_concat (h : IsLeast {y | y ∈ xs} m) :
    IsLeast {y | y ∈ xs ++ [x]} (if x < m then x else m) := by
  split_ifs with hx
  · refine ⟨by simp, fun y hy => ?_⟩
    rcases List.mem_append.mp hy with hy | hy
    · exact hx.le.trans (h.2 hy)
    · exact (List.mem_singleton.mp hy).ge
  · refine ⟨List.mem_append_left _ h.1, fun y hy => ?_⟩
    rcases List.mem_append.mp hy with hy | hy
    · exact h.2 hy
    · rw [List.mem_singleton.mp hy]
      exact not_lt.mp hx

/-- The step of the greatest element. -/
theorem isGreatest_concat (h : IsGreatest {y | y ∈ xs} m) :
    IsGreatest {y | y ∈ xs ++ [x]} (if m < x then x else m) := by
  split_ifs with hx
  · refine ⟨by simp, fun y hy => ?_⟩
    rcases List.mem_append.mp hy with hy | hy
    · exact (h.2 hy).trans hx.le
    · exact (List.mem_singleton.mp hy).le
  · refine ⟨List.mem_append_left _ h.1, fun y hy => ?_⟩
    rcases List.mem_append.mp hy with hy | hy
    · exact h.2 hy
    · rw [List.mem_singleton.mp hy]
      exact not_lt.mp hx

end Extremes

end Arcsent.Lib
