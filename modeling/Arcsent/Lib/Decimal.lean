/-
# Decimal numbers as keys

Two numbers with equally many decimal digits are ordered as their digits are, character by
character, whatever follows the digits.  A store that sorts its keys as texts therefore lists
keys that begin with such numbers in the order of the numbers.
-/
import Arcsent.Lib.FlatKey
import Mathlib.Algebra.Ring.Nat
import Mathlib.Order.Basic
import Mathlib.Order.Nat

namespace Arcsent.Lib

variable {κ : Type*} [Ord κ] [Std.LawfulEqOrd κ]

/-- Texts of one length are compared before what follows them. -/
lemma compare_append {a b : List κ} (hlen : a.length = b.length) (s t : List κ) :
    compare (a ++ s) (b ++ t) = (compare a b).then (compare s t) := by
  induction a generalizing b with
  | nil =>
    obtain rfl : b = [] := List.eq_nil_of_length_eq_zero hlen.symm
    simp [Ordering.then]
  | cons x a ih =>
    obtain ⟨y, b, rfl⟩ := List.exists_cons_of_length_eq_add_one hlen.symm
    rw [List.cons_append, List.cons_append, List.compare_cons_cons, List.compare_cons_cons,
      ih (Nat.succ_inj.mp hlen)]
    cases compare x y <;> rfl

lemma compare_append_of_lt {a b : List κ} (hlen : a.length = b.length) (h : compare a b = .lt)
    (s t : List κ) : compare (a ++ s) (b ++ t) = .lt := by
  rw [compare_append hlen, h]
  rfl

variable {digit : Char → κ}

/-- The digits of a number, one character for each, in the order of their values. -/
def IncreasingDigits (digit : Char → κ) : Prop :=
  ∀ i j, i < j → j < 10 → compare (digit i.digitChar) (digit j.digitChar) = .lt

lemma toDigits_of_ten_le {n : ℕ} (h : 10 ≤ n) :
    Nat.toDigits 10 n = Nat.toDigits 10 (n / 10) ++ [(n % 10).digitChar] :=
  Nat.toDigits_of_base_le (by omega) h

/-- **Of two numbers with equally many digits the smaller one comes first.** -/
theorem compare_toDigits_of_lt (hdigit : IncreasingDigits digit) {n m : ℕ}
    (hlen : (Nat.toDigits 10 n).length = (Nat.toDigits 10 m).length) (h : n < m) :
    compare ((Nat.toDigits 10 n).map digit) ((Nat.toDigits 10 m).map digit) = .lt := by
  induction n using Nat.strongRecOn generalizing m with
  | _ n ih =>
    by_cases hn : n < 10
    · -- both numbers have one digit
      have hm : m < 10 := by
        have hone := (Nat.length_toDigits_le_iff (b := 10) (n := n) (by omega) Nat.one_pos).mpr hn
        exact (Nat.length_toDigits_le_iff (b := 10) (by omega) Nat.one_pos).mp (hlen ▸ hone)
      rw [Nat.toDigits_of_lt_base hn, Nat.toDigits_of_lt_base hm, List.map_singleton,
        List.map_singleton, List.compare_cons_cons, hdigit n m h hm]
      rfl
    · -- the last digits count where the others agree
      rw [toDigits_of_ten_le (n := n) (by omega), toDigits_of_ten_le (n := m) (by omega),
        List.length_append, List.length_append, List.length_singleton,
        List.length_singleton] at hlen
      have hinit : (Nat.toDigits 10 (n / 10)).length = (Nat.toDigits 10 (m / 10)).length := by omega
      rw [toDigits_of_ten_le (n := n) (by omega), toDigits_of_ten_le (n := m) (by omega),
        List.map_append, List.map_append, compare_append (by simpa using hinit)]
      rcases (Nat.div_le_div_right h.le : n / 10 ≤ m / 10).eq_or_lt with heq | hlt
      · rw [heq, Std.compare_self, Ordering.then]
        simp only [List.map_singleton, List.compare_cons_cons]
        rw [hdigit _ _ (by omega) (by omega)]
        rfl
      · rw [ih (n / 10) (by omega) hinit hlt]
        rfl

/-- The numbers of a range with one number of digits. -/
lemma length_toDigits {n k : ℕ} (hle : 10 ^ k ≤ n) (hlt : n < 10 ^ (k + 1)) :
    (Nat.toDigits 10 n).length = k + 1 := by
  refine le_antisymm ((Nat.length_toDigits_le_iff (by omega) (by omega)).mpr hlt) ?_
  by_contra hshort
  rcases Nat.eq_zero_or_pos k with rfl | hk
  · exact hshort Nat.length_toDigits_pos
  · have hsmall := (Nat.length_toDigits_le_iff (b := 10) (n := n) (by omega) hk).mp (by omega)
    omega

/-! ## Whole numbers as texts -/

lemma isDigit_of_mem {n : ℕ} {c : Char} (hc : c ∈ Nat.toDigits 10 n) : c.isDigit = true :=
  Nat.isDigit_of_mem_toDigits (by decide) (by decide) hc

/-- The text of a whole number. -/
lemma toList_toString (n : ℤ) : (toString n).toList =
    if n < 0 then '-' :: Nat.toDigits 10 n.natAbs else Nat.toDigits 10 n.natAbs := by
  cases n with
  | ofNat n =>
    rw [if_neg (by simp)]
    exact Nat.toList_repr
  | negSucc n =>
    have happend : toString (Int.negSucc n) = "-" ++ (n + 1).repr := rfl
    rw [if_pos (Int.negSucc_lt_zero n), happend, String.toList_append, Nat.toList_repr]
    rfl

lemma chars_toString (n : ℤ) :
    (toString n).toList ≠ [] ∧ ∀ c ∈ (toString n).toList, c.isDigit = true ∨ c = '-' := by
  rw [toList_toString]
  split_ifs
  · refine ⟨List.cons_ne_nil _ _, fun c hc => ?_⟩
    exact (List.mem_cons.mp hc).symm.imp isDigit_of_mem id
  · exact ⟨Nat.toDigits_ne_nil, fun c hc => Or.inl (isDigit_of_mem hc)⟩

end Arcsent.Lib
