/-
# Machine words as integers

A word of 64 bits stands for an integer.  The word that an operation gives stands for the
result of the same operation on integers exactly when this result is in the range of a word.
-/
import Mathlib.Algebra.Order.Ring.Int

namespace Arcsent.Lib

variable {a b : UInt64} {x y : ℤ} {words : List UInt64}

/-- The word stands for the integer. -/
def Represents (w : UInt64) (z : ℤ) : Prop := (w.toNat : ℤ) = z

lemma represents_toNat (w : UInt64) : Represents w w.toNat := rfl

lemma Represents.nonneg (h : Represents a x) : 0 ≤ x := h ▸ Int.natCast_nonneg _

lemma Represents.lt (h : Represents a x) : x < 2 ^ 64 := by
  have hlt := a.toNat_lt
  rw [Represents] at h
  omega

lemma Represents.pos_iff (h : Represents a x) : 0 < a ↔ 0 < x := by
  rw [Represents] at h
  rw [UInt64.lt_iff_toNat_lt, UInt64.toNat_zero]
  omega

lemma Represents.le_iff (ha : Represents a x) (hb : Represents b y) : a ≤ b ↔ x ≤ y := by
  rw [Represents] at ha hb
  rw [UInt64.le_iff_toNat_le]
  omega

lemma represents_add (ha : Represents a x) (hb : Represents b y) :
    Represents (a + b) (x + y) ↔ x + y < 2 ^ 64 := by
  have hlt := (a + b).toNat_lt
  rw [Represents] at *
  rw [UInt64.toNat_add] at *
  omega

lemma represents_sub (ha : Represents a x) (hb : Represents b y) :
    Represents (a - b) (x - y) ↔ y ≤ x := by
  have hlt := a.toNat_lt
  have hlt' := b.toNat_lt
  rw [Represents] at *
  rw [UInt64.toNat_sub]
  omega

lemma represents_mul (ha : Represents a x) (hb : Represents b y) :
    Represents (a * b) (x * y) ↔ x * y < 2 ^ 64 := by
  rw [Represents] at ha hb
  rw [Represents, UInt64.toNat_mul, ← ha, ← hb]
  norm_cast
  constructor
  · intro h
    exact h ▸ Nat.mod_lt _ (by omega)
  · intro h
    exact Nat.mod_eq_of_lt h

/-- The integers that the words of a list stand for, added up. -/
def sumOf : List UInt64 → ℤ
  | [] => 0
  | w :: words => w.toNat + sumOf words

@[simp] lemma sumOf_nil : sumOf [] = 0 := rfl

@[simp] lemma sumOf_cons (w : UInt64) (words : List UInt64) :
    sumOf (w :: words) = w.toNat + sumOf words := rfl

lemma sumOf_nonneg (words : List UInt64) : 0 ≤ sumOf words := by
  induction words with
  | nil => exact le_rfl
  | cons w words ih =>
    rw [sumOf_cons]
    omega

lemma toNat_foldl_add (words : List UInt64) (init : UInt64) :
    ((words.foldl (· + ·) init).toNat : ℤ) = (init.toNat + sumOf words) % 2 ^ 64 := by
  induction words generalizing init with
  | nil =>
    have hlt := init.toNat_lt
    rw [List.foldl_nil, sumOf_nil]
    omega
  | cons w words ih =>
    rw [List.foldl_cons, ih, UInt64.toNat_add, sumOf_cons]
    omega

/-- The sum that a loop computes. -/
lemma represents_foldl_add :
    Represents (words.foldl (· + ·) 0) (sumOf words) ↔ sumOf words < 2 ^ 64 := by
  have hpos := sumOf_nonneg words
  have hmod := toNat_foldl_add words 0
  rw [UInt64.toNat_zero] at hmod
  rw [Represents, hmod]
  omega

end Arcsent.Lib
