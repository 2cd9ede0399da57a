/-
# What the page uses of its language

The pieces of ECMAScript that `web/src/lib/api.ts` works with: white space, the methods `trim`
and `split` of strings, and the conversion of a string to a number.
-/
import Arcsent.Go.Float64
import Arcsent.Lib.Decimal
import Mathlib.Data.List.TakeWhile

namespace Arcsent.Web

open Arcsent.Go Arcsent.Lib

/-! ## Strings -/

/-- White space and line terminators, which are also what `\s` matches. -/
def isSpace (c : Char) : Bool :=
  let n := c.toNat
  (9 ≤ n && n ≤ 13) || n = 32 || n = 0xA0 || n = 0x1680 || (0x2000 ≤ n && n ≤ 0x200A) ||
    n = 0x2028 || n = 0x2029 || n = 0x202F || n = 0x205F || n = 0x3000 || n = 0xFEFF

/-- The method `trim`. -/
def trim (s : List Char) : List Char :=
  ((s.dropWhile isSpace).reverse.dropWhile isSpace).reverse

/-- The parts that `split(/\s+/)` gives of a trimmed text that is not empty. -/
def splitSpaces (s : List Char) : List (List Char) := (s.splitOnP isSpace).filter (· ≠ [])

/-! ## Numbers -/

/-- The number that some digits stand for, of which there has to be one. -/
def digits (s : List Char) : Option ℕ :=
  if s ≠ [] ∧ s.all Char.isDigit then some (Nat.ofDigitChars 10 s 0) else none

/-- A sign and what it stands before. -/
def signed (s : List Char) : Bool × List Char :=
  match s with
  | '-' :: s => (true, s)
  | '+' :: s => (false, s)
  | s => (false, s)

/-- The exponent of a decimal literal, with its mark. -/
def exponent (s : List Char) : Option ℤ :=
  if s = [] then some 0
  else do
    let (neg, s) := signed (s.drop 1)
    let n ← digits s
    return if neg then -n else n

/-- An unsigned decimal literal. -/
def decimal (s : List Char) : Option ℚ := do
  let mantissa := s.takeWhile fun c => c ≠ 'e' && c ≠ 'E'
  let e ← exponent (s.dropWhile fun c => c ≠ 'e' && c ≠ 'E')
  let whole := mantissa.takeWhile (· ≠ '.')
  let fraction := (mantissa.dropWhile (· ≠ '.')).drop 1
  let n ← digits (whole ++ fraction)
  return n * (10 : ℚ) ^ (e - fraction.length)

/-- The value of a hexadecimal digit. -/
def hexValue (c : Char) : ℕ :=
  if c.isDigit then c.toNat - '0'.toNat else c.toLower.toNat - 'a'.toNat + 10

/-- The digits of a literal in another base. -/
def based (base : ℕ) (s : List Char) : Option ℚ :=
  if s ≠ [] ∧ s.all fun c =>
      (c.isDigit || ('a' ≤ c.toLower && c.toLower ≤ 'f')) && hexValue c < base
  then some ((s.foldl (fun n c => n * base + hexValue c) 0 : ℕ) : ℚ)
  else none

/-- The value of a string before it is rounded; `none` where it is no number or is infinite. -/
def stringValue (s : List Char) : Option ℚ :=
  match trim s with
  | [] => some 0
  | '0' :: 'x' :: s | '0' :: 'X' :: s => based 16 s
  | '0' :: 'o' :: s | '0' :: 'O' :: s => based 8 s
  | '0' :: 'b' :: s | '0' :: 'B' :: s => based 2 s
  | s =>
    let (neg, s) := signed s
    (decimal s).map fun x => if neg then -x else x

/-- The function `Number`, where it gives a finite number. -/
def number (s : List Char) : Option ℚ := do
  let x ← stringValue s
  if |float64 x| < 2 ^ 1024 then some (float64 x) else none

example : number " -12.5e1".toList = some (-125) := by decide +kernel

/-! ## Words -/

/-- A text without white space. -/
def Solid (s : List Char) : Prop := s ≠ [] ∧ ∀ c ∈ s, isSpace c = false

lemma dropWhile_eq_self {s t : List Char} (h : Solid s) : (s ++ t).dropWhile isSpace = s ++ t := by
  obtain ⟨c, s, rfl⟩ := List.exists_cons_of_ne_nil h.1
  have hc := h.2 c List.mem_cons_self
  rw [List.cons_append, List.dropWhile_cons_of_neg (by simp [hc])]

lemma Solid.reverse {s : List Char} (h : Solid s) : Solid s.reverse :=
  ⟨by simpa using h.1, fun c hc => h.2 c (List.mem_reverse.mp hc)⟩

/-- A text that starts and ends with words is its own trimmed form. -/
lemma trim_eq_self {s t : List Char} (hs : Solid s) (ht : Solid t) (m : List Char) :
    trim (s ++ m ++ t) = s ++ m ++ t := by
  rw [trim, List.append_assoc, dropWhile_eq_self hs, ← List.append_assoc, List.reverse_append,
    dropWhile_eq_self ht.reverse]
  simp

lemma trim_solid {s : List Char} (hs : Solid s) : trim s = s := by
  have hdrop := dropWhile_eq_self (t := []) hs
  have hback := dropWhile_eq_self (t := []) hs.reverse
  rw [List.append_nil] at hdrop hback
  rw [trim, hdrop, hback, List.reverse_reverse]

/-- Two words with a blank between them. -/
lemma splitSpaces_pair {s t : List Char} (hs : Solid s) (ht : Solid t) :
    splitSpaces (s ++ ' ' :: t) = [s, t] := by
  rw [splitSpaces, List.splitOnP_append_cons_of_forall_mem hs.2 ' ' (by decide),
    List.splitOnP_eq_singleton ht.2]
  simp [hs.1, ht.1]

/-! ## Whole numbers -/

lemma digits_toDigits (n : ℕ) : digits (Nat.toDigits 10 n) = some n := by
  have hall : (Nat.toDigits 10 n).all Char.isDigit = true :=
    List.all_eq_true.mpr fun c hc => Nat.isDigit_of_mem_toDigits (by decide) (by decide) hc
  rw [digits, if_pos ⟨Nat.toDigits_ne_nil, hall⟩, Nat.ofDigitChars_ten_toDigits]

/-- What is no digit does not end the digits of a number. -/
lemma span_toDigits (n : ℕ) {p : Char → Bool} (hp : ∀ c, p c = false → c.isDigit = false) :
    (Nat.toDigits 10 n).takeWhile p = Nat.toDigits 10 n ∧ (Nat.toDigits 10 n).dropWhile p = [] := by
  have hall : ∀ c ∈ Nat.toDigits 10 n, p c = true := by
    intro c hc
    by_contra hnot
    have hdigit := isDigit_of_mem hc
    rw [hp c (by simpa using hnot)] at hdigit
    exact Bool.noConfusion hdigit
  exact ⟨List.takeWhile_eq_self_iff.mpr hall, List.dropWhile_eq_nil_iff.mpr hall⟩

lemma decimal_toDigits (n : ℕ) : decimal (Nat.toDigits 10 n) = some (n : ℚ) := by
  have hmantissa := span_toDigits n (p := fun c => c ≠ 'e' && c ≠ 'E') (by
    intro c hc
    rcases (by simpa [or_iff_not_imp_left] using hc : c = 'e' ∨ c = 'E') with rfl | rfl <;> rfl)
  have hpoint := span_toDigits n (p := fun c => decide (c ≠ '.')) (by
    intro c hc
    obtain rfl : c = '.' := by simpa using hc
    rfl)
  simp only [decimal, hmantissa.1, hmantissa.2, hpoint.1, hpoint.2]
  simp [exponent, digits_toDigits]

/-- A text of digits and signs has no white space. -/
lemma solid_of_digits {s : List Char} (hs : s ≠ []) (h : ∀ c ∈ s, c.isDigit = true ∨ c = '-') :
    Solid s := by
  refine ⟨hs, fun c hc => ?_⟩
  rcases h c hc with hdigit | rfl
  · have hrange := Char.isDigit_iff_toNat.mp hdigit
    have hlow : '0'.toNat = 48 := rfl
    have hhigh : '9'.toNat = 57 := rfl
    simp only [isSpace, Bool.or_eq_false_iff, Bool.and_eq_false_iff, decide_eq_false_iff_not]
    omega
  · rfl

/-- A text of digits and signs is read as a decimal number. -/
lemma stringValue_eq {s : List Char} (hs : s ≠ []) (h : ∀ c ∈ s, c.isDigit = true ∨ c = '-') :
    stringValue s = (decimal (signed s).2).map fun x => if (signed s).1 then -x else x := by
  have hletter {c : Char} (hc : c ∈ s) (hdigit : c.isDigit = false) (hsign : c ≠ '-') : False := by
    rcases h c hc with hyes | heq
    · rw [hdigit] at hyes
      exact Bool.noConfusion hyes
    · exact hsign heq
  rw [stringValue, trim_solid (solid_of_digits hs h)]
  split
  · exact absurd rfl hs
  all_goals first
    | exact absurd (hletter (List.mem_cons_of_mem _ List.mem_cons_self) (by decide) (by decide)) id
    | rfl

lemma signed_toDigits (n : ℕ) : signed (Nat.toDigits 10 n) = (false, Nat.toDigits 10 n) := by
  have hsign {c : Char} {s : List Char} (heq : Nat.toDigits 10 n = c :: s) : c.isDigit = true :=
    isDigit_of_mem (heq ▸ List.mem_cons_self)
  unfold signed
  split
  · next heq => exact absurd (hsign heq) (by decide)
  · next heq => exact absurd (hsign heq) (by decide)
  · rfl

lemma stringValue_toString (n : ℤ) : stringValue (toString n).toList = some (n : ℚ) := by
  rw [stringValue_eq (chars_toString n).1 (chars_toString n).2, toList_toString]
  by_cases hneg : n < 0
  · have habs : ((n.natAbs : ℤ) : ℚ) = -n := by
      rw [Int.ofNat_natAbs_of_nonpos hneg.le]
      push_cast
      rfl
    rw [if_pos hneg, signed, decimal_toDigits, ← Int.cast_natCast, habs]
    simp
  · have habs : ((n.natAbs : ℤ) : ℚ) = n := by rw [Int.natAbs_of_nonneg (not_lt.mp hneg)]
    rw [if_neg hneg, signed_toDigits, decimal_toDigits, ← Int.cast_natCast, habs]
    simp

/-- **A whole number is read as what it is, unless it is too large for a floating-point
number.** -/
theorem number_toString {n : ℤ} (hn : |n| < 2 ^ 53) :
    number (toString n).toList = some (n : ℚ) := by
  have hvalue := stringValue_toString n
  have hexact : float64 (n : ℚ) = n := by
    have h := float64_eq_self (e := 0) hn (by omega)
    rwa [zpow_zero, mul_one] at h
  have hfinite : |(n : ℚ)| < 2 ^ 1024 := by
    have hcast : |(n : ℚ)| < 2 ^ 53 := by exact_mod_cast hn
    exact hcast.trans (pow_lt_pow_right₀ (by norm_num) (by norm_num))
  simp only [number, hvalue, Option.bind_eq_bind, Option.bind_some, hexact, if_pos hfinite]

end Arcsent.Web
