/-
# Rounding to binary digits

A number is rounded to as many binary digits as a format keeps, to the nearest one and with
ties to the even digit.  Rounding keeps the order of the numbers that are not negative, and
leaves a number alone that has few enough digits, so that a bound with few digits holds of the
rounded number when it holds of the number.
-/
import Mathlib.Algebra.Order.Field.Power
import Mathlib.Algebra.Order.Floor.Ring
import Mathlib.Data.Int.Log
import Mathlib.Data.Rat.Floor
import Mathlib.Tactic.FieldSimp
import Mathlib.Tactic.Linarith

namespace Arcsent.Lib

variable {K : Type*} [Field K] [LinearOrder K] [IsStrictOrderedRing K] [FloorRing K]
variable {prec : ℕ} {emin : ℤ} {x y : K}

/-! ## The nearest integer -/

/-- The integer nearest to a number; of two that are equally near, the even one. -/
def nearestEven (x : K) : ℤ :=
  if Int.fract x < 1 / 2 then ⌊x⌋
  else if 1 / 2 < Int.fract x then ⌊x⌋ + 1
  else if Even ⌊x⌋ then ⌊x⌋
  else ⌊x⌋ + 1

@[simp] lemma nearestEven_intCast (n : ℤ) : nearestEven (n : K) = n := by
  simp [nearestEven]

@[simp] lemma nearestEven_zero : nearestEven (0 : K) = 0 := by
  simp [nearestEven]

lemma sub_half_le_nearestEven (x : K) : x - 1 / 2 ≤ nearestEven x := by
  have hsum := Int.floor_add_fract x
  have hlt := Int.fract_lt_one x
  rw [nearestEven]
  split_ifs <;> push_cast <;> linarith

lemma nearestEven_le_add_half (x : K) : (nearestEven x : K) ≤ x + 1 / 2 := by
  have hsum := Int.floor_add_fract x
  have hpos := Int.fract_nonneg x
  rw [nearestEven]
  split_ifs <;> push_cast <;> linarith

lemma nearestEven_mono (h : x ≤ y) : nearestEven x ≤ nearestEven y := by
  rcases h.eq_or_lt with rfl | hlt
  · exact le_rfl
  · have hx := nearestEven_le_add_half x
    have hy := sub_half_le_nearestEven y
    have hcast : (nearestEven x : K) < (nearestEven y + 1 : ℤ) := by
      push_cast
      linarith
    exact Int.lt_add_one_iff.mp (Int.cast_lt.mp hcast)

/-! ## Rounding to a number of digits -/

omit [IsStrictOrderedRing K] in
/-- A multiple of a power of two is one of each smaller power. -/
lemma exists_int_mul_zpow (m : ℤ) {d e : ℤ} (h : d ≤ e) :
    ∃ n : ℤ, (m : K) * 2 ^ e = n * 2 ^ d := by
  refine ⟨m * 2 ^ (e - d).toNat, ?_⟩
  push_cast
  rw [mul_assoc, ← zpow_natCast, ← zpow_add₀ two_ne_zero, Int.toNat_of_nonneg (by omega),
    sub_add_cancel]

/-- The place of the last digit that is kept of a number: `prec` digits are kept, and none
below the place `emin`. -/
def lastPlace (prec : ℕ) (emin : ℤ) (x : K) : ℤ := max (Int.log 2 |x| + 1 - prec) emin

/-- The number rounded to the digits that are kept. -/
def roundTo (prec : ℕ) (emin : ℤ) (x : K) : K :=
  nearestEven (x / 2 ^ lastPlace prec emin x) * 2 ^ lastPlace prec emin x

variable (prec emin) in
/-- What has no digits below the last place bounds the rounded number if it bounds the
number. -/
lemma roundTo_le {m e : ℤ} (he : lastPlace prec emin x ≤ e) (h : x ≤ m * 2 ^ e) :
    roundTo prec emin x ≤ m * 2 ^ e := by
  obtain ⟨n, hn⟩ := exists_int_mul_zpow (K := K) m he
  rw [hn] at h ⊢
  have hpos : (0 : K) < 2 ^ lastPlace prec emin x := zpow_pos two_pos _
  have hle : nearestEven (x / 2 ^ lastPlace prec emin x) ≤ nearestEven (n : K) :=
    nearestEven_mono ((div_le_iff₀ hpos).mpr h)
  rw [nearestEven_intCast] at hle
  exact mul_le_mul_of_nonneg_right (Int.cast_le.mpr hle) hpos.le

variable (prec emin) in
lemma le_roundTo {m e : ℤ} (he : lastPlace prec emin x ≤ e) (h : m * 2 ^ e ≤ x) :
    m * 2 ^ e ≤ roundTo prec emin x := by
  obtain ⟨n, hn⟩ := exists_int_mul_zpow (K := K) m he
  rw [hn] at h ⊢
  have hpos : (0 : K) < 2 ^ lastPlace prec emin x := zpow_pos two_pos _
  have hle : nearestEven (n : K) ≤ nearestEven (x / 2 ^ lastPlace prec emin x) :=
    nearestEven_mono ((le_div_iff₀ hpos).mpr h)
  rw [nearestEven_intCast] at hle
  exact mul_le_mul_of_nonneg_right (Int.cast_le.mpr hle) hpos.le

/-- A number with few enough digits is not changed. -/
lemma roundTo_eq_self {m e : ℤ} (hm : |m| < 2 ^ prec) (he : emin ≤ e) :
    roundTo prec emin ((m : K) * 2 ^ e) = m * 2 ^ e := by
  have hpow : (0 : K) < 2 ^ e := zpow_pos two_pos e
  rcases eq_or_ne m 0 with rfl | hm0
  · simp [roundTo]
  have hpos : 0 < |(m : K) * 2 ^ e| := abs_pos.mpr (by positivity)
  have hlog : Int.log 2 |(m : K) * 2 ^ e| < prec + e := by
    rw [← Int.lt_zpow_iff_log_lt one_lt_two hpos, abs_mul, abs_of_pos hpow, Nat.cast_ofNat,
      zpow_add₀ two_ne_zero, zpow_natCast]
    exact mul_lt_mul_of_pos_right (mod_cast hm) hpow
  have hplace : lastPlace prec emin ((m : K) * 2 ^ e) ≤ e := max_le (by omega) he
  exact le_antisymm (roundTo_le prec emin hplace le_rfl) (le_roundTo prec emin hplace le_rfl)

lemma roundTo_natCast {n : ℕ} (hn : n < 2 ^ prec) (he : emin ≤ 0) :
    roundTo prec emin (n : K) = n := by
  have hm : |(n : ℤ)| < 2 ^ prec := by
    rw [Nat.abs_cast]
    exact_mod_cast hn
  have h := roundTo_eq_self (K := K) hm he
  rwa [zpow_zero, mul_one, Int.cast_natCast] at h

lemma roundTo_nonneg (hx : 0 ≤ x) : 0 ≤ roundTo prec emin x := by
  have h := le_roundTo prec emin (m := 0) le_rfl (by rwa [Int.cast_zero, zero_mul] : _ ≤ x)
  rwa [Int.cast_zero, zero_mul] at h

/-- Rounding keeps the order: numbers with the same last place are rounded to the same
grid, and otherwise a power of two lies between them. -/
lemma roundTo_mono (hprec : 0 < prec) (hx : 0 ≤ x) (h : x ≤ y) :
    roundTo prec emin x ≤ roundTo prec emin y := by
  rcases hx.eq_or_lt with rfl | hpos
  · have hzero : roundTo prec emin (0 : K) = 0 := by simp [roundTo]
    rw [hzero]
    exact roundTo_nonneg h
  have hy : 0 < y := hpos.trans_le h
  have hplaces : lastPlace prec emin x ≤ lastPlace prec emin y := by
    have hlog : Int.log 2 |x| ≤ Int.log 2 |y| :=
      Int.log_mono_right (abs_pos.mpr hpos.ne') (by rwa [abs_of_pos hpos, abs_of_pos hy])
    exact max_le_max (by omega) le_rfl
  rcases hplaces.eq_or_lt with hsame | hlt
  · rw [roundTo, roundTo, hsame]
    have hgrid : (0 : K) < 2 ^ lastPlace prec emin y := zpow_pos two_pos _
    have hdiv := (div_le_div_iff_of_pos_right hgrid).mpr h
    exact mul_le_mul_of_nonneg_right (Int.cast_le.mpr (nearestEven_mono hdiv)) hgrid.le
  · have hxplace : lastPlace prec emin x = max (Int.log 2 x + 1 - prec) emin := by
      rw [lastPlace, abs_of_pos hpos]
    have hyplace : lastPlace prec emin y = max (Int.log 2 y + 1 - prec) emin := by
      rw [lastPlace, abs_of_pos hy]
    have hylast : lastPlace prec emin y ≤ Int.log 2 y := by omega
    have hxlog : Int.log 2 x < Int.log 2 y := by omega
    have hbelow : x ≤ (1 : ℤ) * 2 ^ Int.log 2 y := by
      rw [Int.cast_one, one_mul]
      exact_mod_cast ((Int.lt_zpow_iff_log_lt one_lt_two hpos).mpr hxlog).le
    have habove : (1 : ℤ) * 2 ^ Int.log 2 y ≤ y := by
      rw [Int.cast_one, one_mul]
      exact_mod_cast Int.zpow_log_le_self one_lt_two hy
    exact (roundTo_le prec emin (hplaces.trans hylast) hbelow).trans
      (le_roundTo prec emin hylast habove)

/-! ## Negative numbers -/

/-- Rounding does not look at the sign. -/
lemma nearestEven_neg (x : K) : nearestEven (-x) = -nearestEven x := by
  by_cases hfract : Int.fract x = 0
  · obtain ⟨n, rfl⟩ : ∃ n : ℤ, (n : K) = x := ⟨⌊x⌋, by rw [← Int.self_sub_fract, hfract, sub_zero]⟩
    rw [← Int.cast_neg, nearestEven_intCast, nearestEven_intCast]
  · have hneg : Int.fract (-x) = 1 - Int.fract x := Int.fract_neg hfract
    have hfloor : ⌊-x⌋ = -⌊x⌋ - 1 := by
      have hsum := Int.floor_add_fract (-x)
      have hsum' := Int.floor_add_fract x
      rw [hneg] at hsum
      have hcast : ((⌊-x⌋ : ℤ) : K) = ((-⌊x⌋ - 1 : ℤ) : K) := by
        push_cast
        linarith
      exact Int.cast_injective hcast
    rcases lt_trichotomy (Int.fract x) (1 / 2) with hlt | heq | hgt
    · have hup : 1 / 2 < 1 - Int.fract x := by linarith
      rw [nearestEven, nearestEven, hneg, hfloor, if_pos hlt, if_neg (not_lt.mpr hup.le),
        if_pos hup]
      omega
    · -- a tie: of two neighbours exactly one is even
      have htie : (1 : K) - 1 / 2 = 1 / 2 := by linarith
      rw [nearestEven, nearestEven, hneg, hfloor, heq, htie, if_neg (lt_irrefl _),
        if_neg (lt_irrefl _), if_neg (lt_irrefl _), if_neg (lt_irrefl _)]
      by_cases heven : Even ⌊x⌋
      · have hodd : ¬ Even (-⌊x⌋ - 1) := by
          rw [Int.even_sub_one, even_neg]
          exact not_not.mpr heven
        rw [if_pos heven, if_neg hodd]
        omega
      · have heven' : Even (-⌊x⌋ - 1) := by
          rw [Int.even_sub_one, even_neg]
          exact heven
        rw [if_neg heven, if_pos heven']
        omega
    · have hdown : 1 - Int.fract x < 1 / 2 := by linarith
      rw [nearestEven, nearestEven, hneg, hfloor, if_pos hdown, if_neg (not_lt.mpr hgt.le),
        if_pos hgt]
      omega

lemma roundTo_neg (x : K) : roundTo prec emin (-x) = -roundTo prec emin x := by
  rw [roundTo, roundTo, lastPlace, lastPlace, abs_neg, neg_div, nearestEven_neg, Int.cast_neg,
    neg_mul]

/-- Rounding keeps the order of all numbers. -/
lemma roundTo_monotone (hprec : 0 < prec) : Monotone (roundTo prec emin : K → K) := by
  intro x y h
  rcases le_total 0 x with hx | hx
  · exact roundTo_mono hprec hx h
  rcases le_total 0 y with hy | hy
  · have hxneg : 0 ≤ roundTo prec emin (-x) := roundTo_nonneg (neg_nonneg.mpr hx)
    rw [roundTo_neg] at hxneg
    exact (neg_nonneg.mp hxneg).trans (roundTo_nonneg hy)
  · have hneg : roundTo prec emin (-y) ≤ roundTo prec emin (-x) :=
      roundTo_mono hprec (neg_nonneg.mpr hy) (neg_le_neg h)
    rw [roundTo_neg, roundTo_neg] at hneg
    exact neg_le_neg_iff.mp hneg

/-! ## Rounding twice -/

/-- A number has no more digits above the last place than are kept. -/
lemma abs_lt_lastPlace (x : K) : |x| < 2 ^ (prec + lastPlace prec emin x) := by
  rcases eq_or_ne x 0 with rfl | hx
  · rw [abs_zero]
    exact zpow_pos two_pos _
  · have hlog : |x| < 2 ^ (Int.log 2 |x| + 1) := by
      exact_mod_cast Int.lt_zpow_succ_log_self one_lt_two |x|
    refine hlog.trans_le (zpow_le_zpow_right₀ one_le_two ?_)
    have hplace := le_max_left (Int.log 2 |x| + 1 - prec) emin
    rw [lastPlace]
    omega

/-- What has been rounded is not changed by rounding. -/
lemma roundTo_idem (hprec : 0 < prec) (x : K) :
    roundTo prec emin (roundTo prec emin x) = roundTo prec emin x := by
  have hemin : emin ≤ lastPlace prec emin x := le_max_right _ _
  have hsmall : |x| < 2 ^ (prec + lastPlace prec emin x) := abs_lt_lastPlace x
  rw [roundTo.eq_1 prec emin x]
  generalize lastPlace prec emin x = e at hemin hsmall
  have hgrid : (0 : K) < 2 ^ e := zpow_pos two_pos _
  -- the digits are at most a one with zeros
  have hbound : |x / 2 ^ e| ≤ ((2 ^ prec : ℤ) : K) := by
    rw [abs_div, abs_of_pos hgrid, div_le_iff₀ hgrid]
    push_cast
    rw [← zpow_natCast, ← zpow_add₀ two_ne_zero]
    exact hsmall.le
  obtain ⟨hlow, hhigh⟩ := abs_le.mp hbound
  have hle : nearestEven (x / 2 ^ e) ≤ 2 ^ prec :=
    (nearestEven_mono hhigh).trans_eq (nearestEven_intCast _)
  have hge : -(2 ^ prec) ≤ nearestEven (x / 2 ^ e) := by
    have h := nearestEven_mono hlow
    rwa [nearestEven_neg, nearestEven_intCast] at h
  have hone : |(1 : ℤ)| < 2 ^ prec := by
    rw [abs_one]
    exact one_lt_pow₀ (by omega) hprec.ne'
  have htop : roundTo prec emin ((1 : ℤ) * 2 ^ (prec + e) : K) = (1 : ℤ) * 2 ^ (prec + e) :=
    roundTo_eq_self hone (by omega)
  have hpow : ((2 ^ prec : ℤ) : K) * 2 ^ e = (1 : ℤ) * 2 ^ (prec + e) := by
    push_cast
    rw [one_mul, zpow_add₀ two_ne_zero, zpow_natCast]
  rcases hle.eq_or_lt with heq | hlt
  · rw [heq, hpow, htop]
  rcases hge.eq_or_lt with heq | hgt
  · rw [← heq, Int.cast_neg, neg_mul, hpow, roundTo_neg, htop]
  · exact roundTo_eq_self (abs_lt.mpr ⟨hgt, hlt⟩) hemin

end Arcsent.Lib
