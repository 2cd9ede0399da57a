/-
# Floating-point numbers

A `float64` that is neither infinite nor undefined is taken as the rational number it stands
for, and an operation as the exact one with its result rounded.
-/
import Arcsent.Lib.Rounding

namespace Arcsent.Go

open Arcsent.Lib

/-- The `float64` next to a number: 53 digits are kept. -/
def float64 (x : ℚ) : ℚ := roundTo 53 (-1074) x

lemma float64_mono {x y : ℚ} (hx : 0 ≤ x) (h : x ≤ y) : float64 x ≤ float64 y :=
  roundTo_mono (by omega) hx h

lemma float64_monotone : Monotone float64 := roundTo_monotone (by omega)

lemma float64_idem (x : ℚ) : float64 (float64 x) = float64 x := roundTo_idem (by omega) x

lemma float64_eq_self {m e : ℤ} (hm : |m| < 2 ^ 53) (he : -1074 ≤ e) :
    float64 (m * 2 ^ e) = m * 2 ^ e :=
  roundTo_eq_self hm he

lemma float64_natCast {n : ℕ} (hn : n < 2 ^ 53) : float64 n = n := roundTo_natCast hn (by omega)

/-- A part of a whole in percent, as `float64(part) / float64(whole) * 100` gives it. -/
def percent (part whole : ℕ) : ℚ := float64 (float64 (float64 part / float64 whole) * 100)

/-- The percentage of a part of the whole. -/
lemma percent_mem {part whole : ℕ} (hwhole : 0 < whole) (hle : part ≤ whole) :
    0 ≤ percent part whole ∧ percent part whole ≤ 100 := by
  have hzero : float64 0 = 0 := mod_cast float64_natCast (n := 0) (by omega)
  have hone : float64 1 = 1 := mod_cast float64_natCast (n := 1) (by omega)
  have hhundred : float64 100 = 100 := mod_cast float64_natCast (n := 100) (by omega)
  -- the two numbers
  have hpart : 0 ≤ float64 part := hzero ▸ float64_mono le_rfl part.cast_nonneg
  have hpartle : float64 part ≤ float64 whole :=
    float64_mono part.cast_nonneg (Nat.cast_le.mpr hle)
  have hwholepos : 1 ≤ float64 whole :=
    hone ▸ float64_mono zero_le_one (Nat.one_le_cast.mpr hwhole)
  -- their quotient
  have hquot : 0 ≤ float64 part / float64 whole := div_nonneg hpart (by linarith)
  have hquotle : float64 part / float64 whole ≤ 1 := div_le_one_of_le₀ hpartle (by linarith)
  have hratio : 0 ≤ float64 (float64 part / float64 whole) := hzero ▸ float64_mono le_rfl hquot
  have hratiole : float64 (float64 part / float64 whole) ≤ 1 := hone ▸ float64_mono hquot hquotle
  -- and the product
  have hproduct : 0 ≤ float64 (float64 part / float64 whole) * 100 := by linarith
  constructor
  · exact hzero ▸ float64_mono le_rfl hproduct
  · exact hhundred ▸ float64_mono hproduct (by linarith)

end Arcsent.Go
