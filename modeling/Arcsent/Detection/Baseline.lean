/-
# Baselines of metrics

`internal/detection/baseline.go`: for each scanner and metric a record with running
statistics of the values seen, kept in the store, and the two tests that compare a new
value with them.  Floating-point numbers are read as rationals.  The only irrational
number of the source is the standard deviation; it is squared away in the code's test and
appears in `zScore`, to which the test is related.
-/
import Mathlib.Analysis.Real.Sqrt
import Mathlib.Data.List.Sort
import Mathlib.Data.Rat.Floor
import Arcsent.Storage.Results

namespace Arcsent.Detection

open Arcsent.Go Arcsent.Storage

def baselineBucket : Bytes := bytes "baselines"
def maxSamples : ℕ := 200
def minSamples : ℤ := 10

/-- The record of a metric. -/
structure Baseline where
  scannerName : String
  metric : String
  count : ℤ
  mean : ℚ
  m2 : ℚ
  min : ℚ
  max : ℚ
  samples : List ℚ
  updatedAt : Time
  driftCount : ℤ
  lastValue : ℚ
deriving DecidableEq, Repr

def baselineKey (scannerName metric : String) : String := scannerName ++ "::" ++ metric

namespace Baseline

/-- The record that `Update` starts from when there is none. -/
def fresh (scannerName metric : String) (value : ℚ) : Baseline where
  scannerName := scannerName
  metric := metric
  count := 0
  mean := 0
  m2 := 0
  min := value
  max := value
  samples := []
  updatedAt := 0
  driftCount := 0
  lastValue := 0

/-- What `Update` makes of a record. -/
def observe (b : Baseline) (now : Time) (value : ℚ) : Baseline :=
  let count := b.count + 1
  let delta := value - b.mean
  let mean := b.mean + delta / count
  let delta2 := value - mean
  { b with
    count := count
    mean := mean
    m2 := b.m2 + delta * delta2
    min := if value < b.min then value else b.min
    max := if value > b.max then value else b.max
    samples :=
      let samples := b.samples ++ [value]
      if samples.length > maxSamples then samples.drop (samples.length - maxSamples)
      else samples
    updatedAt := now
    lastValue := value }

/-- What `DetectDrift` makes of a record, given the verdict on the value. -/
def judge (b : Baseline) (now : Time) (value : ℚ) (anomaly : Bool) : Baseline :=
  { b with
    driftCount := if anomaly then b.driftCount + 1 else 0
    lastValue := value
    updatedAt := now }

def variance (b : Baseline) : ℚ := b.m2 / ((b.count - 1 : ℤ) : ℚ)

/-- The test `math.Abs(z) >= 3.0` on the z-score, both sides squared. -/
def zOutlier (b : Baseline) (value : ℚ) : Bool :=
  if b.count < 2 then false
  else if b.variance ≤ 0 then false
  else 9 * b.variance ≤ (value - b.mean) ^ 2

end Baseline

/-! ## The z-score -/

namespace Baseline

/-- The z-score of a value, with the root of the source. -/
noncomputable def zScore (b : Baseline) (value : ℚ) : ℝ :=
  if b.count < 2 then 0
  else if b.variance ≤ 0 then 0
  else
    let stddev := Real.sqrt b.variance
    if stddev = 0 then 0 else (value - b.mean) / stddev

/-- Comparing a quotient by a root with a bound is comparing the squares. -/
lemma le_abs_div_sqrt_iff {d v c : ℝ} (hv : 0 < v) (hc : 0 ≤ c) :
    c ≤ |d / Real.sqrt v| ↔ c ^ 2 * v ≤ d ^ 2 := by
  have hroot : 0 < Real.sqrt v := Real.sqrt_pos.mpr hv
  rw [abs_div, abs_of_pos hroot, le_div_iff₀ hroot, ← abs_of_nonneg (mul_nonneg hc hroot.le),
    ← sq_le_sq, mul_pow, Real.sq_sqrt hv.le]

/-- **The code's test is the test on the z-score.** -/
theorem zOutlier_iff (b : Baseline) (value : ℚ) :
    b.zOutlier value = true ↔ 3 ≤ |b.zScore value| := by
  rw [zOutlier, zScore]
  split_ifs with hcount hvar
  · simp
  · simp
  · have hpos : (0 : ℝ) < b.variance := by exact_mod_cast not_le.mp hvar
    dsimp only
    rw [if_neg (Real.sqrt_pos.mpr hpos).ne', le_abs_div_sqrt_iff hpos (by norm_num),
      decide_eq_true_iff]
    norm_num
    exact_mod_cast Iff.rfl

end Baseline

/-! ## Quartiles -/

def percentile (sorted : List ℚ) (p : ℚ) : ℚ :=
  if sorted.length = 0 then 0
  else if p ≤ 0 then sorted.headD 0
  else if p ≥ 100 then sorted.getLastD 0
  else
    let rank := p / 100 * ((sorted.length - 1 : ℕ) : ℚ)
    let lower := rank.floor.toNat
    let upper := rank.ceil.toNat
    if lower = upper then sorted.getD lower 0
    else
      let weight := rank - lower
      sorted.getD lower 0 * (1 - weight) + sorted.getD upper 0 * weight

def quartiles (samples : List ℚ) : ℚ × ℚ :=
  if samples.length = 0 then (0, 0)
  else
    let sorted := samples.insertionSort (· ≤ ·)
    (percentile sorted 25, percentile sorted 75)

/-! ## Verdicts and their texts -/

/-- The verb `%.2f` for a number given in hundredths. -/
def hundredths (n : ℤ) : String :=
  let a := n.natAbs
  let digits :=
    toString (a / 100) ++ "." ++ (if a % 100 < 10 then "0" else "") ++ toString (a % 100)
  if n < 0 then "-" ++ digits else digits

/-- The verb `%.2f`: to the nearest hundredth, and to the even one from halfway. -/
def fixed2 (x : ℚ) : String :=
  let y := x * 100
  let f := y.floor
  let half := y - f
  hundredths <|
    if half < 1 / 2 then f
    else if half > 1 / 2 then f + 1
    else if f % 2 = 0 then f
    else f + 1

/-- The verb `%.2f` for a quotient `d / sqrt v` with a positive `v`: the hundredths of its
absolute value are the nearest natural number to the root of `10000 * d ^ 2 / v`. -/
def fixed2Root (d v : ℚ) : String :=
  let q := 10000 * d ^ 2 / v
  let r := Nat.sqrt (4 * q).floor.toNat
  let n := if (r : ℚ) ^ 2 = 4 * q ∧ r % 4 = 1 then r / 2 else (r + 1) / 2
  hundredths (if d < 0 then -n else n)

/-- The verdict of `IsAnomaly` on a value, once the record is there. -/
def Baseline.anomaly (b : Baseline) (value : ℚ) : Bool × String :=
  if b.count < minSamples then (false, "insufficient_samples")
  else if b.zOutlier value then (true, "zscore=" ++ fixed2Root (value - b.mean) b.variance)
  else
    let q := quartiles b.samples
    let iqr := q.2 - q.1
    let low := q.1 - 3 / 2 * iqr
    let high := q.2 + 3 / 2 * iqr
    if value < low ∨ value > high then
      (true, "iqr_outlier (" ++ fixed2 low ++ ".." ++ fixed2 high ++ ")")
    else (false, "within_baseline")

/-! ## The manager -/

namespace Manager

variable {V : Type} (codec : Codec Baseline V)

def get (s : BadgerStore V) (scannerName metric : String) : Except Error Baseline :=
  match s.get baselineBucket (bytes (baselineKey scannerName metric)) with
  | .error err => .error err
  | .ok raw =>
    match codec.unmarshal raw with
    | .error err => .error (.text ("decode baseline: " ++ err))
    | .ok baseline => .ok baseline

def put (s : BadgerStore V) (b : Baseline) : Except Error (BadgerStore V) :=
  s.put baselineBucket (bytes (baselineKey b.scannerName b.metric)) (codec.marshal b)

def list (s : BadgerStore V) : Except Error (List Baseline) :=
  listRecords baselineBucket "baseline" codec.unmarshal s

/-- The first half of `Update`: the record that the value is added to. -/
def load (s : BadgerStore V) (scannerName metric : String) (value : ℚ) :
    Except Error Baseline :=
  if scannerName = "" ∨ metric = "" then
    .error (.text "scannerName and metric are required")
  else
    match get codec s scannerName metric with
    | .error .notFound => .ok (.fresh scannerName metric value)
    | .error err => .error err
    | .ok baseline => .ok baseline

def update (s : BadgerStore V) (now : Time) (scannerName metric : String) (value : ℚ) :
    Except Error (BadgerStore V × Baseline) :=
  match load codec s scannerName metric value with
  | .error err => .error err
  | .ok baseline =>
    let baseline := baseline.observe now value
    match put codec s baseline with
    | .error err => .error err
    | .ok s => .ok (s, baseline)

def isAnomaly (s : BadgerStore V) (scannerName metric : String) (value : ℚ) :
    Except Error (Bool × String) :=
  match get codec s scannerName metric with
  | .error err => .error err
  | .ok baseline => .ok (baseline.anomaly value)

/-- The end of `DetectDrift`: whether the drift has lasted long enough. -/
def drifted (b : Baseline) (consecutive : ℤ) (reason : String) : Bool × String :=
  if b.driftCount ≥ consecutive then (true, "drift:" ++ reason) else (false, "no_drift")

def detectDrift (s : BadgerStore V) (now : Time) (scannerName metric : String) (value : ℚ)
    (consecutive : ℤ) : Except Error (BadgerStore V × Bool × String) :=
  let consecutive := if consecutive < 1 then 1 else consecutive
  match get codec s scannerName metric with
  | .error err => .error err
  | .ok baseline =>
    match isAnomaly codec s scannerName metric value with
    | .error err => .error err
    | .ok (anomaly, reason) =>
      let baseline := baseline.judge now value anomaly
      match put codec s baseline with
      | .error err => .error err
      | .ok s => .ok (s, drifted baseline consecutive reason)

end Manager

end Arcsent.Detection
