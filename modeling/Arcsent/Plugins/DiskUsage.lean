/-
# How full a file system is

`internal/plugins/system/disk_usage.go`: what is used of a file system, in percent, is held
against two thresholds.  All figures are floating-point numbers, made of counts of blocks that
need not fit into one.
-/
import Arcsent.Go.Format
import Arcsent.Plugins.Init

namespace Arcsent.Plugins

open Arcsent.Go Arcsent.Scanner

/-- The fields of a `syscall.Statfs_t` that are read. -/
structure Statfs where
  blocks : UInt64
  bavail : UInt64
  bsize : ℤ

namespace Statfs

variable (stat : Statfs)

def total : ℚ := float64 (float64 stat.blocks.toNat * float64 stat.bsize)

def free : ℚ := float64 (float64 stat.bavail.toNat * float64 stat.bsize)

def used : ℚ := float64 (stat.total - stat.free)

def usedPct : ℚ :=
  if stat.total > 0 then float64 (float64 (stat.used / stat.total) * 100) else 0

end Statfs

/-- What a percentage is reported as. -/
def diskFindings (path : String) (warnPercent critPercent usedPct : ℚ) : List Finding :=
  if usedPct ≥ critPercent then
    [{ id := "disk_usage_critical"
       severity := .critical
       category := "resource"
       description := "Disk usage " ++ formatHundredths usedPct ++ "% exceeds critical threshold"
       evidence := [("path", .string path), ("used_pct", .float64 usedPct)]
       remediation := "Free disk space or expand storage." }]
  else if usedPct ≥ warnPercent then
    [{ id := "disk_usage_warning"
       severity := .medium
       category := "resource"
       description := "Disk usage " ++ formatHundredths usedPct ++ "% exceeds warning threshold"
       evidence := [("path", .string path), ("used_pct", .float64 usedPct)]
       remediation := "Investigate disk usage growth." }]
  else []

/-- The method `Run` of `DiskUsage`. -/
def runDiskUsage (path : String) (warnPercent critPercent : ℚ) (timestamp : String)
    (statfs : Except String Statfs) : Except String Result :=
  match statfs with
  | .error err => .error ("statfs " ++ path ++ ": " ++ err)
  | .ok stat =>
    .ok {
      scannerName := (Plugin.diskUsage path warnPercent critPercent).name
      status := .success
      findings := diskFindings path warnPercent critPercent stat.usedPct
      startedAt := 0
      finishedAt := 0
      duration := 0
      metadata :=
        ⟨[("path", .string path), ("total", .float64 stat.total), ("used", .float64 stat.used),
          ("used_pct", .float64 stat.usedPct), ("warn_pct", .float64 warnPercent),
          ("crit_pct", .float64 critPercent), ("timestamp", .string timestamp)], by simp⟩ }

/-! ## The percentage -/

lemma float64_zero : float64 0 = 0 := mod_cast float64_natCast (n := 0) (by omega)

lemma float64_nonneg {x : ℚ} (h : 0 ≤ x) : 0 ≤ float64 x := float64_zero ▸ float64_monotone h

lemma float64_toNat_mono {n m : UInt64} (h : n ≤ m) : float64 n.toNat ≤ float64 m.toNat :=
  float64_monotone (Nat.cast_le.mpr (UInt64.le_iff_toNat_le.mp h))

section Percentage

variable {stat stat' : Statfs}

/-- There is something on a file system only if its blocks have a size. -/
lemma bsize_pos (h : 0 < stat.total) : 0 < float64 stat.bsize := by
  by_contra hsize
  have hblocks : 0 ≤ float64 stat.blocks.toNat := float64_nonneg (Nat.cast_nonneg _)
  have hproduct : float64 stat.blocks.toNat * float64 stat.bsize ≤ 0 :=
    mul_nonpos_of_nonneg_of_nonpos hblocks (not_lt.mp hsize)
  have htotal : stat.total ≤ 0 := float64_zero ▸ float64_monotone hproduct
  linarith

/-- The blocks that are free are a part of all blocks. -/
lemma free_le_total (hpart : stat.bavail ≤ stat.blocks) (h : 0 < stat.total) :
    0 ≤ stat.free ∧ stat.free ≤ stat.total := by
  have hsize := (bsize_pos h).le
  have hfree : 0 ≤ float64 stat.bavail.toNat := float64_nonneg (Nat.cast_nonneg _)
  exact ⟨float64_nonneg (mul_nonneg hfree hsize),
    float64_monotone (mul_le_mul_of_nonneg_right (float64_toNat_mono hpart) hsize)⟩

/-- The percentage is one, whatever is rounded on the way. -/
lemma usedPct_mem (hpart : stat.bavail ≤ stat.blocks) :
    0 ≤ stat.usedPct ∧ stat.usedPct ≤ 100 := by
  rw [Statfs.usedPct]
  split_ifs with htotal
  · obtain ⟨hfree, hle⟩ := free_le_total hpart htotal
    have hone : float64 1 = 1 := mod_cast float64_natCast (n := 1) (by omega)
    have hhundred : float64 100 = 100 := mod_cast float64_natCast (n := 100) (by omega)
    have hself : float64 stat.total = stat.total := float64_idem _
    have hused : 0 ≤ stat.used := float64_nonneg (sub_nonneg.mpr hle)
    have husedle : stat.used ≤ stat.total := by
      rw [← hself]
      exact float64_monotone (by linarith)
    have hratio : 0 ≤ float64 (stat.used / stat.total) :=
      float64_nonneg (div_nonneg hused htotal.le)
    have hratiole : float64 (stat.used / stat.total) ≤ 1 :=
      hone ▸ float64_monotone (div_le_one_of_le₀ husedle htotal.le)
    have hproduct : float64 (stat.used / stat.total) * 100 ≤ 100 := by linarith
    exact ⟨float64_nonneg (by linarith), (float64_monotone hproduct).trans_eq hhundred⟩
  · exact ⟨le_rfl, by norm_num⟩

/-- The less is free, the higher is the percentage. -/
lemma usedPct_le (hblocks : stat'.blocks = stat.blocks) (hbsize : stat'.bsize = stat.bsize)
    (hless : stat'.bavail ≤ stat.bavail) : stat.usedPct ≤ stat'.usedPct := by
  have htotals : stat'.total = stat.total := by rw [Statfs.total, Statfs.total, hblocks, hbsize]
  rw [Statfs.usedPct, Statfs.usedPct, htotals]
  split_ifs with htotal
  · have hfree : stat'.free ≤ stat.free := by
      rw [Statfs.free, Statfs.free, hbsize]
      exact float64_monotone
        (mul_le_mul_of_nonneg_right (float64_toNat_mono hless) (bsize_pos htotal).le)
    have hused : stat.used ≤ stat'.used := by
      rw [Statfs.used, Statfs.used, htotals]
      exact float64_monotone (by linarith)
    have hratio := float64_monotone (div_le_div_of_nonneg_right hused htotal.le)
    exact float64_monotone (mul_le_mul_of_nonneg_right hratio (by norm_num))
  · exact le_rfl

end Percentage

/-! ## What is reported -/

lemma exists_critical_iff {path : String} {warnPercent critPercent usedPct : ℚ} :
    (∃ f ∈ diskFindings path warnPercent critPercent usedPct, f.severity = .critical) ↔
      critPercent ≤ usedPct := by
  rw [diskFindings]
  split_ifs with hcrit hwarn
  · simp [hcrit]
  · simpa using hcrit
  · simpa using hcrit

lemma diskFindings_ne_nil_iff {path : String} {warnPercent critPercent usedPct : ℚ} :
    diskFindings path warnPercent critPercent usedPct ≠ [] ↔
      critPercent ≤ usedPct ∨ warnPercent ≤ usedPct := by
  rw [diskFindings]
  split_ifs with hcrit hwarn
  · simp [hcrit]
  · simp [hwarn]
  · simp only [ne_eq, not_true_eq_false, false_iff, not_or]
    exact ⟨hcrit, hwarn⟩

/-- **The fuller a file system is, the more is reported.**  The figures are rounded at each
step, and still the percentage lies between 0 and 100 and does not go down when fewer blocks
are free, so that nothing that is reported is reported no more, nor less severely. -/
theorem disk_monotone {path timestamp timestamp' : String} {warnPercent critPercent : ℚ}
    {stat stat' : Statfs} {r r' : Result} (hblocks : stat'.blocks = stat.blocks)
    (hbsize : stat'.bsize = stat.bsize) (hpart : stat.bavail ≤ stat.blocks)
    (hless : stat'.bavail ≤ stat.bavail)
    (h : runDiskUsage path warnPercent critPercent timestamp (.ok stat) = .ok r)
    (h' : runDiskUsage path warnPercent critPercent timestamp' (.ok stat') = .ok r') :
    (∃ x x', r.metadata.get? "used_pct" = some (.float64 x) ∧
        r'.metadata.get? "used_pct" = some (.float64 x') ∧ 0 ≤ x ∧ x ≤ x' ∧ x' ≤ 100) ∧
      (r.findings ≠ [] → r'.findings ≠ []) ∧
      ((∃ f ∈ r.findings, f.severity = .critical) →
        ∃ f ∈ r'.findings, f.severity = .critical) := by
  obtain rfl := Except.ok.inj h
  obtain rfl := Except.ok.inj h'
  have hle := usedPct_le hblocks hbsize hless
  have hpart' : stat'.bavail ≤ stat'.blocks := by
    rw [hblocks]
    exact UInt64.le_trans hless hpart
  refine ⟨⟨stat.usedPct, stat'.usedPct, rfl, rfl, (usedPct_mem hpart).1, hle,
    (usedPct_mem hpart').2⟩, ?_, ?_⟩
  · dsimp only
    rw [diskFindings_ne_nil_iff, diskFindings_ne_nil_iff]
    exact Or.imp hle.trans' hle.trans'
  · dsimp only
    rw [exists_critical_iff, exists_critical_iff]
    exact hle.trans'

/-- A file system with more blocks than a `float64` can tell apart. -/
def hugeDisk (bavail : UInt64) : Statfs := ⟨1152921504606846977, bavail, 4096⟩

/-- It fills up from ninety-nine percent, which is critical already. -/
theorem disk_monotone_hugeDisk : ∃ r r',
    runDiskUsage "/" 85 95 "" (.ok (hugeDisk 11529215046068470)) = .ok r ∧
      runDiskUsage "/" 85 95 "" (.ok (hugeDisk 1)) = .ok r' ∧
      (∃ f ∈ r.findings, f.severity = .critical) ∧ ∃ f ∈ r'.findings, f.severity = .critical := by
  obtain ⟨r, hr⟩ : ∃ r, runDiskUsage "/" 85 95 "" (.ok (hugeDisk 11529215046068470)) = .ok r :=
    ⟨_, rfl⟩
  obtain ⟨r', hr'⟩ : ∃ r', runDiskUsage "/" 85 95 "" (.ok (hugeDisk 1)) = .ok r' := ⟨_, rfl⟩
  have hblocks : (hugeDisk 1).blocks = (hugeDisk 11529215046068470).blocks := rfl
  have hbsize : (hugeDisk 1).bsize = (hugeDisk 11529215046068470).bsize := rfl
  have hpart : (hugeDisk 11529215046068470).bavail ≤ (hugeDisk 11529215046068470).blocks := by
    decide +kernel
  have hless : (hugeDisk 1).bavail ≤ (hugeDisk 11529215046068470).bavail := by decide +kernel
  have hcritical : ∃ f ∈ r.findings, f.severity = .critical := by
    have hpct : 95 ≤ (hugeDisk 11529215046068470).usedPct := by decide +kernel
    obtain rfl := Except.ok.inj hr
    exact exists_critical_iff.mpr hpct
  exact ⟨r, r', hr, hr', hcritical,
    (disk_monotone hblocks hbsize hpart hless hr hr').2.2 hcritical⟩

end Arcsent.Plugins
