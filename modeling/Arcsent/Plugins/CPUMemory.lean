/-
# How much of the processors and of the memory is used

`internal/plugins/system/cpu_memory.go`: two samples of `/proc/stat` and one of
`/proc/meminfo`.  All counters are words of 64 bits, and the texts relate none of them to
another one, so that a sum, a product or a difference can leave the range of a word.  The
percentages are percentages when none does.
-/
import Mathlib.Data.List.Induction
import Arcsent.Go.Float64
import Arcsent.Go.Strings
import Arcsent.Lib.Words
import Arcsent.Plugins.Init

namespace Arcsent.Plugins

open Arcsent.Go Arcsent.Go.Strings Arcsent.Lib Arcsent.Scanner

/-! ## The two texts -/

/-- An error, and the one of `strconv` that it wraps. -/
structure ReadError where
  text : String
  wraps : Option NumError
deriving DecidableEq

structure CPUStat where
  total : UInt64
  idle : UInt64
deriving DecidableEq

/-- The counters of the line for all processors. -/
def cpuValues (raw : Bytes) : Except ReadError (List UInt64) :=
  match (raw.splitOn newline).find? (bytes "cpu ").isPrefixOf with
  | none => .error ⟨"cpu stat line not found", none⟩
  | some line =>
    let parts := fields line
    if parts.length < 5 then .error ⟨"invalid cpu stat line", none⟩
    else
      match (parts.drop 1).mapM parseUint with
      | .error err => .error ⟨"parse cpu stat: ", some err⟩
      | .ok values => .ok values

/-- The sums of the counters.  There are at least four of them. -/
def CPUStat.ofValues (values : List UInt64) : CPUStat where
  total := values.foldl (· + ·) 0
  idle := if values.length > 4 then values.getD 3 0 + values.getD 4 0 else values.getD 3 0

/-- The function `parseCPUStat`. -/
def parseCPUStat (raw : Bytes) : Except ReadError CPUStat := (cpuValues raw).map .ofValues

@[ext]
structure Meminfo where
  memTotal : UInt64
  memAvailable : UInt64
  swapTotal : UInt64
  swapFree : UInt64
deriving DecidableEq

/-- What a line of the text says: a name and a number.  Other lines are skipped. -/
def meminfoEntry (line : Bytes) : Option (Bytes × UInt64) :=
  match fields line with
  | key :: number :: _ =>
    match parseUint number with
    | .ok value => some (trimSuffix key (bytes ":"), value)
    | .error _ => none
  | _ => none

/-- The cases of the `switch`. -/
def Meminfo.set (info : Meminfo) (key : Bytes) (valueBytes : UInt64) : Meminfo :=
  if key = bytes "MemTotal" then { info with memTotal := valueBytes }
  else if key = bytes "MemAvailable" then { info with memAvailable := valueBytes }
  else if key = bytes "SwapTotal" then { info with swapTotal := valueBytes }
  else if key = bytes "SwapFree" then { info with swapFree := valueBytes }
  else info

/-- One round of the loop. -/
def meminfoLine (info : Meminfo) (line : Bytes) : Meminfo :=
  match meminfoEntry line with
  | some (key, value) => info.set key (value * 1024)
  | none => info

/-- The function `parseMeminfo`. -/
def parseMeminfo (raw : Bytes) : Except ReadError Meminfo :=
  let info := (raw.splitOn newline).foldl meminfoLine ⟨0, 0, 0, 0⟩
  if info.memTotal = 0 ∨ info.memAvailable = 0 then
    .error ⟨"meminfo missing MemTotal/MemAvailable", none⟩
  else .ok info

/-! ## The run -/

/-- What the clock says during a run. -/
structure RunTimes where
  startedAt : Time
  finishedAt : Time
  duration : Duration
  timestamp : String

/-- The processor time that was used between two samples, in percent. -/
def cpuUsage (first second : CPUStat) : ℚ :=
  let deltaTotal := second.total - first.total
  let deltaIdle := second.idle - first.idle
  if deltaTotal > 0 then percent (deltaTotal - deltaIdle).toNat deltaTotal.toNat else 0

/-- The entries about the memory that is swapped out. -/
def swapEntries (includeSwap : Bool) (mem : Meminfo) : List (String × Value) :=
  if includeSwap ∧ mem.swapTotal > 0 then
    let swapUsed := mem.swapTotal - mem.swapFree
    [("swap_used_pct", .float64 (percent swapUsed.toNat mem.swapTotal.toNat)),
      ("swap_used_bytes", .uint64 swapUsed.toNat),
      ("swap_total_bytes", .uint64 mem.swapTotal.toNat)]
  else []

/-- The metadata of a result. -/
def cpuMetadata (sampleMS : ℤ) (includeSwap : Bool) (timestamp : String) (first second : CPUStat)
    (mem : Meminfo) : StringMap Value where
  entries :=
    let memUsed := mem.memTotal - mem.memAvailable
    let memUsedPct :=
      if mem.memTotal > 0 then percent memUsed.toNat mem.memTotal.toNat else 0
    [("cpu_usage_pct", .float64 (cpuUsage first second)),
      ("mem_used_pct", .float64 memUsedPct),
      ("mem_total_bytes", .uint64 mem.memTotal.toNat),
      ("mem_used_bytes", .uint64 memUsed.toNat),
      ("sample_ms", .int sampleMS),
      ("timestamp", .string timestamp)] ++ swapEntries includeSwap mem
  nodup := by
    rw [swapEntries]
    split_ifs <;> simp

/-- The function `readCPUStat`, the file being read or not. -/
def readCPUStat (file : Except String Bytes) : Except ReadError CPUStat :=
  match file with
  | .error err => .error ⟨"read /proc/stat: " ++ err, none⟩
  | .ok raw => parseCPUStat raw

/-- The function `readMeminfo`. -/
def readMeminfo (file : Except String Bytes) : Except ReadError Meminfo :=
  match file with
  | .error err => .error ⟨"read /proc/meminfo: " ++ err, none⟩
  | .ok raw => parseMeminfo raw

/-- The method `Run` of `CPUMemory`. -/
def runCPUMemory (sampleMS : ℤ) (includeSwap : Bool) (times : RunTimes)
    (firstFile secondFile memFile : Except String Bytes) : Except ReadError Result := do
  let first ← readCPUStat firstFile
  let second ← readCPUStat secondFile
  let mem ← readMeminfo memFile
  return {
    scannerName := (Plugin.cpuMemory sampleMS includeSwap).name
    status := .success
    findings := []
    startedAt := times.startedAt
    finishedAt := times.finishedAt
    duration := times.duration
    metadata := cpuMetadata sampleMS includeSwap times.timestamp first second mem }

/-! ## What is read -/

/-- The names and numbers of a text, in the order of its lines. -/
def entriesOf (raw : Bytes) : List (Bytes × UInt64) :=
  (raw.splitOn newline).filterMap meminfoEntry

/-- The last number that stands with a name, or zero. -/
def lastNumber (entries : List (Bytes × UInt64)) (key : String) : UInt64 :=
  (entries.reverse.lookup (bytes key)).getD 0

lemma foldl_meminfoLine (lines : List Bytes) (info : Meminfo) :
    lines.foldl meminfoLine info = (lines.filterMap meminfoEntry).foldl
      (fun info entry => info.set entry.1 (entry.2 * 1024)) info := by
  induction lines generalizing info with
  | nil => rfl
  | cons line lines ih =>
    rw [List.foldl_cons, ih, meminfoLine]
    cases hentry : meminfoEntry line with
    | none => rw [List.filterMap_cons_none hentry]
    | some entry => rw [List.filterMap_cons_some hentry, List.foldl_cons]

/-- A field that the lines with one name set holds the last of their numbers. -/
lemma field_foldl_set {field : Meminfo → UInt64} {key : String}
    (hset : ∀ info name value,
      field (Meminfo.set info name value) = if name = bytes key then value else field info)
    (hinit : field ⟨0, 0, 0, 0⟩ = 0) (entries : List (Bytes × UInt64)) :
    field (entries.foldl (fun info entry => info.set entry.1 (entry.2 * 1024)) ⟨0, 0, 0, 0⟩) =
      lastNumber entries key * 1024 := by
  induction entries using List.reverseRecOn with
  | nil => simp [hinit, lastNumber]
  | append_singleton entries entry ih =>
    rw [List.foldl_append, List.foldl_cons, List.foldl_nil, hset, ih, lastNumber, lastNumber,
      List.reverse_append, List.reverse_singleton, List.singleton_append, List.lookup_cons]
    by_cases hname : entry.1 = bytes key
    · simp [hname]
    · simp [hname, beq_eq_false_iff_ne.mpr (Ne.symm hname)]

/-- An accepted text has its last numbers in the record. -/
lemma eq_of_parseMeminfo {raw : Bytes} {mem : Meminfo} (h : parseMeminfo raw = .ok mem) :
    0 < mem.memTotal ∧ mem =
      { memTotal := lastNumber (entriesOf raw) "MemTotal" * 1024
        memAvailable := lastNumber (entriesOf raw) "MemAvailable" * 1024
        swapTotal := lastNumber (entriesOf raw) "SwapTotal" * 1024
        swapFree := lastNumber (entriesOf raw) "SwapFree" * 1024 } := by
  have hdiff : ∀ {s t : String}, s ≠ t → bytes s ≠ bytes t := fun hne heq =>
    hne (bytes_inj.mp heq)
  unfold parseMeminfo at h
  rw [foldl_meminfoLine, ← entriesOf] at h
  dsimp only at h
  split_ifs at h with hzero
  obtain rfl := Except.ok.inj h
  refine ⟨UInt64.pos_iff_ne_zero.mpr fun htotal => hzero (.inl htotal), ?_⟩
  ext : 1
  all_goals
    refine field_foldl_set (fun info name value => ?_) rfl _
    simp only [Meminfo.set]
    split_ifs <;> simp_all

/-! ## What a result says -/

/-- The utilisation is given in percentages, and what is used of the memory is a part of it. -/
structure Percentages (metadata : StringMap Value) : Prop where
  cpu : ∃ x, metadata.get? "cpu_usage_pct" = some (.float64 x) ∧ 0 ≤ x ∧ x ≤ 100
  mem : ∃ x, metadata.get? "mem_used_pct" = some (.float64 x) ∧ 0 ≤ x ∧ x ≤ 100
  bytes : ∃ used total, metadata.get? "mem_used_bytes" = some (.uint64 used) ∧
    metadata.get? "mem_total_bytes" = some (.uint64 total) ∧ used ≤ total
  swap : ∀ value, metadata.get? "swap_used_pct" = some value →
    ∃ x, value = .float64 x ∧ 0 ≤ x ∧ x ≤ 100

section Metadata

variable {sampleMS : ℤ} {includeSwap : Bool} {timestamp : String} {first second : CPUStat}
  {mem : Meminfo}

lemma get?_cpu : (cpuMetadata sampleMS includeSwap timestamp first second mem).get?
    "cpu_usage_pct" = some (.float64 (cpuUsage first second)) := rfl

lemma get?_mem : (cpuMetadata sampleMS includeSwap timestamp first second mem).get?
    "mem_used_pct" = some (.float64 (if mem.memTotal > 0 then
      percent (mem.memTotal - mem.memAvailable).toNat mem.memTotal.toNat else 0)) := rfl

lemma get?_swap :
    (cpuMetadata sampleMS includeSwap timestamp first second mem).get? "swap_used_pct" =
      if includeSwap ∧ mem.swapTotal > 0 then
        some (.float64 (percent (mem.swapTotal - mem.swapFree).toNat mem.swapTotal.toNat))
      else none := by
  rw [StringMap.get?, cpuMetadata]
  dsimp only
  rw [swapEntries]
  split_ifs <;> rfl

/-- What is used is a part of the whole. -/
structure Parts (includeSwap : Bool) (first second : CPUStat) (mem : Meminfo) : Prop where
  cpuPart : second.total - first.total > 0 →
    second.total - first.total - (second.idle - first.idle) ≤ second.total - first.total
  memPart : mem.memTotal - mem.memAvailable ≤ mem.memTotal
  swapPart : includeSwap = true → mem.swapTotal > 0 →
    mem.swapTotal - mem.swapFree ≤ mem.swapTotal

lemma percentages_of_parts (h : Parts includeSwap first second mem) :
    Percentages (cpuMetadata sampleMS includeSwap timestamp first second mem) where
  cpu := by
    refine ⟨_, get?_cpu, ?_⟩
    unfold cpuUsage
    dsimp only
    split_ifs with hpos
    · exact percent_mem (UInt64.lt_iff_toNat_lt.mp hpos)
        (UInt64.le_iff_toNat_le.mp (h.cpuPart hpos))
    · norm_num
  mem := by
    refine ⟨_, get?_mem, ?_⟩
    split_ifs with hpos
    · exact percent_mem (UInt64.lt_iff_toNat_lt.mp hpos) (UInt64.le_iff_toNat_le.mp h.memPart)
    · norm_num
  bytes := ⟨_, _, rfl, rfl, UInt64.le_iff_toNat_le.mp h.memPart⟩
  swap := by
    intro value hvalue
    rw [get?_swap] at hvalue
    split_ifs at hvalue with hswap
    obtain rfl := Option.some.inj hvalue
    exact ⟨_, rfl, percent_mem (UInt64.lt_iff_toNat_lt.mp hswap.2)
      (UInt64.le_iff_toNat_le.mp (h.swapPart hswap.1 hswap.2))⟩

end Metadata

/-! ## When the arithmetic is that of the integers -/

variable {includeSwap : Bool} {first second : List UInt64}

/-- The two counters that make up the idle time. -/
def idleOf (values : List UInt64) : ℤ := (values.getD 3 0).toNat + (values.getD 4 0).toNat

/-- The bytes of a name, as an integer. -/
def bytesOf (entries : List (Bytes × UInt64)) (key : String) : ℤ :=
  (lastNumber entries key).toNat * 1024

/-- Every word that a run computes stands for the integer that the same operations give. -/
structure Exact (includeSwap : Bool) (first second : List UInt64)
    (entries : List (Bytes × UInt64)) (mem : Meminfo) : Prop where
  totals : ∀ values ∈ [first, second],
    Represents (CPUStat.ofValues values).total (sumOf values)
  idles : ∀ values ∈ [first, second], Represents (CPUStat.ofValues values).idle (idleOf values)
  deltaTotal : Represents ((CPUStat.ofValues second).total - (CPUStat.ofValues first).total)
    (sumOf second - sumOf first)
  deltaIdle : Represents ((CPUStat.ofValues second).idle - (CPUStat.ofValues first).idle)
    (idleOf second - idleOf first)
  busy : (CPUStat.ofValues second).total - (CPUStat.ofValues first).total > 0 →
    Represents ((CPUStat.ofValues second).total - (CPUStat.ofValues first).total -
        ((CPUStat.ofValues second).idle - (CPUStat.ofValues first).idle))
      (sumOf second - sumOf first - (idleOf second - idleOf first))
  valueBytes : ∀ entry ∈ entries, Represents (entry.2 * 1024) (entry.2.toNat * 1024)
  memUsed : Represents (mem.memTotal - mem.memAvailable)
    (bytesOf entries "MemTotal" - bytesOf entries "MemAvailable")
  swapUsed : includeSwap = true → mem.swapTotal > 0 →
    Represents (mem.swapTotal - mem.swapFree)
      (bytesOf entries "SwapTotal" - bytesOf entries "SwapFree")

/-- The numbers of the texts fit together: the sums and the products are in the range of a
word, no counter of the second sample is behind the first one, the processors were not idle
for longer than the time between the samples, and what is free is a part of the whole. -/
structure Plausible (includeSwap : Bool) (first second : List UInt64)
    (entries : List (Bytes × UInt64)) : Prop where
  totals : ∀ values ∈ [first, second], sumOf values < 2 ^ 64
  total_le : sumOf first ≤ sumOf second
  idle_le : idleOf first ≤ idleOf second
  busy : sumOf first < sumOf second →
    idleOf second - idleOf first ≤ sumOf second - sumOf first
  valueBytes : ∀ entry ∈ entries, (entry.2.toNat * 1024 : ℤ) < 2 ^ 64
  available_le : bytesOf entries "MemAvailable" ≤ bytesOf entries "MemTotal"
  free_le : includeSwap = true → 0 < bytesOf entries "SwapTotal" →
    bytesOf entries "SwapFree" ≤ bytesOf entries "SwapTotal"

lemma represents_lastNumber {entries : List (Bytes × UInt64)}
    (h : ∀ entry ∈ entries, Represents (entry.2 * 1024) (entry.2.toNat * 1024)) (key : String) :
    Represents (lastNumber entries key * 1024) (bytesOf entries key) := by
  rw [bytesOf, lastNumber]
  cases hlookup : entries.reverse.lookup (bytes key) with
  | none => rfl
  | some value =>
    obtain ⟨before, after, heq, -⟩ := List.lookup_eq_some_iff.mp hlookup
    exact h (bytes key, value) (List.mem_reverse.mp (heq ▸ by simp))

lemma idleOf_le_sumOf : ∀ values : List UInt64, idleOf values ≤ sumOf values
  | [] | [_] => by simp [idleOf]
  | [_, _] | [_, _, _] | [_, _, _, _] => by
    simp only [idleOf, sumOf_cons, sumOf_nil, List.getD_cons_succ, List.getD_cons_zero,
      List.getD_nil, UInt64.toNat_zero]
    omega
  | _ :: _ :: _ :: _ :: _ :: values => by
    have hpos := sumOf_nonneg values
    simp only [idleOf, sumOf_cons, List.getD_cons_succ, List.getD_cons_zero]
    omega

lemma represents_idle {values : List UInt64} (h : sumOf values < 2 ^ 64) :
    Represents (CPUStat.ofValues values).idle (idleOf values) := by
  rw [CPUStat.ofValues]
  dsimp only
  split_ifs with hlength
  · exact (represents_add (represents_toNat _) (represents_toNat _)).mpr
      ((idleOf_le_sumOf values).trans_lt h)
  · have hnone : values.getD 4 0 = 0 := by
      rw [List.getD_eq_getElem?_getD, List.getElem?_eq_none (by omega), Option.getD_none]
    rw [idleOf, hnone, UInt64.toNat_zero, Nat.cast_zero, add_zero]
    exact represents_toNat _

/-- The arithmetic is that of the integers exactly when the numbers fit together. -/
lemma exact_iff {raw : Bytes} {mem : Meminfo} (hmem : parseMeminfo raw = .ok mem) :
    Exact includeSwap first second (entriesOf raw) mem ↔
      Plausible includeSwap first second (entriesOf raw) := by
  obtain ⟨-, rfl⟩ := eq_of_parseMeminfo hmem
  constructor
  · intro h
    have hfirst := h.totals first (by simp)
    have hsecond := h.totals second (by simp)
    have hbytes := represents_lastNumber h.valueBytes
    have hdelta := represents_sub h.deltaTotal h.deltaIdle
    exact
      { totals := fun values hvalues => represents_foldl_add.mp (h.totals values hvalues)
        total_le := (represents_sub hsecond hfirst).mp h.deltaTotal
        idle_le := (represents_sub (h.idles second (by simp)) (h.idles first (by simp))).mp
          h.deltaIdle
        busy := fun hlt => hdelta.mp (h.busy (h.deltaTotal.pos_iff.mpr (by omega)))
        valueBytes := fun entry hentry => (h.valueBytes entry hentry).lt
        available_le := (represents_sub (hbytes _) (hbytes _)).mp h.memUsed
        free_le := fun hswap hpos => (represents_sub (hbytes _) (hbytes _)).mp
          (h.swapUsed hswap ((hbytes _).pos_iff.mpr hpos)) }
  · intro h
    have htotals : ∀ values ∈ [first, second],
        Represents (CPUStat.ofValues values).total (sumOf values) := fun values hvalues =>
      represents_foldl_add.mpr (h.totals values hvalues)
    have hidles : ∀ values ∈ [first, second],
        Represents (CPUStat.ofValues values).idle (idleOf values) := fun values hvalues =>
      represents_idle (h.totals values hvalues)
    have htotal := (represents_sub (htotals second (by simp)) (htotals first (by simp))).mpr
      h.total_le
    have hidle := (represents_sub (hidles second (by simp)) (hidles first (by simp))).mpr
      h.idle_le
    have hvalue : ∀ entry ∈ entriesOf raw,
        Represents (entry.2 * 1024) (entry.2.toNat * 1024) := fun entry hentry =>
      (represents_mul (represents_toNat _) rfl).mpr (h.valueBytes entry hentry)
    have hbytes := represents_lastNumber hvalue
    exact
      { totals := htotals
        idles := hidles
        deltaTotal := htotal
        deltaIdle := hidle
        busy := fun hpos => by
          have hlt := htotal.pos_iff.mp hpos
          exact (represents_sub htotal hidle).mpr (h.busy (by omega))
        valueBytes := hvalue
        memUsed := (represents_sub (hbytes _) (hbytes _)).mpr h.available_le
        swapUsed := fun hswap hpos => (represents_sub (hbytes _) (hbytes _)).mpr
          (h.free_le hswap ((hbytes _).pos_iff.mp hpos)) }

/-- What the arithmetic of the integers gives is a part of the whole. -/
lemma parts_of_exact {raw : Bytes} {mem : Meminfo} (hmem : parseMeminfo raw = .ok mem)
    (h : Exact includeSwap first second (entriesOf raw) mem) :
    Parts includeSwap (.ofValues first) (.ofValues second) mem := by
  have hbytes := represents_lastNumber h.valueBytes
  obtain ⟨-, rfl⟩ := eq_of_parseMeminfo hmem
  have hpart : ∀ {key key' : String},
      bytesOf (entriesOf raw) key - bytesOf (entriesOf raw) key' ≤
        bytesOf (entriesOf raw) key := fun {key key'} => by
    have hpos := (hbytes key').nonneg
    omega
  exact
    { cpuPart := fun hpos => ((h.busy hpos).le_iff h.deltaTotal).mpr <| by
        have hidle := h.deltaIdle.nonneg
        omega
      memPart := (h.memUsed.le_iff (hbytes _)).mpr hpart
      swapPart := fun hswap hpos =>
        ((h.swapUsed hswap hpos).le_iff (hbytes _)).mpr hpart }

lemma runCPUMemory_eq {rawFirst rawSecond rawMem : Bytes} {mem : Meminfo}
    (hfirst : cpuValues rawFirst = .ok first) (hsecond : cpuValues rawSecond = .ok second)
    (hmem : parseMeminfo rawMem = .ok mem) (sampleMS : ℤ) (includeSwap : Bool)
    (times : RunTimes) : ∃ r,
    runCPUMemory sampleMS includeSwap times (.ok rawFirst) (.ok rawSecond) (.ok rawMem) = .ok r ∧
      r.metadata = cpuMetadata sampleMS includeSwap times.timestamp (.ofValues first)
        (.ofValues second) mem := by
  unfold runCPUMemory readCPUStat readMeminfo parseCPUStat
  dsimp only
  rw [hfirst, hsecond, hmem]
  exact ⟨_, rfl, rfl⟩

/-- **When the figures are percentages.**  For texts that are accepted, a run gives
percentages and parts of a whole, with every word standing for the integer it is meant to be,
exactly when the numbers of the texts fit together. -/
theorem percentages_iff {rawFirst rawSecond rawMem : Bytes} {mem : Meminfo}
    (hfirst : cpuValues rawFirst = .ok first) (hsecond : cpuValues rawSecond = .ok second)
    (hmem : parseMeminfo rawMem = .ok mem) (sampleMS : ℤ) (includeSwap : Bool)
    (times : RunTimes) :
    (∃ r, runCPUMemory sampleMS includeSwap times (.ok rawFirst) (.ok rawSecond) (.ok rawMem) =
          .ok r ∧
        Percentages r.metadata ∧ Exact includeSwap first second (entriesOf rawMem) mem) ↔
      Plausible includeSwap first second (entriesOf rawMem) := by
  rw [← exact_iff hmem]
  constructor
  · rintro ⟨r, -, -, hexact⟩
    exact hexact
  · intro hexact
    obtain ⟨r, hrun, hmetadata⟩ :=
      runCPUMemory_eq hfirst hsecond hmem sampleMS includeSwap times
    exact ⟨r, hrun, hmetadata ▸ percentages_of_parts (parts_of_exact hmem hexact), hexact⟩

/-- The memory of a machine with a gigabyte. -/
def meminfoText : Bytes := bytes "MemTotal:       1048576 kB\nMemAvailable:    524288 kB\n"

/-- Two samples between which the processors were used for half of the time. -/
theorem percentages_half_used :
    ∃ r, runCPUMemory 200 true ⟨0, 0, 0, "2024-01-01T00:00:00Z"⟩
        (.ok (bytes "cpu  100 0 100 1000 50\n")) (.ok (bytes "cpu  105 0 100 1005 50\n"))
        (.ok meminfoText) = .ok r ∧
      Percentages r.metadata ∧
      Exact true [100, 0, 100, 1000, 50] [105, 0, 100, 1005, 50] (entriesOf meminfoText)
        ⟨1048576 * 1024, 524288 * 1024, 0, 0⟩ :=
  (percentages_iff (by decide +kernel) (by decide +kernel) (by decide +kernel) 200 true _).mpr
    { totals := by decide +kernel
      total_le := by decide +kernel
      idle_le := by decide +kernel
      busy := by decide +kernel
      valueBytes := by decide +kernel
      available_le := by decide +kernel
      free_le := by decide +kernel }

/-- Half as much again as the whole. -/
lemma percent_fifteen_ten : percent 15 10 = 150 := by
  have hquot : ((15 : ℕ) : ℚ) / (10 : ℕ) = (3 : ℤ) * 2 ^ (-1 : ℤ) := by norm_num
  have hproduct : ((3 : ℤ) : ℚ) * 2 ^ (-1 : ℤ) * 100 = (150 : ℕ) := by norm_num
  rw [percent, float64_natCast (by omega), float64_natCast (by omega), hquot,
    float64_eq_self (by decide) (by omega), hproduct, float64_natCast (by omega), Nat.cast_ofNat]

/-- Between two samples the counter of the time spent waiting goes back, so that the
processors seem to be used for longer than the time that went by. -/
theorem not_percentages :
    ¬ ∀ (rawFirst rawSecond rawMem : Bytes) (first second : List UInt64) (mem : Meminfo),
      cpuValues rawFirst = .ok first → cpuValues rawSecond = .ok second →
      parseMeminfo rawMem = .ok mem →
      ∀ (sampleMS : ℤ) (includeSwap : Bool) (times : RunTimes), ∃ r,
        runCPUMemory sampleMS includeSwap times (.ok rawFirst) (.ok rawSecond) (.ok rawMem) =
            .ok r ∧
          Percentages r.metadata ∧ Exact includeSwap first second (entriesOf rawMem) mem := by
  intro h
  have hfirst : cpuValues (bytes "cpu  100 0 100 1000 50\n") = .ok [100, 0, 100, 1000, 50] := by
    decide +kernel
  have hsecond : cpuValues (bytes "cpu  110 0 105 1005 40\n") = .ok [110, 0, 105, 1005, 40] := by
    decide +kernel
  have hmem : parseMeminfo meminfoText = .ok ⟨1048576 * 1024, 524288 * 1024, 0, 0⟩ := by
    decide +kernel
  obtain ⟨r, hrun, hpercentages, -⟩ := h _ _ _ _ _ _ hfirst hsecond hmem 200 true ⟨0, 0, 0, ""⟩
  obtain ⟨r', hrun', hmetadata⟩ := runCPUMemory_eq hfirst hsecond hmem 200 true ⟨0, 0, 0, ""⟩
  obtain rfl := Except.ok.inj (hrun.symm.trans hrun')
  obtain ⟨x, hx, -, hle⟩ := hpercentages.cpu
  rw [hmetadata, get?_cpu] at hx
  have husage : cpuUsage (.ofValues [100, 0, 100, 1000, 50])
      (.ofValues [110, 0, 105, 1005, 40]) = 150 := by
    rw [← percent_fifteen_ten]
    rfl
  rw [husage] at hx
  obtain rfl := Value.float64.inj (Option.some.inj hx)
  norm_num at hle

end Arcsent.Plugins
