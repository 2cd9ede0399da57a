/-
# Stored results

`internal/storage/results.go`: scan results are kept in a bucket of their own, one entry
for each saved result, and listed by decoding the whole bucket.  The same listing is used
by the baseline manager, so it is written once here, for any kind of record.
-/
import Arcsent.Storage.ForEach
import Arcsent.Scanner.Types
import Arcsent.Go.Float64

namespace Arcsent.Scanner

open Arcsent.Go

/-! ## What a result reads back as -/

/-- What becomes of a value of dynamic type that is written as JSON and read back into an
`interface{}`: every number comes back as a `float64`, and a map as a map of values.  The kinds
of values that no plugin reports go to `rest`. -/
def readBack (rest : Value → Value) : Value → Value
  | .float64 x => .float64 (float64 x)
  | .int n => .float64 (float64 n)
  | .int64 n => .float64 (float64 n)
  | .uint64 n => .float64 (float64 n)
  | .uint n => .float64 (float64 n)
  | .bool b => .bool b
  | .string s => .string s
  | .stringMap _ => .other
  | v => rest v

def Finding.readBack (rest : Value → Value) (f : Finding) : Finding :=
  { f with evidence := f.evidence.map fun e => (e.1, Scanner.readBack rest e.2) }

def Result.readBack (rest : Value → Value) (r : Result) : Result :=
  { r with
    findings := r.findings.map (Finding.readBack rest)
    metadata :=
      ⟨r.metadata.entries.map fun e => (e.1, Scanner.readBack rest e.2), by
        rw [List.map_map]
        exact r.metadata.nodup⟩ }

/-- How results are written to the store and read back. -/
structure ResultCodec (V : Type) where
  /-- The encoder, `json.Marshal`. -/
  marshal : Result → V
  /-- The decoder, `json.Unmarshal`. -/
  unmarshal : V → Except String Result
  /-- What the values come back as that no plugin reports. -/
  rest : Value → Value
  /-- What was written can be read back, up to the types of its values. -/
  unmarshal_marshal : ∀ r, unmarshal (marshal r) = .ok (r.readBack rest)

end Arcsent.Scanner

namespace Arcsent.Storage

open Arcsent.Go Arcsent.Lib Arcsent.Scanner

variable {V α : Type}

/-- The callback of a listing: decode the value and append the record. -/
def decodeInto (what : String) (unmarshal : V → Except String α) (records : List α)
    (_ : Bytes) (value : V) : List α × Option Error :=
  match unmarshal value with
  | .error err => (records, some (.text ("decode " ++ what ++ ": " ++ err)))
  | .ok record => (records ++ [record], none)

/-- Listing a bucket of records. -/
def listRecords (bucket : Bytes) (what : String) (unmarshal : V → Except String α)
    (b : BadgerStore V) : Except Error (List α) :=
  match b.forEach bucket (decodeInto what unmarshal) [] with
  | (_, some .notFound) => .ok []
  | (_, some err) => .error err
  | (records, none) => .ok records

def resultsBucket : Bytes := bytes "results"

namespace ResultsStore

/-- `Save`: the key is made of the time, the scanner's name and a random suffix. -/
def save (codec : ResultCodec V) (b : BadgerStore V) (now : Time) (suffix : String)
    (result : Result) : Except Error (BadgerStore V) :=
  let key := toString (unixNano now) ++ "-" ++ result.scannerName ++ "-" ++ suffix
  b.put resultsBucket (bytes key) (codec.marshal result)

def list (codec : ResultCodec V) (b : BadgerStore V) : Except Error (List Result) :=
  listRecords resultsBucket "result" codec.unmarshal b

end ResultsStore

/-! ## When a listing is complete -/

/-- A listing returns the record of every live entry of its bucket, in key order, and
nothing else. -/
def ListsAll (listed : Except Error (List α)) (unmarshal : V → Except String α)
    (m : Buckets V) (bucket : Bytes) : Prop :=
  ∃ calls : List (Bytes × V), ∃ records : List α,
    calls.Pairwise (fun x y => compare x.1 y.1 = .lt) ∧
    (∀ key v, (key, v) ∈ calls ↔ m bucket key = some v) ∧
    List.Forall₂ (fun c r => unmarshal c.2 = .ok r) calls records ∧
    listed = .ok records

lemma visit_decodeInto {what : String} {unmarshal : V → Except String α}
    {items : List (Bytes × V)} {records : List α}
    (h : List.Forall₂ (fun c r => unmarshal c.2 = .ok r) items records) (acc : List α) :
    visit (decodeInto what unmarshal) items acc = (acc ++ records, none) := by
  induction h generalizing acc with
  | nil => simp [visit]
  | @cons c r items records hc _ ih =>
    obtain ⟨k, v⟩ := c
    have hstep : decodeInto what unmarshal acc k v = (acc ++ [r], none) := by
      have hv : unmarshal v = .ok r := hc
      rw [decodeInto, hv]
    rw [visit, hstep]
    simpa using ih (acc ++ [r])

lemma exists_decoded {unmarshal : V → Except String α} {items : List (Bytes × V)}
    (h : ∀ c ∈ items, ∃ r, unmarshal c.2 = .ok r) :
    ∃ records, List.Forall₂ (fun c r => unmarshal c.2 = .ok r) items records := by
  induction items with
  | nil => exact ⟨[], .nil⟩
  | cons c items ih =>
    obtain ⟨r, hr⟩ := h c List.mem_cons_self
    obtain ⟨records, hrec⟩ := ih fun d hd => h d (List.mem_cons_of_mem _ hd)
    exact ⟨r :: records, .cons hr hrec⟩

/-- A listing is the list of the scanned records. -/
lemma listRecords_eq {b : BadgerStore V} {bucket : Bytes} (hb : bucket ≠ []) (what : String)
    {unmarshal : V → Except String α} {records : List α}
    (h : List.Forall₂ (fun c r => unmarshal c.2 = .ok r) (b.scanned bucket) records) :
    listRecords bucket what unmarshal b = .ok records := by
  rw [listRecords, b.forEach_eq_visit hb, visit_decodeInto h]
  simp

/-- **A listing of decodable records is complete exactly when its bucket comes first.** -/
theorem Holds.listsAll_iff {b : BadgerStore V} {m : Buckets V} (h : Holds b m)
    {bucket : Bytes} (hs : slash ∉ bucket) (hb : bucket ≠ []) (what : String)
    {unmarshal : V → Except String α}
    (hdec : ∀ key v, m bucket key = some v → ∃ r, unmarshal v = .ok r) :
    ListsAll (listRecords bucket what unmarshal b) unmarshal m bucket ↔
      ScannedFirst m bucket := by
  rw [← h.scanned_eq_entries_iff hs]
  have hentries : ∀ c ∈ b.entries bucket, ∃ r, unmarshal c.2 = .ok r := by
    rintro ⟨key, v⟩ hc
    exact hdec key v ((h.mem_entries hs key v).mp hc)
  have hsub := b.scanned_sublist_entries bucket
  obtain ⟨scanned, hscanned⟩ := exists_decoded fun c hc => hentries c (hsub.subset hc)
  have hlisted := listRecords_eq hb what hscanned
  constructor
  · rintro ⟨calls, records, hsorted, hmem, hrec, hlist⟩
    obtain rfl : records = scanned := by
      rw [hlisted] at hlist
      exact (Except.ok.inj hlist).symm
    have hcalls : calls = b.entries bucket := by
      refine eq_of_sorted hsorted (h.entries_sorted hs) ?_
      rintro ⟨key, v⟩
      rw [hmem, h.mem_entries hs]
    refine hsub.eq_of_length ?_
    rw [← hcalls, hscanned.length_eq, hrec.length_eq]
  · intro heq
    rw [heq] at hscanned
    exact ⟨b.entries bucket, scanned, h.entries_sorted hs, h.mem_entries hs, hscanned, hlisted⟩

end Arcsent.Storage
