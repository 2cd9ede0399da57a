/-
# What a scan of a bucket sees

`ForEach` starts at the smallest key of the database and stops at the first key that is
not in its bucket.  It therefore sees the whole of a bucket exactly when no live key of
another bucket sorts before it, and otherwise it sees nothing of it at all.
-/
import Arcsent.Storage.Badger
import Mathlib.Data.List.Perm.Basic
import Mathlib.Data.List.Pairwise

namespace Arcsent.Storage

open Arcsent.Go Arcsent.Lib

variable {V σ : Type}

/-- Calls of a callback on a list of items, up to its first error. -/
def visit (fn : σ → Bytes → V → σ × Option Error) : List (Bytes × V) → σ → σ × Option Error
  | [], s => (s, none)
  | (k, val) :: items, s =>
    match fn s k val with
    | (s', some err) => (s', some err)
    | (s', none) => visit fn items s'

/-- Whether an item of the database is in a bucket. -/
def inBucket (bucket : Bytes) (item : Bytes × V) : Bool :=
  (groupPrefix slash bucket).isPrefixOf item.1

/-- An item as the callback gets it, its key without the prefix. -/
def strip (bucket : Bytes) (item : Bytes × V) : Bytes × V :=
  (item.1.drop (groupPrefix slash bucket).length, item.2)

namespace BadgerStore

/-- The items that `ForEach` hands to its callback. -/
def scanned (b : BadgerStore V) (bucket : Bytes) : List (Bytes × V) :=
  if bucket = [] then [] else (b.db.toList.takeWhile (inBucket bucket)).map (strip bucket)

/-- The items of a bucket, wherever they are in the database. -/
def entries (b : BadgerStore V) (bucket : Bytes) : List (Bytes × V) :=
  (b.db.toList.filter (inBucket bucket)).map (strip bucket)

/-- A scan may miss entries of its bucket, and hands out nothing else. -/
lemma scanned_sublist_entries (b : BadgerStore V) (bucket : Bytes) :
    (b.scanned bucket).Sublist (b.entries bucket) := by
  by_cases hb : bucket = []
  · rw [scanned, if_pos hb]
    exact List.nil_sublist _
  · rw [scanned, if_neg hb]
    exact (takeWhile_sublist_filter _).map _

lemma scan_eq_visit (bucket : Bytes) (fn : σ → Bytes → V → σ × Option Error)
    (items : List (Bytes × V)) (s : σ) :
    scan (groupPrefix slash bucket) fn items s
      = visit fn ((items.takeWhile (inBucket bucket)).map (strip bucket)) s := by
  induction items generalizing s with
  | nil => rfl
  | cons item items ih =>
    obtain ⟨k, val⟩ := item
    by_cases hk : (groupPrefix slash bucket).isPrefixOf k = true
    · rw [scan, if_pos hk, List.takeWhile_cons_of_pos (by exact hk), List.map_cons, strip, visit]
      cases hfn : fn s (k.drop (groupPrefix slash bucket).length) val with
      | mk s' err =>
        cases err with
        | none => exact ih s'
        | some err => rfl
    · rw [scan, if_neg hk, List.takeWhile_cons_of_neg (by exact hk)]
      rfl

/-- `ForEach` calls its callback on the scanned items. -/
theorem forEach_eq_visit (b : BadgerStore V) {bucket : Bytes} (hb : bucket ≠ [])
    (fn : σ → Bytes → V → σ × Option Error) (s : σ) :
    b.forEach bucket fn s = visit fn (b.scanned bucket) s := by
  rw [forEach, if_neg hb, scanned, if_neg hb, scan_eq_visit]

end BadgerStore

lemma visit_of_no_error (fn : σ → Bytes → V → σ) (items : List (Bytes × V)) (s : σ) :
    visit (fun s k v => (fn s k v, none)) items s
      = (items.foldl (fun s item => fn s item.1 item.2) s, none) := by
  induction items generalizing s with
  | nil => rfl
  | cons item items ih => exact ih (fn s item.1 item.2)

lemma BadgerStore.forEach_of_no_error (b : BadgerStore V) (bucket : Bytes)
    (fn : σ → Bytes → V → σ) (s : σ) :
    (b.forEach bucket (fun s k v => (fn s k v, none)) s).1
      = (b.scanned bucket).foldl (fun s item => fn s item.1 item.2) s := by
  by_cases hb : bucket = []
  · rw [forEach, if_pos hb, scanned, if_pos hb]
    rfl
  · rw [b.forEach_eq_visit hb, visit_of_no_error]

/-! ## The entries of a bucket -/

section Entries

variable {b : BadgerStore V} {m : Buckets V} {bucket : Bytes}

lemma inBucket_makeKey {bucket' key : Bytes} (hs : slash ∉ bucket) (hs' : slash ∉ bucket')
    (v : V) : inBucket bucket (makeKey bucket' key, v) = true ↔ bucket' = bucket := by
  rw [inBucket, List.isPrefixOf_iff_prefix]
  exact groupPrefix_isPrefix_iff hs hs'

lemma strip_makeKey (key : Bytes) (v : V) : strip bucket (makeKey bucket key, v) = (key, v) := by
  simp [strip, makeKey, flatKey_eq_append]

/-- An item of the database is an entry of the map, found in the bucket it is of. -/
lemma Holds.item (h : Holds b m) {x : Bytes} {v : V} (hx : (x, v) ∈ b.db.toList) :
    ∃ bucket' key, slash ∉ bucket' ∧ bucket' ≠ [] ∧ x = makeKey bucket' key ∧
      m bucket' key = some v := by
  rw [Std.ExtTreeMap.mem_toList_iff_getElem?_eq_some] at hx
  obtain ⟨bucket', key, hs', hne, -, rfl⟩ := h.joined x v hx
  exact ⟨bucket', key, hs', hne, rfl, by rw [← h.lookup bucket' key hs', hx]⟩

lemma Holds.mem_toList (h : Holds b m) (hs : slash ∉ bucket) {key : Bytes} {v : V} :
    (makeKey bucket key, v) ∈ b.db.toList ↔ m bucket key = some v := by
  rw [Std.ExtTreeMap.mem_toList_iff_getElem?_eq_some, h.lookup bucket key hs]

/-- A bucket with a live entry has a name. -/
lemma Holds.ne_nil (h : Holds b m) (hs : slash ∉ bucket) {key : Bytes} {v : V}
    (hm : m bucket key = some v) : bucket ≠ [] := by
  obtain ⟨bucket', key', hs', hne, heq, -⟩ := h.item ((h.mem_toList hs).mpr hm)
  rw [((makeKey_inj hs hs').mp heq).1]
  exact hne

/-- The entries are those of the two-level map. -/
lemma Holds.mem_entries (h : Holds b m) (hs : slash ∉ bucket) (key : Bytes) (v : V) :
    (key, v) ∈ b.entries bucket ↔ m bucket key = some v := by
  rw [BadgerStore.entries, List.mem_map]
  constructor
  · rintro ⟨⟨x, w⟩, hx, hstrip⟩
    obtain ⟨hmem, hin⟩ := List.mem_filter.mp hx
    obtain ⟨bucket', key', hs', -, rfl, hm⟩ := h.item hmem
    obtain rfl := (inBucket_makeKey hs hs' w).mp hin
    rw [strip_makeKey] at hstrip
    obtain ⟨rfl, rfl⟩ := Prod.mk.inj hstrip
    exact hm
  · intro hm
    refine ⟨(makeKey bucket key, v), ?_, strip_makeKey key v⟩
    exact List.mem_filter.mpr ⟨(h.mem_toList hs).mpr hm, (inBucket_makeKey hs hs v).mpr rfl⟩

/-- The entries are in the order of their keys. -/
lemma Holds.entries_sorted (h : Holds b m) (hs : slash ∉ bucket) :
    (b.entries bucket).Pairwise fun x y => compare x.1 y.1 = .lt := by
  rw [BadgerStore.entries, List.pairwise_map]
  refine List.Pairwise.imp_of_mem ?_ (b.db.ordered_keys_toList.filter _)
  rintro ⟨x, v⟩ ⟨y, w⟩ hx hy hlt
  obtain ⟨hmemx, hinx⟩ := List.mem_filter.mp hx
  obtain ⟨hmemy, hiny⟩ := List.mem_filter.mp hy
  obtain ⟨bx, kx, hsx, -, rfl, -⟩ := h.item hmemx
  obtain ⟨by', ky, hsy, -, rfl, -⟩ := h.item hmemy
  obtain rfl := (inBucket_makeKey hs hsx v).mp hinx
  obtain rfl := (inBucket_makeKey hsx hsy w).mp hiny
  rw [strip_makeKey, strip_makeKey]
  simpa [makeKey, compare_flatKey_self] using hlt

end Entries

/-! ## When a scan is complete -/

/-- No live key of another bucket sorts before a live key of the bucket. -/
def ScannedFirst (m : Buckets V) (bucket : Bytes) : Prop :=
  (∃ k, m bucket k ≠ none) → ∀ b k, m b k ≠ none → b ≠ bucket →
    compare (groupPrefix slash bucket) (groupPrefix slash b) = .lt

/-- The order of the database puts every item of another bucket after every item of this
one, or before, as the prefixes are ordered. -/
lemma compare_makeKey_of_ne {bucket bucket' : Bytes} (hs : slash ∉ bucket) (hs' : slash ∉ bucket')
    (hne : bucket ≠ bucket') (key key' : Bytes) :
    compare (makeKey bucket key) (makeKey bucket' key')
      = compare (groupPrefix slash bucket) (groupPrefix slash bucket') :=
  compare_flatKey_of_ne hs hs' hne

/-- In the sorted list of all items nothing foreign stands before an item of the bucket
exactly when the bucket comes first. -/
lemma Holds.pairwise_iff_scannedFirst {b : BadgerStore V} {m : Buckets V} (h : Holds b m)
    {bucket : Bytes} (hs : slash ∉ bucket) :
    (b.db.toList.Pairwise fun x y => inBucket bucket y = true → inBucket bucket x = true) ↔
      ScannedFirst m bucket := by
  constructor
  · rintro hfirst ⟨k, hk⟩ b' k' hk' hne
    obtain ⟨v, hv⟩ := Option.ne_none_iff_exists'.mp hk
    obtain ⟨v', hv'⟩ := Option.ne_none_iff_exists'.mp hk'
    have hmem := (h.mem_toList hs).mpr hv
    have hs' := h.named b' k' v' hv'
    have hmem' := (h.mem_toList hs').mpr hv'
    rw [← compare_makeKey_of_ne hs hs' (Ne.symm hne) k k']
    cases hc : compare (makeKey bucket k) (makeKey b' k') with
    | lt => rfl
    | eq =>
      have heq := Std.LawfulEqOrd.eq_of_compare hc
      exact absurd ((makeKey_inj hs hs').mp heq).1 (Ne.symm hne)
    | gt =>
      have hlt := Std.OrientedCmp.lt_of_gt hc
      have hin := rel_of_compare_lt b.db.ordered_keys_toList hfirst hmem' hmem hlt
        ((inBucket_makeKey hs hs v).mpr rfl)
      exact absurd ((inBucket_makeKey hs hs' v').mp hin) hne
  · intro hfirst
    refine List.Pairwise.imp_of_mem ?_ b.db.ordered_keys_toList
    rintro ⟨x, v⟩ ⟨y, w⟩ hx hy hlt hin
    obtain ⟨bx, kx, hsx, -, rfl, hmx⟩ := h.item hx
    obtain ⟨by', ky, hsy, -, rfl, hmy⟩ := h.item hy
    obtain rfl := (inBucket_makeKey hs hsy w).mp hin
    by_contra hout
    have hne : bx ≠ by' := fun he => hout ((inBucket_makeKey hs hsx v).mpr he)
    have hprefix := hfirst ⟨ky, by simp [hmy]⟩ bx kx (by simp [hmx]) hne
    rw [← compare_makeKey_of_ne hsy hsx (Ne.symm hne) ky kx] at hprefix
    exact compare_asymm hprefix hlt

/-- A scan sees a whole bucket exactly when the bucket comes first. -/
theorem Holds.scanned_eq_entries_iff {b : BadgerStore V} {m : Buckets V} (h : Holds b m)
    {bucket : Bytes} (hs : slash ∉ bucket) :
    b.scanned bucket = b.entries bucket ↔ ScannedFirst m bucket := by
  by_cases hb : bucket = []
  · -- nothing is live in the bucket without a name
    have hnone : ∀ k, m bucket k = none := fun k =>
      Option.eq_none_iff_forall_ne_some.mpr fun v hm => h.ne_nil hs hm hb
    have hempty : b.entries bucket = [] := by
      refine List.eq_nil_iff_forall_not_mem.mpr ?_
      rintro ⟨k, v⟩ hk
      rw [h.mem_entries hs, hnone] at hk
      exact absurd hk (by simp)
    rw [BadgerStore.scanned, if_pos hb, hempty]
    exact ⟨fun _ ⟨k, hk⟩ => absurd (hnone k) hk, fun _ => rfl⟩
  · rw [← h.pairwise_iff_scannedFirst hs, ← takeWhile_eq_filter_iff, BadgerStore.scanned,
      if_neg hb, BadgerStore.entries]
    refine ⟨fun heq => ?_, fun heq => by rw [heq]⟩
    have hlen := congrArg List.length heq
    rw [List.length_map, List.length_map] at hlen
    exact (takeWhile_sublist_filter _).eq_of_length hlen

/-! ## Enumerating a bucket -/

/-- `ForEach` on a bucket calls a function that never errors exactly once for each live
entry of the bucket, in key order, and for nothing else. -/
def Enumerates (b : BadgerStore V) (m : Buckets V) (bucket : Bytes) : Prop :=
  ∃ calls : List (Bytes × V),
    calls.Pairwise (fun x y => compare x.1 y.1 = .lt) ∧
    (∀ key v, (key, v) ∈ calls ↔ m bucket key = some v) ∧
    ∀ {σ : Type} (fn : σ → Bytes → V → σ) (s : σ),
      (b.forEach bucket (fun s k v => (fn s k v, none)) s).1
        = calls.foldl (fun s c => fn s c.1 c.2) s

lemma Holds.enumerates_iff {b : BadgerStore V} {m : Buckets V} (h : Holds b m)
    {bucket : Bytes} (hs : slash ∉ bucket) : Enumerates b m bucket ↔ ScannedFirst m bucket := by
  rw [← h.scanned_eq_entries_iff hs]
  constructor
  · rintro ⟨calls, hsorted, hmem, hcalls⟩
    -- a callback that collects what it is given shows the calls themselves
    have hcollect := hcalls (fun s k v => (k, v) :: s) []
    rw [b.forEach_of_no_error, List.foldl_flip_cons_eq_append',
      List.foldl_flip_cons_eq_append'] at hcollect
    have hscanned : b.scanned bucket = calls := by simpa using hcollect
    rw [hscanned]
    refine eq_of_sorted hsorted (h.entries_sorted hs) ?_
    rintro ⟨key, v⟩
    rw [hmem, h.mem_entries hs]
  · intro heq
    refine ⟨b.entries bucket, h.entries_sorted hs, h.mem_entries hs, fun fn s => ?_⟩
    rw [b.forEach_of_no_error, heq]

end Arcsent.Storage
