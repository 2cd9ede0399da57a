/-
# Pruning a bucket

`PruneOlderThan` deletes from within `ForEach`: the iterator reads the database as it was
when it was made, and the deletions go to the store itself.  The method of the results
store and that of the baseline manager differ in the record and its time only, so they are
written once here.
-/
import Arcsent.Storage.Results

namespace Arcsent.Storage

open Arcsent.Go Arcsent.Lib Arcsent.Scanner

variable {V α : Type}

/-- The callback of a pruning: a record whose time is set and before the cutoff is deleted. -/
def pruneInto (bucket : Bytes) (unmarshal : V → Except String α) (stamp : α → Time)
    (cutoff : Time) (store : BadgerStore V) (key : Bytes) (value : V) :
    BadgerStore V × Option Error :=
  match unmarshal value with
  | .error _ => (store, none)
  | .ok record =>
    if !isZero (stamp record) && stamp record < cutoff then
      match store.delete bucket key with
      | .error err => (store, some err)
      | .ok store => (store, none)
    else (store, none)

/-- Pruning a bucket of records. -/
def pruneRecords (bucket : Bytes) (unmarshal : V → Except String α) (stamp : α → Time)
    (cutoff : Time) (b : BadgerStore V) : BadgerStore V × Option Error :=
  b.forEach bucket (pruneInto bucket unmarshal stamp cutoff) b

/-- The method `PruneOlderThan` of the results store. -/
def ResultsStore.pruneOlderThan (codec : ResultCodec V) (cutoff : Time) (b : BadgerStore V) :
    BadgerStore V × Option Error :=
  pruneRecords resultsBucket codec.unmarshal Result.finishedAt cutoff b

/-! ## What a pruning leaves -/

/-- A value that a pruning is to keep: it does not decode, or its time is not set or not
before the cutoff. -/
def Fresh (unmarshal : V → Except String α) (stamp : α → Time) (cutoff : Time) (v : V) : Prop :=
  ∀ record, unmarshal v = .ok record → isZero (stamp record) = true ∨ cutoff ≤ stamp record

/-- Of one bucket the entries that meet a condition are left, of the others all. -/
def Pruned (bucket : Bytes) (keep : V → Prop) (m m' : Buckets V) : Prop :=
  ∀ b k v, m' b k = some v ↔ m b k = some v ∧ (b = bucket → keep v)

variable {bucket : Bytes} {unmarshal : V → Except String α} {stamp : α → Time} {cutoff : Time}

lemma pruneInto_of_fresh {v : V} (h : Fresh unmarshal stamp cutoff v) (store : BadgerStore V)
    (key : Bytes) :
    pruneInto bucket unmarshal stamp cutoff store key v = (store, none) := by
  rw [pruneInto]
  split
  · rfl
  · next record hrecord =>
    have hkeep : ¬ (!isZero (stamp record) && decide (stamp record < cutoff)) = true := by
      rcases h record hrecord with hzero | hlate
      · simp [hzero]
      · simp [not_lt.mpr hlate]
    rw [if_neg hkeep]

lemma pruneInto_of_stale {v : V} (h : ¬ Fresh unmarshal stamp cutoff v) (store : BadgerStore V)
    {key : Bytes} (hnames : ¬ (bucket = [] ∨ key = [])) :
    pruneInto bucket unmarshal stamp cutoff store key v =
      (store.perform (.delete bucket key), none) := by
  rw [Fresh] at h
  push Not at h
  obtain ⟨record, hrecord, hzero, hearly⟩ := h
  have hdelete : (!isZero (stamp record) && decide (stamp record < cutoff)) = true := by
    simp [hzero, hearly]
  rw [pruneInto, hrecord]
  dsimp only
  rw [if_pos hdelete, BadgerStore.perform, BadgerStore.delete, if_neg hnames]
  rfl

/-- A deletion takes one entry away. -/
lemma Buckets.perform_delete_eq_some_iff (m : Buckets V) {key : Bytes}
    (hnames : ¬ (bucket = [] ∨ key = [])) (b k : Bytes) (v : V) :
    m.perform (.delete bucket key) b k = some v ↔ m b k = some v ∧ ¬ (b = bucket ∧ k = key) := by
  have hnamed : ¬ ((Write.delete bucket key : Write V).bucket = [] ∨
      (Write.delete bucket key : Write V).key = []) := hnames
  rw [Buckets.perform, if_neg hnamed]
  show (if b = bucket ∧ k = key then none else m b k) = some v ↔ _
  split_ifs with hhere <;> simp [hhere]

/-- The callback on a list of items: those that are stale are gone, and nothing else is. -/
lemma Holds.visit_pruneInto (unmarshal : V → Except String α) (stamp : α → Time) (cutoff : Time)
    {items : List (Bytes × V)} (hs : slash ∉ bucket) (hb : bucket ≠ [])
    (hkeys : ∀ item ∈ items, item.1 ≠ []) {store : BadgerStore V} {m : Buckets V}
    (h : Holds store m) :
    ∃ store' m', visit (pruneInto bucket unmarshal stamp cutoff) items store = (store', none) ∧
      Holds store' m' ∧ ∀ b k v, m' b k = some v ↔ m b k = some v ∧
        (b = bucket → ∀ w, (k, w) ∈ items → Fresh unmarshal stamp cutoff w) := by
  induction items generalizing store m with
  | nil => exact ⟨store, m, rfl, h, fun b k v => by simp⟩
  | cons item items ih =>
    obtain ⟨key, value⟩ := item
    have hrest : ∀ item ∈ items, item.1 ≠ [] := fun i hi => hkeys i (List.mem_cons_of_mem _ hi)
    have hnames : ¬ (bucket = [] ∨ key = []) :=
      not_or.mpr ⟨hb, hkeys _ List.mem_cons_self⟩
    by_cases hfresh : Fresh unmarshal stamp cutoff value
    · obtain ⟨store', m', hvisit, hholds, hm'⟩ := ih hrest h
      refine ⟨store', m', ?_, hholds, ?_⟩
      · rw [visit, pruneInto_of_fresh hfresh]
        exact hvisit
      · intro b k v
        rw [hm' b k v]
        simp only [List.mem_cons, Prod.mk.injEq]
        grind
    · -- the deletion goes to the store, not to the items that are still to come
      have hdeleted : Holds (store.perform (.delete bucket key)) (m.perform (.delete bucket key)) :=
        h.perform hs
      obtain ⟨store', m', hvisit, hholds, hm'⟩ := ih hrest hdeleted
      refine ⟨store', m', ?_, hholds, ?_⟩
      · rw [visit, pruneInto_of_stale hfresh store hnames]
        exact hvisit
      · intro b k v
        rw [hm' b k v, m.perform_delete_eq_some_iff hnames]
        simp only [List.mem_cons, Prod.mk.injEq]
        grind

/-- The items of a bucket have keys. -/
lemma Holds.key_ne_nil {b : BadgerStore V} {m : Buckets V} (h : Holds b m) (hs : slash ∉ bucket)
    {item : Bytes × V} (hitem : item ∈ b.entries bucket) : item.1 ≠ [] := by
  obtain ⟨key, v⟩ := item
  have hmem := (h.mem_toList hs).mpr ((h.mem_entries hs key v).mp hitem)
  rw [Std.ExtTreeMap.mem_toList_iff_getElem?_eq_some] at hmem
  obtain ⟨bucket', key', hs', -, hkey, heq⟩ := h.joined _ _ hmem
  rwa [((makeKey_inj hs hs').mp heq).2]

/-- `Get` finds the live entries. -/
lemma Holds.get_eq_ok_iff {b : BadgerStore V} {m : Buckets V} (h : Holds b m)
    (hs : slash ∉ bucket) (key : Bytes) (v : V) :
    b.get bucket key = .ok v ↔ m bucket key = some v := by
  by_cases hempty : bucket = [] ∨ key = []
  · rw [BadgerStore.get, if_pos hempty]
    refine iff_of_false (by simp) fun hlive => ?_
    have hkey := h.key_ne_nil hs ((h.mem_entries hs key v).mpr hlive)
    exact hempty.elim (h.ne_nil hs hlive) hkey
  · rw [h.get_eq hs hempty]
    cases m bucket key <;> simp

/-- A bucket that comes first is pruned as a whole. -/
theorem Holds.pruneRecords_of_scannedFirst {b : BadgerStore V} {m : Buckets V} (h : Holds b m)
    (hs : slash ∉ bucket) (hb : bucket ≠ []) (hfirst : ScannedFirst m bucket)
    (unmarshal : V → Except String α) (stamp : α → Time) (cutoff : Time) :
    ∃ b' m', pruneRecords bucket unmarshal stamp cutoff b = (b', none) ∧ Holds b' m' ∧
      Pruned bucket (Fresh unmarshal stamp cutoff) m m' := by
  have hscanned := (h.scanned_eq_entries_iff hs).mpr hfirst
  obtain ⟨b', m', hvisit, hholds, hm'⟩ := h.visit_pruneInto unmarshal stamp cutoff
    hs hb fun item hitem => h.key_ne_nil hs hitem
  refine ⟨b', m', ?_, hholds, ?_⟩
  · rw [pruneRecords, b.forEach_eq_visit hb, hscanned, hvisit]
  · intro b k v
    rw [hm' b k v]
    refine and_congr_right fun hlive => forall_congr' fun hbucket => ?_
    subst hbucket
    constructor
    · intro hall
      exact hall v ((h.mem_entries hs k v).mpr hlive)
    · intro hfresh w hw
      rw [h.mem_entries hs, hlive] at hw
      exact Option.some.inj hw ▸ hfresh

/-- Behind a live entry of a bucket that comes before it nothing of a bucket is scanned. -/
lemma Holds.scanned_eq_nil {b : BadgerStore V} {m : Buckets V} (h : Holds b m)
    (hs : slash ∉ bucket) {before key : Bytes} {v : V} (hlive : m before key = some v)
    (hlt : compare (groupPrefix slash before) (groupPrefix slash bucket) = .lt) :
    b.scanned bucket = [] := by
  have hsbefore := h.named before key v hlive
  have hne : before ≠ bucket := by
    rintro rfl
    simp at hlt
  have hmem := (h.mem_toList hsbefore).mpr hlive
  have hsorted := b.db.ordered_keys_toList
  rw [BadgerStore.scanned]
  split_ifs with hb
  · rfl
  · rw [List.map_eq_nil_iff]
    cases hitems : b.db.toList with
    | nil => rfl
    | cons first rest =>
      -- a first key in the bucket would come before the live entry
      refine List.takeWhile_cons_of_neg fun hin => ?_
      obtain ⟨x, w⟩ := first
      obtain ⟨bucket', k, hs', -, rfl, -⟩ := h.item (hitems ▸ List.mem_cons_self)
      obtain rfl := (inBucket_makeKey hs hs' w).mp hin
      rw [hitems] at hmem hsorted
      rcases List.mem_cons.mp hmem with heq | hrest
      · exact hne ((makeKey_inj hsbefore hs).mp (Prod.mk.inj heq).1).1
      · have hafter := (List.pairwise_cons.mp hsorted).1 _ hrest
        rw [compare_makeKey_of_ne hs hsbefore hne.symm] at hafter
        exact compare_asymm hlt hafter

end Arcsent.Storage
