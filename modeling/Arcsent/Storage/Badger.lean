/-
# The store of `internal/storage/badger.go`

Badger is an ordered map from byte strings to values, read and written in transactions.
`BadgerStore` lays buckets over it by joining bucket and key with a slash.  This file
models the five operations as the source writes them and relates them to what they are
for, a two-level map from buckets and keys to values.
-/
import Arcsent.Go.Basic
import Arcsent.Lib.FlatKey

namespace Arcsent.Storage

open Arcsent.Go Arcsent.Lib

/-- The slash that separates bucket and key. -/
def slash : UInt8 := 0x2F

/-- The key of an entry in the database.  On the platforms of the daemon the source's
`filepath.ToSlash` changes nothing. -/
def makeKey (bucket key : Bytes) : Bytes := flatKey slash bucket key

/-- The store: the badger database. -/
structure BadgerStore (V : Type) where
  /-- The ordered map. -/
  db : Std.ExtTreeMap Bytes V compare

variable {V σ : Type}

namespace BadgerStore

/-- A freshly created database. -/
def empty : BadgerStore V := ⟨∅⟩

def put (b : BadgerStore V) (bucket key : Bytes) (value : V) : Except Error (BadgerStore V) :=
  if bucket = [] ∨ key = [] then .error (.text "bucket and key are required")
  else .ok ⟨b.db.insert (makeKey bucket key) value⟩

def get (b : BadgerStore V) (bucket key : Bytes) : Except Error V :=
  if bucket = [] ∨ key = [] then .error (.text "bucket and key are required")
  else match b.db[makeKey bucket key]? with
    | none => .error .notFound
    | some val => .ok val

def delete (b : BadgerStore V) (bucket key : Bytes) : Except Error (BadgerStore V) :=
  if bucket = [] ∨ key = [] then .error (.text "bucket and key are required")
  else .ok ⟨b.db.erase (makeKey bucket key)⟩

/-- The loop of `ForEach` over the items from the iterator's position on.  The callback
may change a state of its own, and its error ends the loop. -/
def scan (pre : Bytes) (fn : σ → Bytes → V → σ × Option Error) :
    List (Bytes × V) → σ → σ × Option Error
  | [], s => (s, none)
  | (k, val) :: items, s =>
    if pre.isPrefixOf k then
      match fn s (k.drop pre.length) val with
      | (s', some err) => (s', some err)
      | (s', none) => scan pre fn items s'
    else (s, none)

/-- `ForEach`: the iterator is made without a prefix, so `Rewind` puts it on the smallest
key of the whole database. -/
def forEach (b : BadgerStore V) (bucket : Bytes) (fn : σ → Bytes → V → σ × Option Error)
    (s : σ) : σ × Option Error :=
  if bucket = [] then (s, some (.text "bucket is required"))
  else scan (groupPrefix slash bucket) fn b.db.toList s

end BadgerStore

/-! ## The two-level map -/

/-- What a store is for: for each bucket a map from keys to values. -/
abbrev Buckets (V : Type) := Bytes → Bytes → Option V

/-- A call that writes. -/
inductive Write (V : Type)
  | put (bucket key : Bytes) (value : V)
  | delete (bucket key : Bytes)

namespace Write

/-- The bucket a call writes to. -/
def bucket : Write V → Bytes
  | put bucket _ _ => bucket
  | delete bucket _ => bucket

/-- The key a call writes to. -/
def key : Write V → Bytes
  | put _ key _ => key
  | delete _ key => key

/-- The value a call leaves at its key. -/
def value : Write V → Option V
  | put _ _ value => some value
  | delete _ _ => none

end Write

/-- The store after a call; a call that returns an error leaves it as it was. -/
def BadgerStore.perform (b : BadgerStore V) : Write V → BadgerStore V
  | .put bucket key value => (b.put bucket key value).toOption.getD b
  | .delete bucket key => (b.delete bucket key).toOption.getD b

/-- The store after a sequence of calls on a fresh database. -/
def BadgerStore.after (ws : List (Write V)) : BadgerStore V :=
  ws.foldl BadgerStore.perform BadgerStore.empty

/-- The two-level map after a call. -/
def Buckets.perform (m : Buckets V) (w : Write V) : Buckets V :=
  if w.bucket = [] ∨ w.key = [] then m
  else fun b k => if b = w.bucket ∧ k = w.key then w.value else m b k

/-- A call leaves the other buckets alone. -/
lemma Buckets.perform_of_ne (m : Buckets V) {w : Write V} {b : Bytes} (h : b ≠ w.bucket) :
    m.perform w b = m b := by
  rw [Buckets.perform]
  split_ifs
  · rfl
  · funext k
    exact if_neg fun he => h he.1

/-- The entries that are live after a sequence of calls. -/
def live (ws : List (Write V)) : Buckets V :=
  ws.foldl Buckets.perform fun _ _ => none

/-- A store holds a two-level map: it has the value of every entry under the joined key,
and nothing else. -/
structure Holds (b : BadgerStore V) (m : Buckets V) : Prop where
  /-- Entries are found. -/
  lookup : ∀ bucket key, slash ∉ bucket → b.db[makeKey bucket key]? = m bucket key
  /-- Every key of the database belongs to an entry. -/
  joined : ∀ x v, b.db[x]? = some v →
    ∃ bucket key, slash ∉ bucket ∧ bucket ≠ [] ∧ key ≠ [] ∧ x = makeKey bucket key
  /-- No entry is in a bucket whose name has a slash. -/
  named : ∀ bucket key v, m bucket key = some v → slash ∉ bucket

lemma holds_empty : Holds (BadgerStore.empty : BadgerStore V) fun _ _ => none := by
  refine ⟨fun bucket key _ => ?_, fun x v h => ?_, fun _ _ _ h => by simp at h⟩
  · simp [BadgerStore.empty]
  · simp [BadgerStore.empty] at h

lemma makeKey_inj {b b' k k' : Bytes} (hb : slash ∉ b) (hb' : slash ∉ b') :
    makeKey b k = makeKey b' k' ↔ b = b' ∧ k = k' := by
  constructor
  · exact flatKey_inj hb hb'
  · rintro ⟨rfl, rfl⟩
    rfl

/-- A write with an empty name is refused and changes nothing. -/
lemma BadgerStore.perform_of_empty (b : BadgerStore V) {w : Write V}
    (h : w.bucket = [] ∨ w.key = []) : b.perform w = b := by
  cases w with
  | put bucket key value =>
    have hc : bucket = [] ∨ key = [] := h
    simp [BadgerStore.perform, BadgerStore.put, hc, Except.toOption]
  | delete bucket key =>
    have hc : bucket = [] ∨ key = [] := h
    simp [BadgerStore.perform, BadgerStore.delete, hc, Except.toOption]

/-- A write changes the value at its own joined key only. -/
lemma BadgerStore.getElem?_perform (b : BadgerStore V) {w : Write V}
    (h : ¬ (w.bucket = [] ∨ w.key = [])) (x : Bytes) :
    (b.perform w).db[x]? = if makeKey w.bucket w.key = x then w.value else b.db[x]? := by
  cases w with
  | put bucket key value =>
    have hc : ¬ (bucket = [] ∨ key = []) := h
    have hb : (b.perform (.put bucket key value)).db
        = b.db.insert (makeKey bucket key) value := by
      simp [BadgerStore.perform, BadgerStore.put, hc, Except.toOption]
    rw [hb, Std.ExtTreeMap.getElem?_insert]
    simp only [Std.LawfulEqOrd.compare_eq_iff_eq]
    rfl
  | delete bucket key =>
    have hc : ¬ (bucket = [] ∨ key = []) := h
    have hb : (b.perform (.delete bucket key)).db = b.db.erase (makeKey bucket key) := by
      simp [BadgerStore.perform, BadgerStore.delete, hc, Except.toOption]
    rw [hb, Std.ExtTreeMap.getElem?_erase]
    simp only [Std.LawfulEqOrd.compare_eq_iff_eq]
    rfl

/-- A write under names that are not empty succeeds, and what was written is found. -/
lemma BadgerStore.exists_put (b : BadgerStore V) {bucket key : Bytes}
    (h : ¬ (bucket = [] ∨ key = [])) (value : V) :
    ∃ b', b.put bucket key value = .ok b' ∧ b'.get bucket key = .ok value := by
  refine ⟨_, by rw [put, if_neg h], ?_⟩
  rw [get, if_neg h]
  simp

/-- What is written under one joined key is not seen under another. -/
lemma BadgerStore.get_of_put {b b' : BadgerStore V} {bucket key bucket' key' : Bytes} {value : V}
    (h : b.put bucket key value = .ok b') (hne : makeKey bucket key ≠ makeKey bucket' key') :
    b'.get bucket' key' = b.get bucket' key' := by
  rw [put] at h
  split_ifs at h
  obtain rfl := Except.ok.inj h
  have hother : (b.db.insert (makeKey bucket key) value)[makeKey bucket' key']?
      = b.db[makeKey bucket' key']? := by
    rw [Std.ExtTreeMap.getElem?_insert, if_neg (by simpa using hne)]
  simp only [get, hother]

/-- `Get` answers from the two-level map that the store holds. -/
lemma Holds.get_eq {b : BadgerStore V} {m : Buckets V} (h : Holds b m) {bucket key : Bytes}
    (hs : slash ∉ bucket) (hempty : ¬ (bucket = [] ∨ key = [])) :
    b.get bucket key = (m bucket key).elim (.error .notFound) .ok := by
  rw [BadgerStore.get, if_neg hempty, h.lookup bucket key hs]
  cases m bucket key with
  | none => rfl
  | some value => rfl

/-- A write changes one entry of the two-level map and nothing else. -/
lemma Holds.perform {b : BadgerStore V} {m : Buckets V} (h : Holds b m) {w : Write V}
    (hw : slash ∉ w.bucket) : Holds (b.perform w) (m.perform w) := by
  by_cases hempty : w.bucket = [] ∨ w.key = []
  · rw [b.perform_of_empty hempty, Buckets.perform, if_pos hempty]
    exact h
  · rw [Buckets.perform, if_neg hempty]
    refine ⟨fun bucket key hs => ?_, fun x v hx => ?_, fun bucket key v hm => ?_⟩
    · rw [b.getElem?_perform hempty]
      by_cases he : bucket = w.bucket ∧ key = w.key
      · rw [if_pos ((makeKey_inj hw hs).mpr ⟨he.1.symm, he.2.symm⟩), if_pos he]
      · have hne : ¬ makeKey w.bucket w.key = makeKey bucket key := fun hk =>
          he ⟨((makeKey_inj hw hs).mp hk).1.symm, ((makeKey_inj hw hs).mp hk).2.symm⟩
        rw [if_neg hne, if_neg he]
        exact h.lookup bucket key hs
    · rw [b.getElem?_perform hempty] at hx
      obtain ⟨hbucket, hkey⟩ := not_or.mp hempty
      by_cases he : makeKey w.bucket w.key = x
      · exact ⟨w.bucket, w.key, hw, hbucket, hkey, he.symm⟩
      · rw [if_neg he] at hx
        exact h.joined x v hx
    · by_cases he : bucket = w.bucket ∧ key = w.key
      · rw [he.1]
        exact hw
      · rw [if_neg he] at hm
        exact h.named bucket key v hm

/-- **The store after any sequence of writes holds the two-level map after them.** -/
theorem holds_after (ws : List (Write V)) (hws : ∀ w ∈ ws, slash ∉ w.bucket) :
    Holds (BadgerStore.after ws) (live ws) := by
  suffices hmain : ∀ (b : BadgerStore V) (m : Buckets V), Holds b m →
      Holds (ws.foldl BadgerStore.perform b) (ws.foldl Buckets.perform m) from
    hmain _ _ holds_empty
  induction ws with
  | nil => exact fun b m h => h
  | cons w ws ih =>
    intro b m h
    exact ih (fun v hv => hws v (List.mem_cons_of_mem _ hv)) _ _
      (h.perform (hws w List.mem_cons_self))

end Arcsent.Storage
