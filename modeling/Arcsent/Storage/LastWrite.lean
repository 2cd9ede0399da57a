/-
# What a store gives back

A client of the store knows buckets and keys, and for each the value put there last.  This
file reads that value off the sequence of the calls, and shows that the database with its
joined keys gives it back, whatever was written to other buckets and keys in between.
-/
import Arcsent.Lib.Latest
import Arcsent.Storage.Badger

namespace Arcsent.Storage

open Arcsent.Go Arcsent.Lib

variable {V : Type}

/-- The names of an entry: a bucket that is not empty and has no slash, and a key that is
not empty. -/
structure Named (bucket key : Bytes) : Prop where
  bucket_ne : bucket ≠ []
  slash_notMem : slash ∉ bucket
  key_ne : key ≠ []

lemma Named.not_empty {bucket key : Bytes} (h : Named bucket key) :
    ¬ (bucket = [] ∨ key = []) := not_or.mpr ⟨h.bucket_ne, h.key_ne⟩

/-- The entry that a call writes to. -/
def Write.entry (w : Write V) : Bytes × Bytes := (w.bucket, w.key)

/-- A value was put at an entry, and no later call put another one there or deleted it. -/
def Stands (ws : List (Write V)) (bucket key : Bytes) (value : V) : Prop :=
  ∃ before after, ws = before ++ .put bucket key value :: after ∧
    ∀ w ∈ after, w.entry ≠ (bucket, key)

namespace BadgerStore

/-- A call that writes, with its error. -/
def call (b : BadgerStore V) : Write V → Except Error (BadgerStore V)
  | .put bucket key value => b.put bucket key value
  | .delete bucket key => b.delete bucket key

/-- A call under proper names succeeds. -/
lemma call_of_named (b : BadgerStore V) {w : Write V} (h : Named w.bucket w.key) :
    b.call w = .ok (b.perform w) := by
  have hempty := h.not_empty
  cases w with
  | put bucket key value =>
    have hput : b.put bucket key value = .ok ⟨b.db.insert (makeKey bucket key) value⟩ :=
      if_neg hempty
    rw [call, perform, hput]
    rfl
  | delete bucket key =>
    have hdelete : b.delete bucket key = .ok ⟨b.db.erase (makeKey bucket key)⟩ := if_neg hempty
    rw [call, perform, hdelete]
    rfl

/-- No call of a sequence under proper names fails. -/
lemma foldlM_call (b : BadgerStore V) {ws : List (Write V)}
    (hws : ∀ w ∈ ws, Named w.bucket w.key) :
    ws.foldlM call b = .ok (ws.foldl perform b) := by
  induction ws generalizing b with
  | nil => rfl
  | cons w ws ih =>
    rw [List.foldlM_cons, b.call_of_named (hws w List.mem_cons_self)]
    exact ih _ fun v hv => hws v (List.mem_cons_of_mem _ hv)

end BadgerStore

/-! ## The last call -/

/-- In the two-level map a call changes the value of its own entry and no other. -/
lemma Buckets.perform_of_named (m : Buckets V) {w : Write V} (hw : Named w.bucket w.key)
    (bucket key : Bytes) :
    m.perform w bucket key = if w.entry = (bucket, key) then w.value else m bucket key := by
  have hentry : w.entry = (bucket, key) ↔ bucket = w.bucket ∧ key = w.key := by
    rw [Write.entry, Prod.mk.injEq]
    exact and_congr eq_comm eq_comm
  rw [Buckets.perform, if_neg hw.not_empty]
  simp only [hentry]

/-- What is live at an entry is what the last call there left. -/
lemma live_eq_latest {ws : List (Write V)} (hws : ∀ w ∈ ws, Named w.bucket w.key)
    (bucket key : Bytes) :
    live ws bucket key = (latest Write.entry ws (bucket, key)).bind Write.value := by
  have hview := view_foldl (fun m : Buckets V => m bucket key) Write.value (fun _ _ => none)
    fun m w hw => m.perform_of_named (hws w hw) bucket key
  rw [live, hview]
  cases latest Write.entry ws (bucket, key) with
  | none => rfl
  | some w => rfl

/-- A value is live at an entry when it stands there. -/
lemma live_eq_some_iff {ws : List (Write V)} (hws : ∀ w ∈ ws, Named w.bucket w.key)
    {bucket key : Bytes} {value : V} :
    live ws bucket key = some value ↔ Stands ws bucket key value := by
  rw [live_eq_latest hws, Option.bind_eq_some_iff]
  constructor
  · rintro ⟨w, hw, hvalue⟩
    obtain ⟨hentry, before, after, hsplit, hafter⟩ := latest_eq_some_iff.mp hw
    cases w with
    | delete bucket' key' => exact absurd hvalue (by simp [Write.value])
    | put bucket' key' value' =>
      obtain ⟨rfl, rfl⟩ := Prod.mk.inj hentry
      obtain rfl := Option.some.inj hvalue
      exact ⟨before, after, hsplit, hafter⟩
  · rintro ⟨before, after, hsplit, hafter⟩
    exact ⟨.put bucket key value, latest_eq_some_iff.mpr ⟨rfl, before, after, hsplit, hafter⟩, rfl⟩

/-- **The store simulates a two-level map.**  After any sequence of `Put` and `Delete` under
proper names, none of which fails, `Get` returns the value that was put last under the same
bucket and key, unless a `Delete` of it followed, and `ErrNotFound` when there is none.
What was done under other names makes no difference. -/
theorem get_after_iff_stands (ws : List (Write V)) (hws : ∀ w ∈ ws, Named w.bucket w.key)
    {bucket key : Bytes} (h : Named bucket key) :
    ws.foldlM BadgerStore.call .empty = .ok (.after ws) ∧
    (∀ value, (BadgerStore.after ws).get bucket key = .ok value ↔ Stands ws bucket key value) ∧
    ((BadgerStore.after ws).get bucket key = .error .notFound ↔
      ∀ value, ¬ Stands ws bucket key value) ∧
    ∀ ws' : List (Write V), (∀ w ∈ ws', Named w.bucket w.key) →
      ws'.filter (fun w => w.entry = (bucket, key)) = ws.filter (fun w => w.entry = (bucket, key)) →
      (BadgerStore.after ws').get bucket key = (BadgerStore.after ws).get bucket key := by
  have hslash : ∀ w ∈ ws, slash ∉ w.bucket := fun w hw => (hws w hw).slash_notMem
  have hget := (holds_after ws hslash).get_eq h.slash_notMem h.not_empty
  refine ⟨BadgerStore.foldlM_call _ hws, fun value => ?_, ?_, fun ws' hws' hsame => ?_⟩
  · rw [hget, ← live_eq_some_iff hws]
    cases live ws bucket key <;> simp
  · simp only [hget, ← live_eq_some_iff hws]
    cases live ws bucket key <;> simp
  · have hslash' : ∀ w ∈ ws', slash ∉ w.bucket := fun w hw => (hws' w hw).slash_notMem
    rw [hget, (holds_after ws' hslash').get_eq h.slash_notMem h.not_empty, live_eq_latest hws',
      live_eq_latest hws, latest_congr hsame]

/-- Two buckets of which one name begins with the other, and a key with a slash: the value
put there again after it was deleted. -/
theorem get_after_reput :
    (BadgerStore.after [.put (bytes "jobs") (bytes "a/b") 1, .put (bytes "job") (bytes "s/a/b") 2,
        .delete (bytes "jobs") (bytes "a/b"), .put (bytes "jobs") (bytes "a/b") 3,
        .delete (bytes "jobs") (bytes "a")]).get (bytes "jobs") (bytes "a/b") = .ok 3 := by
  have hjobs : Named (bytes "jobs") (bytes "a/b") := ⟨by decide, by decide, by decide⟩
  have hjob : Named (bytes "job") (bytes "s/a/b") := ⟨by decide, by decide, by decide⟩
  have hother : Named (bytes "jobs") (bytes "a") := ⟨by decide, by decide, by decide⟩
  refine ((get_after_iff_stands _ ?_ hjobs).2.1 3).mpr ?_
  · simp [Write.bucket, Write.key, hjobs, hjob, hother]
  · refine ⟨[_, _, _], [_], rfl, ?_⟩
    simp [Write.entry, Write.bucket, Write.key, bytes_inj]

end Arcsent.Storage
