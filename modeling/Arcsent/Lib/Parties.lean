/-
# Parties in a list

The parties of a system are kept in a list and one of them moves at a time.  These are
the facts about replacing one element of a list that the invariants of such systems need:
what is true of all of them, and what has been collected from those that are done.
-/
import Mathlib.Data.List.Perm.Basic

namespace Arcsent.Lib

variable {α β : Type*} {l : List α} {i : ℕ} {a b : α}

/-- What holds of every party, and of the new state of the one that moves, still holds of
every party. -/
lemma forall_mem_set {P : α → Prop} (h : ∀ x ∈ l, P x) (hb : P b) : ∀ x ∈ l.set i b, P x := by
  intro x hx
  rcases List.mem_or_eq_of_mem_set hx with hx | rfl
  · exact h x hx
  · exact hb

/-- The list around the party that moves. -/
lemma exists_set_eq (h : l[i]? = some a) :
    ∃ l₁ l₂, l = l₁ ++ a :: l₂ ∧ ∀ b, l.set i b = l₁ ++ b :: l₂ := by
  obtain ⟨hi, rfl⟩ := List.getElem?_eq_some_iff.mp h
  refine ⟨l.take i, l.drop (i + 1), ?_, fun b => ?_⟩
  · rw [← List.drop_eq_getElem_cons hi, List.take_append_drop]
  · rw [List.set_eq_take_append_cons_drop, if_pos hi]

/-- A property of each party that does not change when it moves. -/
lemma map_set_of_eq {f : α → β} (h : l[i]? = some a) (hf : f b = f a) :
    (l.set i b).map f = l.map f := by
  obtain ⟨l₁, l₂, hl, hset⟩ := exists_set_eq h
  rw [hset, hl, List.map_append, List.map_append, List.map_cons, List.map_cons, hf]

/-- What is collected from the parties does not change by a move that adds nothing. -/
lemma filterMap_set_of_eq {f : α → Option β} (h : l[i]? = some a) (hf : f b = f a) :
    (l.set i b).filterMap f = l.filterMap f := by
  obtain ⟨l₁, l₂, hl, hset⟩ := exists_set_eq h
  rw [hset, hl, List.filterMap_append, List.filterMap_append, List.filterMap_cons,
    List.filterMap_cons, hf]

/-- A party that is done adds what it has to the collection. -/
lemma filterMap_set_perm {f : α → Option β} {v : β} (h : l[i]? = some a) (ha : f a = none)
    (hb : f b = some v) : (l.filterMap f ++ [v]).Perm ((l.set i b).filterMap f) := by
  obtain ⟨l₁, l₂, hl, hset⟩ := exists_set_eq h
  rw [hset, hl, List.filterMap_append, List.filterMap_append, List.filterMap_cons_none ha,
    List.filterMap_cons_some hb, List.append_assoc]
  exact (List.perm_append_singleton v _).append_left _

/-- A party that gives up what it has takes it out of the collection. -/
lemma filterMap_set_perm_of_none {f : α → Option β} {v : β} (h : l[i]? = some a)
    (ha : f a = some v) (hb : f b = none) :
    (l.filterMap f).Perm (v :: (l.set i b).filterMap f) := by
  obtain ⟨l₁, l₂, hl, hset⟩ := exists_set_eq h
  rw [hset, hl, List.filterMap_append, List.filterMap_append, List.filterMap_cons_none hb,
    List.filterMap_cons_some ha]
  exact List.perm_middle

end Arcsent.Lib
