/-
# Histories

A history is a list that grows at its end.  A condition on an entry and the entries before
it holds all along a history when it holds of each entry at the time it is added.  Where an
entry writes values to keys, what a key holds in the end is what was written there last.
-/
import Mathlib.Data.List.Basic

namespace Arcsent.Lib

variable {η : Type*} {P : List η → η → Prop} {log : List η} {x : η}

/-- Every entry of a history satisfies a condition together with what stands before it. -/
def EachEntry (P : List η → η → Prop) (log : List η) : Prop :=
  ∀ before x after, log = before ++ x :: after → P before x

lemma eachEntry_nil : EachEntry P [] := by
  intro before x after h
  simp at h

/-- A new entry has to satisfy the condition with the history so far. -/
lemma eachEntry_concat : EachEntry P (log ++ [x]) ↔ EachEntry P log ∧ P log x := by
  constructor
  · intro h
    refine ⟨fun before y after hlog => h before y (after ++ [x]) ?_, h log x [] rfl⟩
    rw [hlog, List.append_assoc, List.cons_append]
  · rintro ⟨h, hx⟩ before y after hlog
    rcases List.eq_nil_or_concat after with rfl | ⟨after, z, rfl⟩
    · obtain ⟨rfl, hxy⟩ := List.append_inj' hlog rfl
      obtain rfl : x = y := by simpa using hxy
      exact hx
    · have hshape : log ++ [x] = (before ++ y :: after) ++ [z] := by
        rw [hlog, List.concat_eq_append, List.append_assoc, List.cons_append]
      obtain ⟨rfl, -⟩ := List.append_inj' hshape rfl
      exact h before y after rfl

/-! ## The last write -/

section LastWritten

variable {κ β : Type*} {W : η → κ → β → Prop} {k : κ} {b : β}

/-- The last entry that writes to a key writes this value. -/
def LastWritten (W : η → κ → β → Prop) (log : List η) (k : κ) (b : β) : Prop :=
  ∃ before x after, log = before ++ x :: after ∧ W x k b ∧ ∀ y ∈ after, ∀ c, ¬ W y k c

/-- No entry writes to a key. -/
def Unwritten (W : η → κ → β → Prop) (log : List η) (k : κ) : Prop := ∀ y ∈ log, ∀ c, ¬ W y k c

lemma unwritten_concat : Unwritten W (log ++ [x]) k ↔ Unwritten W log k ∧ ∀ c, ¬ W x k c := by
  simp only [Unwritten, List.forall_mem_append, List.forall_mem_singleton]

lemma lastWritten_concat :
    LastWritten W (log ++ [x]) k b ↔ W x k b ∨ (∀ c, ¬ W x k c) ∧ LastWritten W log k b := by
  constructor
  · rintro ⟨before, y, after, hlog, hy, hafter⟩
    rcases List.eq_nil_or_concat after with rfl | ⟨after, z, rfl⟩
    · obtain ⟨-, hxy⟩ := List.append_inj' hlog rfl
      obtain rfl : x = y := by simpa using hxy
      exact .inl hy
    · have hshape : log ++ [x] = (before ++ y :: after) ++ [z] := by
        rw [hlog, List.concat_eq_append, List.append_assoc, List.cons_append]
      obtain ⟨rfl, hxz⟩ := List.append_inj' hshape rfl
      obtain rfl : x = z := by simpa using hxz
      refine .inr ⟨hafter x (by simp), before, y, after, rfl, hy, fun w hw => ?_⟩
      exact hafter w (by simp [hw])
  · rintro (hx | ⟨hnone, before, y, after, rfl, hy, hafter⟩)
    · exact ⟨log, x, [], rfl, hx, fun y hy => absurd hy List.not_mem_nil⟩
    · refine ⟨before, y, after ++ [x], by simp, hy, fun w hw => ?_⟩
      rcases List.mem_append.mp hw with hw | hw
      · exact hafter w hw
      · exact List.mem_singleton.mp hw ▸ hnone

/-- What is seen at a key after an entry is what it writes there, and otherwise what was
seen before; then after a history it is what was written last. -/
lemma seen_concat {before after seen : Option β}
    (hbefore : ∀ b, before = some b ↔
      LastWritten W log k b ∨ Unwritten W log k ∧ seen = some b)
    (hwrites : ∀ b, W x k b → after = some b) (hkeeps : (∀ b, ¬ W x k b) → after = before) :
    ∀ b, after = some b ↔
      LastWritten W (log ++ [x]) k b ∨ Unwritten W (log ++ [x]) k ∧ seen = some b := by
  intro b
  rw [lastWritten_concat, unwritten_concat]
  by_cases hx : ∃ c, W x k c
  · obtain ⟨c, hc⟩ := hx
    have hnot : ¬ ∀ c, ¬ W x k c := fun h => h c hc
    constructor
    · intro hafter
      obtain rfl := Option.some.inj ((hwrites c hc).symm.trans hafter)
      exact .inl (.inl hc)
    · rintro ((hb | ⟨hnone, -⟩) | ⟨⟨-, hnone⟩, -⟩)
      · exact hwrites b hb
      · exact absurd hnone hnot
      · exact absurd hnone hnot
  · have hnone : ∀ c, ¬ W x k c := not_exists.mp hx
    rw [hkeeps hnone, hbefore b]
    simp only [hnone, false_or, not_false_eq_true, implies_true, true_and, and_true]

end LastWritten

end Arcsent.Lib
