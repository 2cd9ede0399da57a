/-
# The last items of a list

A window of bounded length takes in one item after another at its end and drops the oldest
ones.  What it holds is the end of the list of all items, and the last item with a property is
the same in both as long as the window holds one.
-/
import Mathlib.Data.List.DropRight
import Mathlib.Data.List.Infix

namespace Arcsent.Lib

variable {α : Type*} {n : ℕ} {l : List α} {a : α} {p : α → Bool}

lemma length_rtake (n : ℕ) (l : List α) : (l.rtake n).length = min n l.length := by
  rw [List.rtake, List.length_drop]
  omega

lemma rtake_of_length_le (h : l.length ≤ n) : l.rtake n = l := by
  rw [List.rtake, Nat.sub_eq_zero_of_le h, List.drop_zero]

lemma rtake_suffix (n : ℕ) (l : List α) : l.rtake n <:+ l := List.drop_suffix _ l

lemma rtake_min_length (n : ℕ) (l : List α) : l.rtake (min l.length n) = l.rtake n := by
  rw [List.rtake, List.rtake]
  congr 1
  omega

/-- A window over a list that has already been cut to the window is the window over the
whole list. -/
theorem rtake_rtake_append (k : ℕ) (l m : List α) :
    (l.rtake k ++ m).rtake k = (l ++ m).rtake k := by
  rcases le_total l.length k with h | h
  · rw [rtake_of_length_le h]
  · rw [List.rtake, List.rtake, List.rtake, List.length_append, List.length_drop,
      List.length_append, ← List.drop_append_of_le_length (Nat.sub_le _ _), List.drop_drop]
    congr 1
    omega

/-- One more item is put into a window of length `n`. -/
def slide (n : ℕ) (w : List α) (a : α) : List α := (w ++ [a]).rtake n

/-- The step: a window goes on holding the end of the list. -/
lemma slide_rtake (n : ℕ) (l : List α) (a : α) : slide n (l.rtake n) a = (l ++ [a]).rtake n :=
  rtake_rtake_append n l [a]

/-- The run of a loop whose body does what `slide` does, to windows that are not too long. -/
lemma foldl_eq_rtake {f : List α → α → List α} (h : ∀ w a, w.length ≤ n → f w a = slide n w a)
    (l : List α) : l.foldl f [] = l.rtake n := by
  induction l using List.reverseRecOn with
  | nil => rw [List.foldl_nil, List.rtake_nil]
  | append_singleton l a ih =>
    rw [List.foldl_concat, ih, h _ a, slide_rtake]
    rw [length_rtake]
    exact min_le_left n l.length

/-- The last item with a property is in the end of a list, if that has such an item. -/
lemma getLast?_filter_of_suffix {w : List α} (h : w <:+ l) (ha : (w.filter p).getLast? = some a) :
    (l.filter p).getLast? = some a := by
  obtain ⟨before, rfl⟩ := h
  rw [List.filter_append, List.getLast?_append, ha]
  rfl

end Arcsent.Lib
