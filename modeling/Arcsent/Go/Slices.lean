/-
# Slices and the arrays behind them

A slice of Go is a window on an array.  Several slices can look at one array, and what is
written through one of them is then seen through the others; `append` writes into the
array as long as it has room and moves to a new one otherwise.  This file models arrays
and slices of elements of any type, with the operations of the language on them and the
one fact that programs which copy before they write rely on: arrays that were there
before stay as they were.
-/
import Mathlib.Data.List.GetD
import Mathlib.Data.List.Sort

namespace Arcsent.Go

/-- The arrays of a program in the order in which they were allocated. -/
structure Memory (α : Type*) where
  arrays : List (List α)

/-- A slice: the array behind it, where its window starts there, its length and its
capacity. -/
structure Slice where
  array : ℕ
  offset : ℕ
  len : ℕ
  cap : ℕ
  /-- The length is within the capacity. -/
  len_le_cap : len ≤ cap

namespace Memory

variable {α : Type*}

/-- The elements of an array. -/
def array (mem : Memory α) (i : ℕ) : List α := mem.arrays.getD i []

/-- The capacity of a slice lies within an array of the memory. -/
structure Valid (mem : Memory α) (s : Slice) : Prop where
  array_lt : s.array < mem.arrays.length
  cap_le : s.offset + s.cap ≤ (mem.array s.array).length

/-- The elements of a slice. -/
def elems (mem : Memory α) (s : Slice) : List α := ((mem.array s.array).drop s.offset).take s.len

/-- The element at an index; the program panics when the index is out of range. -/
def index (mem : Memory α) (s : Slice) (i : ℤ) : Option α :=
  if 0 ≤ i ∧ i < s.len then (mem.array s.array)[s.offset + i.toNat]? else none

/-- A new array with the given elements and room behind them, and the slice of the
elements. -/
def alloc (mem : Memory α) (xs room : List α) : Memory α × Slice :=
  (⟨mem.arrays ++ [xs ++ room]⟩,
    { array := mem.arrays.length
      offset := 0
      len := xs.length
      cap := xs.length + room.length
      len_le_cap := Nat.le_add_right _ _ })

/-- Elements are written into an array from a position on. -/
def overwrite (mem : Memory α) (i pos : ℕ) (xs : List α) : Memory α :=
  ⟨mem.arrays.set i
    ((mem.array i).take pos ++ xs ++ (mem.array i).drop (pos + xs.length))⟩

/-- The function `append`.  What a new array has behind the elements is up to the
runtime. -/
def append (mem : Memory α) (room : List α) (s : Slice) (xs : List α) : Memory α × Slice :=
  if h : s.len + xs.length ≤ s.cap then
    (mem.overwrite s.array (s.offset + s.len) xs,
      { s with
        len := s.len + xs.length
        len_le_cap := h })
  else mem.alloc (mem.elems s ++ xs) room

/-- A copy of the elements: `append` to an empty literal. -/
def clone (mem : Memory α) (room : List α) (s : Slice) : Memory α × Slice :=
  let literal := mem.alloc [] []
  literal.1.append room literal.2 (mem.elems s)

/-- A slice is sorted in place. -/
def sort [LinearOrder α] (mem : Memory α) (s : Slice) : Memory α :=
  mem.overwrite s.array s.offset ((mem.elems s).insertionSort (· ≤ ·))

/-! ## Windows -/

variable {mem mem₁ : Memory α} {s : Slice} {xs room : List α}

lemma Valid.length_elems (h : mem.Valid s) : (mem.elems s).length = s.len := by
  have hcap := h.cap_le
  have hlen := s.len_le_cap
  rw [elems, List.length_take, List.length_drop]
  omega

/-- Indexing looks into the window. -/
lemma index_eq (mem : Memory α) (s : Slice) (i : ℤ) :
    mem.index s i = if 0 ≤ i then (mem.elems s)[i.toNat]? else none := by
  rw [index, elems, List.getElem?_take, List.getElem?_drop]
  split_ifs <;> first | rfl | omega

/-- An index within the length of a slice is in range. -/
lemma Valid.index_eq_some (h : mem.Valid s) {i : ℤ} (h0 : 0 ≤ i) (hi : i < s.len) (d : α) :
    mem.index s i = some ((mem.elems s).getD i.toNat d) := by
  have hlt : i.toNat < (mem.elems s).length := by
    rw [h.length_elems]
    omega
  rw [index_eq, if_pos h0, List.getElem?_eq_getElem hlt, List.getD_eq_getElem _ _ hlt]

/-! ## Writing -/

lemma array_overwrite {i : ℕ} (hi : i < mem.arrays.length) (pos : ℕ) (xs : List α) :
    (mem.overwrite i pos xs).array i
      = (mem.array i).take pos ++ xs ++ (mem.array i).drop (pos + xs.length) := by
  rw [array, overwrite, List.getD_eq_getElem _ _ (by rwa [List.length_set]), List.getElem_set_self]

/-- Writing within an array keeps its length. -/
lemma length_array_overwrite {i : ℕ} (hi : i < mem.arrays.length) {pos : ℕ}
    (hpos : pos + xs.length ≤ (mem.array i).length) :
    ((mem.overwrite i pos xs).array i).length = (mem.array i).length := by
  rw [array_overwrite hi, List.length_append, List.length_append, List.length_take,
    List.length_drop]
  omega

/-- A slice stays valid when something is written into its window. -/
lemma Valid.overwrite (h : mem.Valid s) {pos : ℕ}
    (hpos : pos + xs.length ≤ (mem.array s.array).length) :
    (mem.overwrite s.array pos xs).Valid s := by
  refine ⟨?_, ?_⟩
  · rw [Memory.overwrite, List.length_set]
    exact h.array_lt
  · rw [length_array_overwrite h.array_lt hpos]
    exact h.cap_le

/-- What is seen from the start of a window after writing from one of its positions on. -/
lemma Valid.take_drop_overwrite (h : mem.Valid s) {k : ℕ} (hk : k ≤ s.len)
    (hfit : k + xs.length ≤ s.cap) :
    (((mem.overwrite s.array (s.offset + k) xs).array s.array).drop s.offset).take (k + xs.length)
      = (mem.elems s).take k ++ xs := by
  have hcap := h.cap_le
  have hpos : s.offset ≤ ((mem.array s.array).take (s.offset + k)).length := by
    rw [List.length_take]
    omega
  have hkept : ((mem.array s.array).take (s.offset + k)).drop s.offset = (mem.elems s).take k := by
    rw [List.drop_take, elems, List.take_take, Nat.add_sub_cancel_left, min_eq_left hk]
  rw [array_overwrite h.array_lt, List.append_assoc, List.drop_append_of_le_length hpos, hkept,
    ← List.append_assoc]
  refine List.take_left' ?_
  rw [List.length_append, List.length_take, h.length_elems, min_eq_left hk]

/-- The elements of a slice after its window was written anew. -/
lemma Valid.elems_overwrite (h : mem.Valid s) (hlen : xs.length = s.len) :
    (mem.overwrite s.array s.offset xs).elems s = xs := by
  have hfit : 0 + xs.length ≤ s.cap := by
    rw [Nat.zero_add, hlen]
    exact s.len_le_cap
  have hwindow := h.take_drop_overwrite (Nat.zero_le _) hfit
  rwa [Nat.zero_add, hlen, Nat.add_zero, List.take_zero, List.nil_append] at hwindow

lemma Valid.sort [LinearOrder α] (h : mem.Valid s) : (mem.sort s).Valid s := by
  have hcap := h.cap_le
  have hle := s.len_le_cap
  refine h.overwrite ?_
  rw [List.length_insertionSort, h.length_elems]
  omega

/-- Sorting in place sorts the elements of the slice. -/
lemma Valid.elems_sort [LinearOrder α] (h : mem.Valid s) :
    (mem.sort s).elems s = (mem.elems s).insertionSort (· ≤ ·) :=
  h.elems_overwrite (by rw [List.length_insertionSort, h.length_elems])

/-! ## Allocation -/

lemma array_alloc (mem : Memory α) (xs room : List α) :
    (mem.alloc xs room).1.array mem.arrays.length = xs ++ room := by
  simp [alloc, array]

lemma valid_alloc (mem : Memory α) (xs room : List α) :
    (mem.alloc xs room).1.Valid (mem.alloc xs room).2 := by
  refine ⟨?_, ?_⟩
  · simp [alloc]
  · rw [show (mem.alloc xs room).2.array = mem.arrays.length from rfl, array_alloc]
    simp [alloc]

lemma elems_alloc (mem : Memory α) (xs room : List α) :
    (mem.alloc xs room).1.elems (mem.alloc xs room).2 = xs := by
  rw [elems, show (mem.alloc xs room).2.array = mem.arrays.length from rfl, array_alloc]
  simp [alloc]

/-- The slice that `append` returns is valid. -/
lemma Valid.append (h : mem.Valid s) (room xs : List α) :
    (mem.append room s xs).1.Valid (mem.append room s xs).2 := by
  rw [Memory.append]
  split_ifs with hfit
  · have hcap := h.cap_le
    have hpos : s.offset + s.len + xs.length ≤ (mem.array s.array).length := by omega
    exact ⟨(h.overwrite hpos).array_lt, (h.overwrite hpos).cap_le⟩
  · exact valid_alloc _ _ _

/-- `append` returns the elements of the slice followed by the others. -/
lemma Valid.elems_append (h : mem.Valid s) (room xs : List α) :
    (mem.append room s xs).1.elems (mem.append room s xs).2 = mem.elems s ++ xs := by
  rw [Memory.append]
  split_ifs with hfit
  · have hwindow := h.take_drop_overwrite le_rfl hfit
    rwa [← h.length_elems, List.take_length, h.length_elems] at hwindow
  · exact elems_alloc _ _ _

lemma valid_clone (mem : Memory α) (room : List α) (s : Slice) :
    (mem.clone room s).1.Valid (mem.clone room s).2 :=
  (valid_alloc mem [] []).append room (mem.elems s)

lemma elems_clone (mem : Memory α) (room : List α) (s : Slice) :
    (mem.clone room s).1.elems (mem.clone room s).2 = mem.elems s := by
  rw [clone, (valid_alloc mem [] []).elems_append, elems_alloc, List.nil_append]

/-! ## What stays as it was -/

/-- The arrays of one memory are the first arrays of another. -/
def Keeps (mem mem₁ : Memory α) : Prop := mem.arrays <+: mem₁.arrays

lemma Keeps.refl (mem : Memory α) : mem.Keeps mem := List.prefix_rfl

lemma Keeps.alloc (h : mem.Keeps mem₁) (xs room : List α) :
    mem.Keeps (mem₁.alloc xs room).1 :=
  h.trans (List.prefix_append _ _)

/-- Nothing is lost when a newer array is written. -/
lemma Keeps.overwrite (h : mem.Keeps mem₁) {i : ℕ} (hi : mem.arrays.length ≤ i) (pos : ℕ)
    (xs : List α) : mem.Keeps (mem₁.overwrite i pos xs) := by
  obtain ⟨newer, hnewer⟩ := h
  rw [Keeps, Memory.overwrite, ← hnewer, List.set_append_right _ _ hi]
  exact List.prefix_append _ _

/-- Appending to a slice of a newer array gives a slice of a newer array. -/
lemma Keeps.append (h : mem.Keeps mem₁) (hs : mem.arrays.length ≤ s.array) (room xs : List α) :
    mem.Keeps (mem₁.append room s xs).1 ∧
      mem.arrays.length ≤ (mem₁.append room s xs).2.array := by
  rw [Memory.append]
  split_ifs with hroom
  · exact ⟨h.overwrite hs _ _, hs⟩
  · exact ⟨h.alloc _ _, List.IsPrefix.length_le h⟩

/-- A copy is made on a newer array. -/
lemma keeps_clone (mem : Memory α) (room : List α) (s : Slice) :
    mem.Keeps (mem.clone room s).1 ∧ mem.arrays.length ≤ (mem.clone room s).2.array :=
  ((Keeps.refl mem).alloc [] []).append le_rfl room (mem.elems s)

/-- Slices of the older arrays have the elements they had. -/
lemma Keeps.elems_eq (h : mem.Keeps mem₁) (hs : mem.Valid s) : mem₁.elems s = mem.elems s := by
  obtain ⟨newer, hnewer⟩ := h
  rw [elems, elems, array, array, ← hnewer, List.getD_append _ _ _ _ hs.array_lt]

end Memory

end Arcsent.Go
