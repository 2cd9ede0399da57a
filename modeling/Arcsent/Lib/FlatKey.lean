/-
# Two-level names in one flat ordered key space

A store with a single ordered key space can hold several groups of entries by joining the
name of the group and the key inside it with a separator.  As long as the separator does
not occur in group names the joined keys can be told apart, the keys of one group are an
interval of the key space, and two groups lie in it in the order of their prefixes.  A
scan of one group is then a scan of the sorted list of all keys that stops at the first
key outside the group; the last section says when such a scan misses nothing.
-/
import Mathlib.Data.List.Basic
import Mathlib.Data.List.Perm.Basic
import Mathlib.Data.List.Pairwise
import Std.Data.ExtTreeMap

namespace Arcsent.Lib

variable {α : Type*}

/-- The flat key of an entry of a group. -/
def flatKey (sep : α) (group key : List α) : List α := group ++ sep :: key

/-- The prefix shared by the flat keys of a group. -/
def groupPrefix (sep : α) (group : List α) : List α := group ++ [sep]

variable {sep : α} {g g' k k' : List α}

lemma flatKey_eq_append (sep : α) (g k : List α) :
    flatKey sep g k = groupPrefix sep g ++ k := by
  simp [flatKey, groupPrefix]

/-- Group and key can be read back from a flat key. -/
theorem flatKey_inj (hg : sep ∉ g) (hg' : sep ∉ g')
    (h : flatKey sep g k = flatKey sep g' k') : g = g' ∧ k = k' := by
  induction g generalizing g' with
  | nil =>
    cases g' with
    | nil => simpa [flatKey] using h
    | cons y ys =>
      exfalso
      simp only [flatKey, List.nil_append, List.cons_append, List.cons.injEq] at h
      exact hg' (by simp [h.1])
  | cons x xs ih =>
    cases g' with
    | nil =>
      exfalso
      simp only [flatKey, List.nil_append, List.cons_append, List.cons.injEq] at h
      exact hg (by simp [h.1])
    | cons y ys =>
      simp only [flatKey, List.cons_append, List.cons.injEq] at h
      obtain ⟨rfl, hrest⟩ := h
      obtain ⟨rfl, rfl⟩ := ih (fun hm => hg (List.mem_cons_of_mem _ hm))
        (fun hm => hg' (List.mem_cons_of_mem _ hm)) hrest
      exact ⟨rfl, rfl⟩

/-- A flat key begins with the prefix of its own group and of no other. -/
theorem groupPrefix_isPrefix_iff (hg : sep ∉ g) (hg' : sep ∉ g') :
    groupPrefix sep g <+: flatKey sep g' k ↔ g' = g := by
  constructor
  · rintro ⟨t, ht⟩
    rw [← flatKey_eq_append] at ht
    exact (flatKey_inj hg hg' ht).1.symm
  · rintro rfl
    exact ⟨k, (flatKey_eq_append sep g' k).symm⟩

section Order

variable [Ord α] [Std.LawfulEqOrd α]

/-- Inside a group the keys keep their own order. -/
theorem compare_flatKey_self (sep : α) (g k k' : List α) :
    compare (flatKey sep g k) (flatKey sep g k') = compare k k' := by
  induction g with
  | nil => simp [flatKey, Ordering.then]
  | cons x xs ih =>
    simp only [flatKey, List.cons_append, List.compare_cons_cons, Std.compare_self] at ih ⊢
    exact ih

lemma compare_then_of_ne {x y : α} (h : x ≠ y) (o o' : Ordering) :
    (compare x y).then o = (compare x y).then o' := by
  have hne : compare x y ≠ .eq := fun he => h (Std.LawfulEqOrd.eq_of_compare he)
  cases hc : compare x y with
  | eq => exact absurd hc hne
  | lt => rfl
  | gt => rfl

/-- Keys of different groups are ordered as the prefixes of their groups are. -/
theorem compare_flatKey_of_ne (hg : sep ∉ g) (hg' : sep ∉ g') (hne : g ≠ g') :
    compare (flatKey sep g k) (flatKey sep g' k')
      = compare (groupPrefix sep g) (groupPrefix sep g') := by
  induction g generalizing g' with
  | nil =>
    cases g' with
    | nil => exact absurd rfl hne
    | cons y ys =>
      have hy : sep ≠ y := fun he => hg' (by simp [he])
      simp only [flatKey, groupPrefix, List.nil_append, List.cons_append,
        List.compare_cons_cons]
      exact compare_then_of_ne hy _ _
  | cons x xs ih =>
    cases g' with
    | nil =>
      have hx : x ≠ sep := fun he => hg (by simp [he])
      simp only [flatKey, groupPrefix, List.nil_append, List.cons_append,
        List.compare_cons_cons]
      exact compare_then_of_ne hx _ _
    | cons y ys =>
      simp only [flatKey, groupPrefix, List.cons_append, List.compare_cons_cons]
      by_cases hxy : x = y
      · subst hxy
        have hne' : xs ≠ ys := fun he => hne (by rw [he])
        have hrec := ih (fun hm => hg (List.mem_cons_of_mem _ hm))
          (fun hm => hg' (List.mem_cons_of_mem _ hm)) hne'
        simp only [flatKey, groupPrefix] at hrec
        rw [hrec]
      · exact compare_then_of_ne hxy _ _

end Order

/-! ## Lists sorted by their keys -/

section Sorted

variable {κ β : Type*} [Ord κ] [Std.OrientedOrd κ]

lemma compare_asymm {x y : κ} (h : compare x y = .lt) : ¬ compare y x = .lt := by
  rw [Std.OrientedCmp.gt_of_lt h]
  exact Ordering.noConfusion

/-- Of two entries of a sorted list with different keys, one stands before the other, and
what holds of the pairs of the list in their order holds of the two. -/
lemma rel_of_compare_lt {R : κ × β → κ × β → Prop} {l : List (κ × β)}
    (hsorted : l.Pairwise fun x y => compare x.1 y.1 = .lt) (hR : l.Pairwise R)
    {x y : κ × β} (hx : x ∈ l) (hy : y ∈ l) (hlt : compare x.1 y.1 = .lt) : R x y := by
  have hboth : l.Pairwise fun x y =>
      (compare x.1 y.1 = .lt ∧ R x y) ∨ (compare y.1 x.1 = .lt ∧ R y x) :=
    (hsorted.and hR).imp fun h => Or.inl h
  have hne : x ≠ y := by
    rintro rfl
    exact compare_asymm hlt hlt
  have hsymm : Std.Symm fun x y : κ × β =>
      (compare x.1 y.1 = .lt ∧ R x y) ∨ (compare y.1 x.1 = .lt ∧ R y x) := ⟨fun _ _ => Or.symm⟩
  rcases hboth.forall hx hy hne with h | h
  · exact h.2
  · exact absurd h.1 (compare_asymm hlt)

/-- A list sorted by its keys is determined by its members. -/
theorem eq_of_sorted {l₁ l₂ : List (κ × β)}
    (h₁ : l₁.Pairwise fun x y => compare x.1 y.1 = .lt)
    (h₂ : l₂.Pairwise fun x y => compare x.1 y.1 = .lt)
    (hmem : ∀ x, x ∈ l₁ ↔ x ∈ l₂) : l₁ = l₂ := by
  have hnodup : ∀ l : List (κ × β), l.Pairwise (fun x y => compare x.1 y.1 = .lt) →
      l.Nodup := by
    intro l hl
    refine hl.imp ?_
    rintro x y hlt rfl
    exact compare_asymm hlt hlt
  refine List.Perm.eq_of_pairwise (fun x y _ _ hxy hyx => ?_) h₁ h₂
    ((List.perm_ext_iff_of_nodup (hnodup _ h₁) (hnodup _ h₂)).mpr hmem)
  exact absurd hyx (compare_asymm hxy)

end Sorted

/-! ## Scans that stop at the first failure -/

section Scan

variable {β : Type*} {p : β → Bool}

lemma takeWhile_sublist_filter (l : List β) : (l.takeWhile p).Sublist (l.filter p) := by
  induction l with
  | nil => simp
  | cons x l ih =>
    by_cases hx : p x = true
    · rw [List.takeWhile_cons_of_pos hx, List.filter_cons_of_pos hx]
      exact ih.cons_cons x
    · rw [List.takeWhile_cons_of_neg hx]
      exact List.nil_sublist _

/-- A scan that stops at the first element outside `p` sees all of `p` exactly when no
element outside `p` stands before one inside. -/
theorem takeWhile_eq_filter_iff (l : List β) :
    l.takeWhile p = l.filter p ↔ l.Pairwise fun x y => p y = true → p x = true := by
  induction l with
  | nil => simp
  | cons x l ih =>
    by_cases hx : p x = true
    · rw [List.takeWhile_cons_of_pos hx, List.filter_cons_of_pos hx, List.pairwise_cons,
        List.cons.injEq, ih]
      exact ⟨fun h => ⟨fun _ _ _ => hx, h.2⟩, fun h => ⟨rfl, h.2⟩⟩
    · rw [List.takeWhile_cons_of_neg hx, List.filter_cons_of_neg hx, List.pairwise_cons]
      constructor
      · intro h
        have hnone : ∀ y ∈ l, ¬ p y = true := List.filter_eq_nil_iff.mp h.symm
        refine ⟨fun y hy hpy => absurd hpy (hnone y hy), ?_⟩
        exact List.Pairwise.imp_of_mem (fun _ hy _ hpy => absurd hpy (hnone _ hy))
          (List.pairwise_of_forall (R := fun _ _ => True) fun _ _ => trivial)
      · rintro ⟨hfirst, -⟩
        exact (List.filter_eq_nil_iff.mpr fun y hy hpy => hx (hfirst y hy hpy)).symm

end Scan

end Arcsent.Lib
