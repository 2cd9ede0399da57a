/-
# Paths that a multiplexer leaves alone

`cleanPath` works off the components of a path.  A path is its own clean form when its
components are names, but for an empty last one; putting a name in front of a path makes
no difference to that.
-/
import Arcsent.Go.ServeMux

namespace Arcsent.Go

open Arcsent.Lib
open Filepath (separator dot)

variable {rest : Bytes} {parts : List Bytes}

/-! ## The clean form on components -/

/-- Names that make up the root make up nothing. -/
lemma fromRoot_eq_root_iff (hparts : ∀ c ∈ parts, IsName dot c)
    (hsep : ∀ c ∈ parts, separator ∉ c) : fromRoot separator parts = [separator] ↔ parts = [] := by
  constructor
  · intro hroot
    by_contra hne
    have hsplit := splitOn_fromRoot hsep hne
    rw [hroot] at hsplit
    obtain rfl : [[]] = parts := (List.cons.inj hsplit).2
    exact (hparts [] List.mem_cons_self).1 rfl
  · rintro rfl
    rfl

/-- The clean form has the components that are left, and a slash at the end if there was
one. -/
lemma cleanPath_eq (rest : Bytes) :
    cleanPath (separator :: rest) =
      let parts := resolve dot true (rest.splitOn separator)
      if (separator :: rest).getLast? = some separator ∧ parts ≠ [] then
        fromRoot separator (parts ++ [[]])
      else fromRoot separator parts := by
  have hsplit : (separator :: rest).splitOn separator = [] :: rest.splitOn separator := by
    rw [List.splitOn_cons_eq_if_modifyHead]
    simp
  have hclean : Filepath.clean (separator :: rest) =
      fromRoot separator (resolve dot true (rest.splitOn separator)) := by
    rw [Filepath.clean_of_rooted rfl, hsplit, resolve_nil_cons]
  rw [cleanPath]
  dsimp only
  rw [List.head?_cons, if_pos rfl, hclean]
  generalize hparts : resolve dot true (rest.splitOn separator) = parts
  have hnames : ∀ c ∈ parts, IsName dot c := fun c hc => isName_of_mem_resolve (hparts ▸ hc)
  have hsep : ∀ c ∈ parts, separator ∉ c := fun c hc =>
    sep_notMem_of_mem_splitOn (mem_resolve (hparts ▸ hc)).1
  simp only [ne_eq, fromRoot_eq_root_iff hnames hsep]
  split_ifs with hend
  · rw [fromRoot_concat hend.2]
  · rfl

/-- Nothing but slashes is added to a path. -/
lemma mem_of_mem_cleanPath {path : Bytes} {b : UInt8} (h : b ∈ cleanPath path) :
    b ∈ path ∨ b = separator := by
  have hmain (rest : Bytes) (hb : b ∈ cleanPath (separator :: rest)) :
      b ∈ rest ∨ b = separator := by
    have hparts : ∀ c ∈ resolve dot true (rest.splitOn separator), b ∈ c → b ∈ rest := fun c hc =>
      mem_of_mem_splitOn (mem_resolve hc).1 b
    rw [cleanPath_eq] at hb
    dsimp only at hb
    split_ifs at hb
    · rcases mem_of_mem_fromRoot hb with hslash | ⟨c, hc, hmem⟩
      · exact .inr hslash
      · rcases List.mem_append.mp hc with hc | hc
        · exact .inl (hparts c hc hmem)
        · -- the empty component behind the last slash
          rw [List.mem_singleton.mp hc] at hmem
          exact absurd hmem List.not_mem_nil
    · rcases mem_of_mem_fromRoot hb with hslash | ⟨c, hc, hmem⟩
      · exact .inr hslash
      · exact .inl (hparts c hc hmem)
  by_cases hrooted : path.head? = some separator
  · obtain ⟨rest, rfl⟩ := List.head?_eq_some_iff.mp hrooted
    exact (hmain rest h).imp_left (List.mem_cons_of_mem _)
  · -- a slash is put in front of any other path
    refine hmain path ?_
    rw [cleanPath] at h ⊢
    rwa [if_neg hrooted] at h

/-- Components of a path that is its own clean form: names, and at the end a name or
nothing. -/
def CleanComponents (parts : List Bytes) : Prop :=
  ∃ init last, parts = init ++ [last] ∧ (∀ c ∈ init, IsName dot c) ∧
    (last = [] ∨ IsName dot last)

lemma cleanComponents_of_isName (hne : parts ≠ []) (h : ∀ c ∈ parts, IsName dot c) :
    CleanComponents parts :=
  ⟨parts.dropLast, parts.getLast hne, (List.dropLast_append_getLast hne).symm,
    fun c hc => h c (List.mem_of_mem_dropLast hc), .inr (h _ (List.getLast_mem hne))⟩

/-- **A path from the root is its own clean form** exactly when its components are clean. -/
theorem cleanPath_eq_self_iff (rest : Bytes) :
    cleanPath (separator :: rest) = separator :: rest ↔
      CleanComponents (rest.splitOn separator) := by
  have hsep : ∀ c ∈ rest.splitOn separator, separator ∉ c := fun c hc =>
    sep_notMem_of_mem_splitOn hc
  have hpath : separator :: rest = fromRoot separator (rest.splitOn separator) :=
    (fromRoot_splitOn rest).symm
  have hcomps : rest.splitOn separator ≠ [] := List.splitOn_ne_nil separator rest
  rw [cleanPath_eq]
  dsimp only
  generalize rest.splitOn separator = comps at hsep hpath hcomps
  rw [hpath]
  constructor
  · -- the components are those of the clean form, read back
    intro hself
    have hnames : ∀ c ∈ resolve dot true comps, IsName dot c := fun c hc =>
      isName_of_mem_resolve hc
    have hsep' : ∀ c ∈ resolve dot true comps, separator ∉ c := fun c hc =>
      hsep c (mem_resolve hc).1
    have hback := splitOn_fromRoot hsep hcomps
    by_cases hparts : resolve dot true comps = []
    · rw [hparts] at hself
      simp only [ne_eq, not_true, and_false, if_false] at hself
      rw [← hself] at hback
      exact ⟨[], [], (List.cons.inj hback).2.symm, by simp, .inl rfl⟩
    · split_ifs at hself
      · rw [← hself, splitOn_fromRoot _ (by simp)] at hback
        · exact ⟨_, [], (List.cons.inj hback).2.symm, hnames, .inl rfl⟩
        · intro c hc
          rcases List.mem_append.mp hc with hc | hc
          · exact hsep' c hc
          · simp [List.mem_singleton.mp hc]
      · rw [← hself, splitOn_fromRoot hsep' hparts] at hback
        rw [← (List.cons.inj hback).2]
        exact cleanComponents_of_isName hparts hnames
  · rintro ⟨init, last, rfl, hinit, hlast⟩
    have hend := getLast?_fromRoot_concat init (hsep last (by simp))
    simp only [hend]
    rcases hlast with rfl | hlast
    · -- a slash at the end stays, and is all there is at the root
      have hresolve : resolve dot true (init ++ [[]]) = init := by
        rw [resolve_append (by simp), resolve_of_isName hinit]
        simp [IsName]
      rw [hresolve]
      split_ifs with hne
      · rfl
      · have hnil : init = [] := by simpa using hne
        simp [hnil, fromRoot]
    · have hnames : ∀ c ∈ init ++ [last], IsName dot c := by
        intro c hc
        rcases List.mem_append.mp hc with hc | hc
        · exact hinit c hc
        · exact List.mem_singleton.mp hc ▸ hlast
      rw [resolve_of_isName hnames, if_neg fun h => hlast.1 h.1]

/-- A name in front makes no difference. -/
lemma cleanComponents_cons {c : Bytes} (hc : IsName dot c) (hne : parts ≠ []) :
    CleanComponents (c :: parts) ↔ CleanComponents parts := by
  constructor
  · rintro ⟨init, last, heq, hinit, hlast⟩
    cases init with
    | nil => exact absurd (List.cons.inj heq).2 hne
    | cons d init =>
      exact ⟨init, last, (List.cons.inj heq).2,
        fun e he => hinit e (List.mem_cons_of_mem _ he), hlast⟩
  · rintro ⟨init, last, rfl, hinit, hlast⟩
    exact ⟨c :: init, last, rfl, List.forall_mem_cons.mpr ⟨hc, hinit⟩, hlast⟩

/-- A path below another directory is its own clean form when the path is. -/
theorem cleanPath_prefix_iff {dir : Bytes} (hname : IsName dot dir) (hsep : separator ∉ dir)
    (rest : Bytes) :
    cleanPath (separator :: (dir ++ separator :: rest)) = separator :: (dir ++ separator :: rest) ↔
      cleanPath (separator :: rest) = separator :: rest := by
  rw [cleanPath_eq_self_iff, cleanPath_eq_self_iff,
    List.splitOn_append_cons_self_of_not_mem hsep,
    cleanComponents_cons hname (List.splitOn_ne_nil separator rest)]

end Arcsent.Go
