/-
# Paths as lists of components

A path is a list of letters over any alphabet, one of which separates its components.  To
clean a path is to work its components off from left to right: an empty one and a single
dot are dropped, and two dots take back the component before.  On the components this is a
stack; what two dots do to an empty stack depends on whether the path begins at the root.
-/
import Mathlib.Data.List.Basic
import Mathlib.Data.List.Infix

namespace Arcsent.Lib

variable {α : Type*} [DecidableEq α]

/-! ## Working off the components -/

/-- A component that names something: it is neither empty nor made of one or two dots. -/
def IsName (dot : α) (c : List α) : Prop := c ≠ [] ∧ c ≠ [dot] ∧ c ≠ [dot, dot]

instance (dot : α) (c : List α) : Decidable (IsName dot c) :=
  inferInstanceAs (Decidable (_ ∧ _ ∧ _))

/-- What two dots do to the stack, which has the last component on top. -/
def goUp (dot : α) (rooted : Bool) : List (List α) → List (List α)
  | [] => if rooted then [] else [[dot, dot]]
  | top :: rest => if top = [dot, dot] then [dot, dot] :: top :: rest else rest

/-- One component is worked off. -/
def enter (dot : α) (rooted : Bool) (stack : List (List α)) (c : List α) : List (List α) :=
  if c = [] ∨ c = [dot] then stack
  else if c = [dot, dot] then goUp dot rooted stack
  else c :: stack

/-- The components of the cleaned path. -/
def resolve (dot : α) (rooted : Bool) (parts : List (List α)) : List (List α) :=
  (parts.foldl (enter dot rooted) []).reverse

variable {dot : α} {rooted : Bool} {parts more : List (List α)} {c : List α}

lemma enter_of_isName (h : IsName dot c) (stack : List (List α)) :
    enter dot rooted stack c = c :: stack := by
  rw [enter, if_neg (not_or.mpr ⟨h.1, h.2.1⟩), if_neg h.2.2]

lemma enter_of_blank (h : c = [] ∨ c = [dot]) (stack : List (List α)) :
    enter dot rooted stack c = stack := by
  rw [enter, if_pos h]

@[simp] lemma resolve_nil : resolve dot rooted [] = [] := rfl

@[simp] lemma resolve_nil_cons : resolve dot rooted ([] :: parts) = resolve dot rooted parts := by
  rw [resolve, List.foldl_cons, enter_of_blank (.inl rfl), resolve]

lemma mem_goUp {stack : List (List α)} (h : c ∈ goUp dot rooted stack) :
    c ∈ stack ∨ c = [dot, dot] := by
  cases stack with
  | nil =>
    rw [goUp] at h
    split_ifs at h
    · exact .inl h
    · exact .inr (List.mem_singleton.mp h)
  | cons top rest =>
    rw [goUp] at h
    split_ifs at h
    · exact (List.mem_cons.mp h).symm
    · exact .inl (List.mem_cons_of_mem _ h)

/-- What a further component does to the stack. -/
lemma mem_enter {stack : List (List α)} {d : List α} (h : d ∈ enter dot rooted stack c) :
    d ∈ stack ∨ d = c ∧ c ≠ [] ∧ c ≠ [dot] := by
  rw [enter] at h
  split_ifs at h with hblank hup
  · exact .inl h
  · rcases mem_goUp h with hold | rfl
    · exact .inl hold
    · exact .inr ⟨hup.symm, not_or.mp hblank⟩
  · rcases List.mem_cons.mp h with rfl | hold
    · exact .inr ⟨rfl, not_or.mp hblank⟩
    · exact .inl hold

/-- Nothing is made up, and what is dropped is not there. -/
lemma mem_resolve (h : c ∈ resolve dot rooted parts) : c ∈ parts ∧ c ≠ [] ∧ c ≠ [dot] := by
  rw [resolve, List.mem_reverse] at h
  suffices hmain : ∀ stack : List (List α), c ∈ parts.foldl (enter dot rooted) stack →
      c ∈ stack ∨ c ∈ parts ∧ c ≠ [] ∧ c ≠ [dot] from
    (hmain [] h).resolve_left List.not_mem_nil
  clear h
  induction parts with
  | nil => exact fun stack hc => .inl hc
  | cons d parts ih =>
    intro stack hc
    rcases ih _ hc with hstack | ⟨hmem, hne⟩
    · rcases mem_enter hstack with hold | ⟨rfl, hne⟩
      · exact .inl hold
      · exact .inr ⟨List.mem_cons_self, hne⟩
    · exact .inr ⟨List.mem_cons_of_mem _ hmem, hne⟩

/-- Below the root there are names only. -/
lemma isName_of_mem_resolve (h : c ∈ resolve dot true parts) : IsName dot c := by
  refine ⟨(mem_resolve h).2.1, (mem_resolve h).2.2, ?_⟩
  rw [resolve, List.mem_reverse] at h
  suffices hmain : ∀ stack : List (List α), (∀ d ∈ stack, d ≠ [dot, dot]) →
      ∀ d ∈ parts.foldl (enter dot true) stack, d ≠ [dot, dot] from
    hmain [] (fun _ hd => absurd hd List.not_mem_nil) c h
  clear h
  induction parts with
  | nil => exact fun stack hstack => hstack
  | cons d parts ih =>
    intro stack hstack
    refine ih _ fun e he => ?_
    rw [enter] at he
    split_ifs at he with hblank hup
    · exact hstack e he
    · -- two dots take the top away, which is not two dots itself
      cases stack with
      | nil => exact absurd he List.not_mem_nil
      | cons top rest =>
        have htop : top ≠ [dot, dot] := hstack top List.mem_cons_self
        rw [goUp, if_neg htop] at he
        exact hstack e (List.mem_cons_of_mem _ he)
    · rcases List.mem_cons.mp he with rfl | hold
      · exact hup
      · exact hstack e hold

/-- Two dots are left at the front only. -/
lemma head?_resolve (h : [dot, dot] ∈ resolve dot rooted parts) :
    (resolve dot rooted parts).head? = some [dot, dot] := by
  rw [resolve, List.mem_reverse] at h
  rw [resolve, List.head?_reverse]
  suffices hmain : ∀ stack : List (List α),
      ([dot, dot] ∈ stack → stack.getLast? = some [dot, dot]) →
      [dot, dot] ∈ parts.foldl (enter dot rooted) stack →
      (parts.foldl (enter dot rooted) stack).getLast? = some [dot, dot] from
    hmain [] (fun hmem => absurd hmem List.not_mem_nil) h
  clear h
  induction parts with
  | nil => exact fun stack hstack => hstack
  | cons c parts ih =>
    intro stack hstack
    refine ih _ fun hmem => ?_
    rw [enter] at hmem ⊢
    split_ifs at hmem ⊢ with hblank hup
    · exact hstack hmem
    · cases stack with
      | nil =>
        rw [goUp] at hmem ⊢
        split_ifs at hmem ⊢
        · exact absurd hmem List.not_mem_nil
        · rfl
      | cons top rest =>
        rw [goUp] at hmem ⊢
        split_ifs at hmem ⊢ with htop
        · rw [List.getLast?_cons_cons]
          exact hstack (htop ▸ List.mem_cons_self)
        · -- what is below a name that is taken back
          have hbelow := hstack (List.mem_cons_of_mem _ hmem)
          rwa [List.getLast?_cons_of_ne_nil (List.ne_nil_of_mem hmem)] at hbelow
    · have hrest : [dot, dot] ∈ stack := (List.mem_cons.mp hmem).resolve_left (Ne.symm hup)
      rw [List.getLast?_cons_of_ne_nil (List.ne_nil_of_mem hrest)]
      exact hstack hrest

/-- Further components that do not go up are added, as far as they are names. -/
lemma resolve_append (hmore : [dot, dot] ∉ more) :
    resolve dot rooted (parts ++ more)
      = resolve dot rooted parts ++ more.filter (IsName dot) := by
  suffices hmain : ∀ stack : List (List α), (more.foldl (enter dot rooted) stack).reverse
      = stack.reverse ++ more.filter (IsName dot) by
    rw [resolve, List.foldl_append, hmain, resolve]
  induction more with
  | nil => simp
  | cons d more ih =>
    intro stack
    obtain ⟨hd, hmore⟩ := not_or.mp (fun h => hmore (List.mem_cons.mpr h))
    rw [List.foldl_cons, ih hmore]
    by_cases hblank : d = [] ∨ d = [dot]
    · have hname : ¬ IsName dot d := fun h => hblank.elim h.1 h.2.1
      rw [enter_of_blank hblank, List.filter_cons_of_neg (by simpa using hname)]
    · have hname : IsName dot d := ⟨(not_or.mp hblank).1, (not_or.mp hblank).2, Ne.symm hd⟩
      rw [enter_of_isName hname, List.filter_cons_of_pos (by simpa using hname)]
      simp

/-- What has been worked off is all that counts for what comes after it. -/
lemma resolve_append_congr {parts' : List (List α)}
    (h : resolve dot rooted parts = resolve dot rooted parts') :
    resolve dot rooted (parts ++ more) = resolve dot rooted (parts' ++ more) := by
  have hstack : parts.foldl (enter dot rooted) [] = parts'.foldl (enter dot rooted) [] :=
    List.reverse_injective h
  rw [resolve, resolve, List.foldl_append, List.foldl_append, hstack]

/-- Below the root two dots take the last component back. -/
lemma resolve_concat_up :
    resolve dot true (parts ++ [[dot, dot]]) = (resolve dot true parts).dropLast := by
  have hnames : ∀ c ∈ resolve dot true parts, IsName dot c := fun c hc => isName_of_mem_resolve hc
  have hblank : ¬ ([dot, dot] = [] ∨ [dot, dot] = [dot]) := by simp
  rw [resolve, List.foldl_append, List.foldl_cons, List.foldl_nil, enter, if_neg hblank, if_pos rfl]
  rw [resolve] at hnames ⊢
  cases hstack : parts.foldl (enter dot true) [] with
  | nil => rfl
  | cons top rest =>
    rw [hstack] at hnames
    have htop : top ≠ [dot, dot] := (hnames top (by simp)).2.2
    rw [goUp, if_neg htop, List.reverse_cons, List.dropLast_concat]

/-- Names stay as they are. -/
lemma resolve_of_isName (h : ∀ c ∈ parts, IsName dot c) : resolve dot rooted parts = parts := by
  have hup : [dot, dot] ∉ parts := fun hmem => (h _ hmem).2.2 rfl
  have hresolve : resolve dot rooted ([] ++ parts) =
      resolve dot rooted [] ++ parts.filter (IsName dot) := resolve_append hup
  rw [List.nil_append, resolve_nil, List.nil_append] at hresolve
  rw [hresolve, List.filter_eq_self]
  exact fun c hc => by simpa using h c hc

/-! ## Paths from the root -/

/-- The path from the root with given components. -/
def fromRoot (sep : α) (parts : List (List α)) : List α := sep :: [sep].intercalate parts

variable {sep : α}

/-- No component of a path has the separator in it. -/
lemma sep_notMem_of_mem_splitOn {path : List α} (h : c ∈ path.splitOn sep) : sep ∉ c := by
  induction path generalizing c with
  | nil =>
    rw [List.splitOn_nil, List.mem_singleton] at h
    simp [h]
  | cons a path ih =>
    rw [List.splitOn_cons_eq_if_modifyHead] at h
    split_ifs at h with ha
    · rcases List.mem_cons.mp h with rfl | hrest
      · exact List.not_mem_nil
      · exact ih hrest
    · obtain ⟨first, rest, hsplit⟩ := List.exists_cons_of_ne_nil (List.splitOn_ne_nil sep path)
      rw [hsplit, List.modifyHead_cons] at h
      rcases List.mem_cons.mp h with rfl | hrest
      · have hne : sep ≠ a := fun heq => ha (by simp [heq])
        have hfirst : sep ∉ first := ih (by simp [hsplit])
        simp [hne, hfirst]
      · exact ih (by simp [hsplit, hrest])

/-- What is in a component is in the path. -/
lemma mem_of_mem_splitOn {path : List α} (h : c ∈ path.splitOn sep) : ∀ a ∈ c, a ∈ path := by
  induction path generalizing c with
  | nil =>
    rw [List.splitOn_nil, List.mem_singleton] at h
    simp [h]
  | cons b path ih =>
    rw [List.splitOn_cons_eq_if_modifyHead] at h
    intro a ha
    split_ifs at h
    · rcases List.mem_cons.mp h with rfl | hrest
      · exact absurd ha List.not_mem_nil
      · exact List.mem_cons_of_mem _ (ih hrest a ha)
    · obtain ⟨first, rest, hsplit⟩ := List.exists_cons_of_ne_nil (List.splitOn_ne_nil sep path)
      rw [hsplit, List.modifyHead_cons] at h
      rcases List.mem_cons.mp h with rfl | hrest
      · rcases List.mem_cons.mp ha with rfl | hfirst
        · exact List.mem_cons_self
        · exact List.mem_cons_of_mem _ (ih (by simp [hsplit]) a hfirst)
      · exact List.mem_cons_of_mem _ (ih (by simp [hsplit, hrest]) a ha)

/-- A path from the root is that of its components. -/
lemma fromRoot_splitOn (path : List α) : fromRoot sep (path.splitOn sep) = sep :: path := by
  rw [fromRoot, List.intercalate_splitOn]

/-- The components of a path from the root can be read back from it. -/
lemma splitOn_fromRoot (hparts : ∀ c ∈ parts, sep ∉ c) (hne : parts ≠ []) :
    (fromRoot sep parts).splitOn sep = [] :: parts := by
  have hsplit := List.splitOn_append_cons_self (a := sep) [] ([sep].intercalate parts)
  rw [List.nil_append, List.splitOn_nil, List.splitOn_intercalate sep hparts hne] at hsplit
  exact hsplit

omit [DecidableEq α] in
/-- What is in a path that is put together is a separator or in one of the components. -/
lemma mem_of_mem_fromRoot {b : α} (h : b ∈ fromRoot sep parts) :
    b = sep ∨ ∃ c ∈ parts, b ∈ c := by
  rcases List.mem_cons.mp h with hslash | hjoin
  · exact .inl hslash
  clear h
  induction parts with
  | nil => exact absurd hjoin List.not_mem_nil
  | cons c parts ih =>
    by_cases hnil : parts = []
    · rw [hnil, List.intercalate_singleton] at hjoin
      exact .inr ⟨c, List.mem_cons_self, hjoin⟩
    · rw [List.intercalate_cons_of_ne_nil hnil, List.mem_append, List.mem_append] at hjoin
      rcases hjoin with (hc | hslash) | hrest
      · exact .inr ⟨c, List.mem_cons_self, hc⟩
      · exact .inl (List.mem_singleton.mp hslash)
      · rcases ih hrest with hslash | ⟨d, hd, hmem⟩
        · exact .inl hslash
        · exact .inr ⟨d, List.mem_cons_of_mem _ hd, hmem⟩

omit [DecidableEq α] in
lemma fromRoot_cons (c : List α) (hne : parts ≠ []) :
    fromRoot sep (c :: parts) = sep :: (c ++ fromRoot sep parts) := by
  rw [fromRoot, List.intercalate_cons_of_ne_nil hne, fromRoot, List.append_assoc,
    List.singleton_append]

omit [DecidableEq α] in
/-- A further component comes after a separator. -/
lemma fromRoot_concat (hne : parts ≠ []) (c : List α) :
    fromRoot sep (parts ++ [c]) = fromRoot sep parts ++ sep :: c := by
  induction parts with
  | nil => exact absurd rfl hne
  | cons d parts ih =>
    rw [List.cons_append, fromRoot_cons d (by simp)]
    cases parts with
    | nil => simp [fromRoot]
    | cons e parts =>
      rw [ih (List.cons_ne_nil e parts), fromRoot_cons d (List.cons_ne_nil e parts)]
      simp

omit [DecidableEq α] in
/-- Further components are a path from the root that comes after the first one. -/
lemma fromRoot_append (hparts : parts ≠ []) (hmore : more ≠ []) :
    fromRoot sep (parts ++ more) = fromRoot sep parts ++ fromRoot sep more := by
  induction parts with
  | nil => exact absurd rfl hparts
  | cons c parts ih =>
    rw [List.cons_append, fromRoot_cons c (List.append_ne_nil_of_right_ne_nil parts hmore)]
    cases parts with
    | nil => simp [fromRoot]
    | cons d parts =>
      rw [ih (List.cons_ne_nil d parts), fromRoot_cons c (List.cons_ne_nil d parts)]
      simp

omit [DecidableEq α] in
lemma exists_fromRoot_cons (sep : α) (c : List α) (rest : List (List α)) :
    ∃ more, fromRoot sep (c :: rest) = sep :: (c ++ more) := by
  cases rest with
  | nil => exact ⟨[], by simp [fromRoot]⟩
  | cons d rest => exact ⟨_, fromRoot_cons c (List.cons_ne_nil d rest)⟩

omit [DecidableEq α] in
lemma exists_fromRoot_concat (sep : α) (init : List (List α)) (last : List α) :
    ∃ pre, fromRoot sep (init ++ [last]) = pre ++ sep :: last := by
  cases init with
  | nil => exact ⟨[], by simp [fromRoot]⟩
  | cons c init => exact ⟨_, fromRoot_concat (List.cons_ne_nil c init) last⟩

omit [DecidableEq α] in
/-- It ends with the separator when that component is empty. -/
lemma getLast?_fromRoot_concat (init : List (List α)) {last : List α} (hlast : sep ∉ last) :
    (fromRoot sep (init ++ [last])).getLast? = some sep ↔ last = [] := by
  obtain ⟨pre, hpre⟩ := exists_fromRoot_concat sep init last
  rw [hpre, List.getLast?_append_of_ne_nil _ (List.cons_ne_nil sep last)]
  cases last with
  | nil => simp
  | cons a last =>
    rw [List.getLast?_cons_cons]
    refine iff_of_false (fun h => hlast ?_) (List.cons_ne_nil a last)
    exact List.mem_of_getLast? h

end Arcsent.Lib
