/-
# Trees of files

A tree of directories and files, given by the names on the way to each.  Whatever there is
lies in a directory, which a tree carries as a fact.  All that an operation does is to
replace the entry of one path where that keeps the fact, and of the files themselves it is
enough to know what each path holds.
-/
import Mathlib.Data.List.Infix
import Mathlib.Logic.Function.Basic

namespace Arcsent.Lib

/-- What a path can lead to. -/
inductive Node (β : Type*)
  | dir
  | file (content : β)
deriving DecidableEq

/-- What a file holds. -/
def Node.content? {β : Type*} : Node β → Option β
  | dir => none
  | file content => some content

/-- A tree of files, whose names are in `κ` and which hold values in `β`. -/
structure FileTree (κ β : Type*) where
  node : List κ → Option (Node β)
  root : node [] = some .dir
  parent : ∀ path, node path ≠ none → node path.dropLast = some .dir

namespace FileTree

variable {κ β : Type*} [DecidableEq κ] [DecidableEq β] {t u : FileTree κ β}
  {path other src dst : List κ} {n : Option (Node β)} {c : β}

/-- What the file of a path holds, if there is one. -/
def content (t : FileTree κ β) (path : List κ) : Option β := (t.node path).bind Node.content?

/-- The tree with nothing in it. -/
def empty : FileTree κ β where
  node path := if path = [] then some .dir else none
  root := if_pos rfl
  parent path h := by
    have hpath : path = [] := by
      by_contra hne
      exact h (if_neg hne)
    rw [hpath]
    rfl

omit [DecidableEq κ] [DecidableEq β] in
lemma content_empty (path : List κ) : (empty : FileTree κ β).content path = none := by
  rw [content, empty]
  dsimp only
  split_ifs <;> rfl

/-- The entry of a path can be replaced: it is no directory, and what is new lies in one. -/
structure Replaceable (t : FileTree κ β) (path : List κ) (n : Option (Node β)) : Prop where
  notDir : t.node path ≠ some .dir
  parent : n ≠ none → t.node path.dropLast = some .dir

instance (t : FileTree κ β) (path : List κ) (n : Option (Node β)) :
    Decidable (t.Replaceable path n) :=
  decidable_of_iff (t.node path ≠ some .dir ∧ (n ≠ none → t.node path.dropLast = some .dir))
    ⟨fun h => ⟨h.1, h.2⟩, fun h => ⟨h.1, h.2⟩⟩

/-- The tree with the entry of a path replaced. -/
def replace (t : FileTree κ β) (path : List κ) (n : Option (Node β)) (h : t.Replaceable path n) :
    FileTree κ β where
  node := Function.update t.node path n
  root := by
    have hne : ([] : List κ) ≠ path := by
      rintro rfl
      exact h.notDir t.root
    rw [Function.update_of_ne hne, t.root]
  parent := by
    -- a directory is not the path itself
    have hkeep (p : List κ) (hp : t.node p = some .dir) :
        Function.update t.node path n p = some .dir := by
      have hne : p ≠ path := by
        rintro rfl
        exact h.notDir hp
      rw [Function.update_of_ne hne, hp]
    intro p hp
    by_cases heq : p = path
    · subst heq
      rw [Function.update_self] at hp
      exact hkeep _ (h.parent hp)
    · rw [Function.update_of_ne heq] at hp
      exact hkeep _ (t.parent p hp)

/-- The entry of a path is replaced where it can be. -/
def set (t : FileTree κ β) (path : List κ) (n : Option (Node β)) : Option (FileTree κ β) :=
  if h : t.Replaceable path n then some (t.replace path n h) else none

/-! ## The operations -/

/-- A directory is made where nothing is. -/
def makeDir (t : FileTree κ β) (path : List κ) : FileTree κ β :=
  if t.node path = none then (t.set path (some .dir)).getD t else t

/-- Directories are made one after the other. -/
def makeDirs (t : FileTree κ β) (paths : List (List κ)) : FileTree κ β := paths.foldl makeDir t

/-- A file is written, over the file that may be there. -/
def write (t : FileTree κ β) (path : List κ) (c : β) : Option (FileTree κ β) :=
  t.set path (some (.file c))

/-- A file is taken away, if there is one. -/
def unlink (t : FileTree κ β) (path : List κ) : FileTree κ β := (t.set path none).getD t

/-- A file gets another path, and takes the place of the file that may be there. -/
def rename (t : FileTree κ β) (src dst : List κ) : Option (FileTree κ β) :=
  (t.content src).bind fun c =>
    if src = dst then some t else (t.write dst c).map fun u => u.unlink src

/-! ## What they do to the entries -/

omit [DecidableEq κ] [DecidableEq β] in
lemma content_of_dir (h : t.node path = some .dir) : t.content path = none := by
  rw [content, h]
  rfl

omit [DecidableEq κ] [DecidableEq β] in
/-- What is there and holds nothing is a directory. -/
lemma dir_of_content (hnode : t.node path ≠ none) (h : t.content path = none) :
    t.node path = some .dir := by
  rw [content] at h
  cases hn : t.node path with
  | none => exact absurd hn hnode
  | some n =>
    cases n with
    | dir => rfl
    | file c =>
      rw [hn] at h
      cases h

lemma node_of_set (h : t.set path n = some u) :
    t.Replaceable path n ∧ u.node = Function.update t.node path n := by
  rw [set] at h
  split_ifs at h with hcan
  obtain rfl := Option.some.inj h
  exact ⟨hcan, rfl⟩

lemma exists_set (h : t.Replaceable path n) : ∃ u, t.set path n = some u :=
  ⟨t.replace path n h, by rw [set, dif_pos h]⟩

/-- A directory stays one. -/
lemma dir_of_set (h : t.set path n = some u) (hdir : t.node other = some .dir) :
    u.node other = some .dir := by
  obtain ⟨hcan, hnode⟩ := node_of_set h
  have hne : other ≠ path := by
    rintro rfl
    exact hcan.notDir hdir
  rw [hnode, Function.update_of_ne hne, hdir]

lemma node_makeDir (t : FileTree κ β) (path other : List κ) :
    (t.makeDir path).node other = t.node other ∨
      other = path ∧ t.node other = none ∧ (t.makeDir path).node other = some .dir := by
  rw [makeDir]
  split_ifs with hnone
  · cases hset : t.set path (some .dir) with
    | none => exact .inl rfl
    | some u =>
      obtain ⟨-, hnode⟩ := node_of_set hset
      rw [Option.getD_some, hnode]
      by_cases heq : other = path
      · subst heq
        rw [Function.update_self]
        exact .inr ⟨rfl, hnone, rfl⟩
      · exact .inl (Function.update_of_ne heq _ _)
  · exact .inl rfl

/-- Making directories puts some where nothing was, and changes nothing else. -/
lemma node_makeDirs (t : FileTree κ β) (paths : List (List κ)) (other : List κ) :
    (t.makeDirs paths).node other = t.node other ∨
      other ∈ paths ∧ t.node other = none ∧ (t.makeDirs paths).node other = some .dir := by
  induction paths generalizing t with
  | nil => exact .inl rfl
  | cons path paths ih =>
    have hcons : t.makeDirs (path :: paths) = (t.makeDir path).makeDirs paths := rfl
    rw [hcons]
    rcases ih (t.makeDir path) with hrest | ⟨hmem, hnone, hdir⟩
    · rcases node_makeDir t path other with hfirst | ⟨rfl, hnone, hdir⟩
      · exact .inl (hrest.trans hfirst)
      · exact .inr ⟨List.mem_cons_self, hnone, hrest.trans hdir⟩
    · rcases node_makeDir t path other with hfirst | ⟨rfl, hnone', -⟩
      · exact .inr ⟨List.mem_cons_of_mem _ hmem, hfirst.symm.trans hnone, hdir⟩
      · exact .inr ⟨List.mem_cons_self, hnone', hdir⟩

/-! ## What they do to the files -/

lemma content_of_set (h : t.set path n = some u) :
    u.content = Function.update t.content path (n.bind Node.content?) := by
  obtain ⟨-, hnode⟩ := node_of_set h
  funext p
  rw [content, hnode]
  by_cases heq : p = path
  · rw [heq, Function.update_self, Function.update_self]
  · rw [Function.update_of_ne heq, Function.update_of_ne heq, content]

@[simp] lemma content_makeDirs (t : FileTree κ β) (paths : List (List κ)) :
    (t.makeDirs paths).content = t.content := by
  funext p
  rw [content, content]
  rcases node_makeDirs t paths p with hsame | ⟨-, hnone, hdir⟩
  · rw [hsame]
  · rw [hnone, hdir]
    rfl

/-- Where there are no files, the directories on the way to a path can all be made. -/
lemma node_makeDirs_inits (h : ∀ p, t.content p = none) (path : List κ) :
    (t.makeDirs path.inits).node path = some .dir := by
  induction path using List.reverseRecOn with
  | nil =>
    rcases node_makeDirs t [[]] [] with hsame | ⟨-, -, hdir⟩
    · exact hsame.trans t.root
    · exact hdir
  | append_singleton path name ih =>
    have hinits : (path ++ [name]).inits = path.inits ++ [path ++ [name]] := by simp
    rw [hinits, makeDirs, List.foldl_append]
    show ((t.makeDirs path.inits).makeDir (path ++ [name])).node (path ++ [name]) = some .dir
    set v := t.makeDirs path.inits with hv
    rw [makeDir]
    split_ifs with hnone
    · have hcan : v.Replaceable (path ++ [name]) (some .dir) := by
        refine ⟨by simp [hnone], fun _ => ?_⟩
        rw [List.dropLast_concat]
        exact ih
      obtain ⟨u, hu⟩ := exists_set hcan
      rw [hu, Option.getD_some, (node_of_set hu).2, Function.update_self]
    · refine dir_of_content hnone ?_
      rw [hv, content_makeDirs]
      exact h _

/-- A file that is there can be written. -/
lemma exists_write {old : β} (h : t.content path = some old) (c : β) :
    ∃ u, t.write path c = some u := by
  have hnode : t.node path ≠ none := by
    intro hnone
    rw [content, hnone] at h
    cases h
  have hnotDir : t.node path ≠ some .dir := by
    intro hdir
    rw [content_of_dir hdir] at h
    cases h
  exact exists_set ⟨hnotDir, fun _ => t.parent path hnode⟩

lemma content_of_write (h : t.write path c = some u) :
    u.content = Function.update t.content path (some c) := content_of_set h

@[simp] lemma content_unlink (t : FileTree κ β) (path : List κ) :
    (t.unlink path).content = Function.update t.content path none := by
  rw [unlink]
  cases hset : t.set path none with
  | some u => exact content_of_set hset
  | none =>
    -- only a directory cannot be taken away
    have hdir : t.node path = some .dir := by
      by_contra hne
      have hcan : t.Replaceable path none := ⟨hne, fun h => absurd rfl h⟩
      obtain ⟨u, hu⟩ := exists_set hcan
      rw [hu] at hset
      cases hset
    rw [Option.getD_none, ← content_of_dir hdir, Function.update_eq_self]

/-- What is left after a file has been taken away that was not there before. -/
lemma content_unlink_eq {before : List κ → Option β} (hbefore : before path = none)
    (h : ∀ other ≠ path, t.content other = before other) : (t.unlink path).content = before := by
  funext other
  rw [content_unlink]
  by_cases heq : other = path
  · rw [heq, Function.update_self, hbefore]
  · rw [Function.update_of_ne heq, h other heq]

lemma content_of_rename (h : t.rename src dst = some u) :
    ∃ c, t.content src = some c ∧
      u.content = if src = dst then t.content
        else Function.update (Function.update t.content dst (some c)) src none := by
  obtain ⟨c, hc, h⟩ := Option.bind_eq_some_iff.mp h
  refine ⟨c, hc, ?_⟩
  split_ifs at h ⊢ with hsame
  · rw [Option.some.inj h]
  · obtain ⟨v, hv, rfl⟩ := Option.map_eq_some_iff.mp h
    rw [content_unlink, content_of_write hv]

/-- What is renamed does not become a directory. -/
lemma notDir_of_rename (h : t.rename src dst = some u) : t.node dst ≠ some .dir := by
  obtain ⟨c, hc, h⟩ := Option.bind_eq_some_iff.mp h
  split_ifs at h with hsame
  · rintro hdir
    rw [hsame, content_of_dir hdir] at hc
    cases hc
  · obtain ⟨v, hv, -⟩ := Option.map_eq_some_iff.mp h
    exact (node_of_set hv).1.notDir

/-- A file can be renamed to a name in a directory that is no directory itself. -/
lemma exists_rename (hsrc : t.content src = some c) (hdst : t.node dst ≠ some .dir)
    (hdir : t.node dst.dropLast = some .dir) : ∃ u, t.rename src dst = some u := by
  rw [rename, hsrc, Option.bind_some]
  split_ifs
  · exact ⟨t, rfl⟩
  · obtain ⟨v, hv⟩ := exists_set (n := some (.file c)) ⟨hdst, fun _ => hdir⟩
    exact ⟨v.unlink src, by rw [write, hv, Option.map_some]⟩

end FileTree

end Arcsent.Lib
