/-
# Walks over a tree

A directory is met before what is in it, and what is in it in the order of its listing.  A
listing can fail half way: that is met after the directory, and the walk goes on with the
entries that have been listed.  What a walk meets is given by the names on the way to it,
as no two entries of a directory share a name.
-/
import Mathlib.Data.List.Nodup

namespace Arcsent.Lib

/-- A tree of directories.  What the other entries hold is found elsewhere. -/
inductive Listing (κ ε : Type*)
  | leaf
  | dir (err : Option ε) (entries : List (κ × Listing κ ε))

/-- What a walk meets at an entry. -/
inductive Met (ε : Type*)
  | leaf
  | dir
  | failed (err : ε)
deriving DecidableEq

namespace Listing

variable {κ ε : Type*}

/-- What there is to be met at the entry itself. -/
def here : Listing κ ε → List (Met ε)
  | leaf => [.leaf]
  | dir err _ => .dir :: err.toList.map .failed

mutual
/-- What a walk meets, each with the names on the way to it. -/
def walk (above : List κ) : Listing κ ε → List (List κ × Met ε)
  | leaf => [(above, .leaf)]
  | dir err entries =>
    (above, .dir) :: (err.toList.map fun e => (above, .failed e)) ++ walkAll above entries

/-- What a walk meets below a directory. -/
def walkAll (above : List κ) : List (κ × Listing κ ε) → List (List κ × Met ε)
  | [] => []
  | (name, t) :: rest => walk (above ++ [name]) t ++ walkAll above rest
end

mutual
/-- The entries of each directory have names of their own. -/
def Distinct : Listing κ ε → Prop
  | leaf => True
  | dir _ entries => (entries.map Prod.fst).Nodup ∧ DistinctAll entries

def DistinctAll : List (κ × Listing κ ε) → Prop
  | [] => True
  | (_, t) :: rest => t.Distinct ∧ DistinctAll rest
end

variable [DecidableEq κ]

/-- The entry that some names lead to. -/
def find : List κ → Listing κ ε → Option (Listing κ ε)
  | [], t => some t
  | _ :: _, leaf => none
  | name :: names, dir _ entries => (entries.lookup name).bind (find names)

omit [DecidableEq κ] in
lemma walk_dir (above : List κ) (err : Option ε) (entries : List (κ × Listing κ ε)) :
    (dir err entries).walk above =
      (dir err entries).here.map (above, ·) ++ walkAll above entries := by
  simp [walk, here, Function.comp_def]

lemma name_mem_of_lookup {entries : List (κ × Listing κ ε)} {name : κ} {t : Listing κ ε}
    (h : entries.lookup name = some t) : name ∈ entries.map Prod.fst := by
  obtain ⟨before, after, rfl, -⟩ := List.lookup_eq_some_iff.mp h
  simp

mutual
/-- **What a walk meets is what the names lead to.** -/
lemma mem_walk (above : List κ) (p : List κ) (v : Met ε) : (t : Listing κ ε) → t.Distinct →
    ((p, v) ∈ t.walk above ↔
      ∃ names node, p = above ++ names ∧ t.find names = some node ∧ v ∈ node.here)
  | leaf, _ => by
    rw [walk, List.mem_singleton, Prod.mk.injEq]
    constructor
    · rintro ⟨rfl, rfl⟩
      exact ⟨[], leaf, (List.append_nil _).symm, rfl, List.mem_singleton_self _⟩
    · rintro ⟨names, node, rfl, hfind, hv⟩
      cases names with
      | nil =>
        obtain rfl := Option.some.inj hfind
        exact ⟨List.append_nil _, List.mem_singleton.mp hv⟩
      | cons name names => cases hfind
  | dir err entries, hdistinct => by
    obtain ⟨hnames, hall⟩ := hdistinct
    have hbelow := mem_walkAll above p v entries hnames hall
    rw [walk_dir, List.mem_append, hbelow]
    constructor
    · rintro (hhere | ⟨name, t, names, node, hlookup, rfl, hfind, hv⟩)
      · obtain ⟨w, hw, heq⟩ := List.mem_map.mp hhere
        obtain ⟨rfl, rfl⟩ := Prod.mk.inj heq
        exact ⟨[], dir err entries, (List.append_nil _).symm, rfl, hw⟩
      · refine ⟨name :: names, node, rfl, ?_, hv⟩
        rw [find, hlookup]
        exact hfind
    · rintro ⟨names, node, rfl, hfind, hv⟩
      cases names with
      | nil =>
        obtain rfl := Option.some.inj hfind
        rw [List.append_nil]
        exact .inl (List.mem_map_of_mem hv)
      | cons name names =>
        rw [find, Option.bind_eq_some_iff] at hfind
        obtain ⟨t, hlookup, hfind⟩ := hfind
        exact .inr ⟨name, t, names, node, hlookup, rfl, hfind, hv⟩

lemma mem_walkAll (above : List κ) (p : List κ) (v : Met ε) :
    (entries : List (κ × Listing κ ε)) → (entries.map Prod.fst).Nodup → DistinctAll entries →
    ((p, v) ∈ walkAll above entries ↔
      ∃ name t names node, entries.lookup name = some t ∧ p = above ++ name :: names ∧
        t.find names = some node ∧ v ∈ node.here)
  | [], _, _ => by simp [walkAll]
  | (name, t) :: rest, hnames, hall => by
    obtain ⟨hname, hrest⟩ := List.nodup_cons.mp hnames
    obtain ⟨ht, hall⟩ := hall
    rw [walkAll, List.mem_append, mem_walk (above ++ [name]) p v t ht,
      mem_walkAll above p v rest hrest hall]
    constructor
    · rintro (⟨names, node, rfl, hfind, hv⟩ | ⟨other, u, names, node, hlookup, rfl, hfind, hv⟩)
      · refine ⟨name, t, names, node, ?_, ?_, hfind, hv⟩
        · rw [List.lookup_cons_self]
        · rw [List.append_assoc, List.singleton_append]
      · refine ⟨other, u, names, node, ?_, rfl, hfind, hv⟩
        have hne : (other == name) = false := by
          rw [beq_eq_false_iff_ne]
          rintro rfl
          exact hname (name_mem_of_lookup hlookup)
        rw [List.lookup_cons, hne]
        exact hlookup
    · rintro ⟨other, u, names, node, hlookup, rfl, hfind, hv⟩
      by_cases hother : other = name
      · subst hother
        rw [List.lookup_cons_self] at hlookup
        obtain rfl := Option.some.inj hlookup
        refine .inl ⟨names, node, ?_, hfind, hv⟩
        rw [List.append_assoc, List.singleton_append]
      · rw [List.lookup_cons, beq_eq_false_iff_ne.mpr hother] at hlookup
        exact .inr ⟨other, u, names, node, hlookup, rfl, hfind, hv⟩
end

end Listing

end Arcsent.Lib
