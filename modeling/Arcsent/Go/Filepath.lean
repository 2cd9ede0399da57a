/-
# The functions of `path/filepath` that the daemon uses

On Unix a path is a byte string whose components are separated by slashes.  `Clean` works
off the components; `Join` and `Dir` clean what they return.  Two paths are compared by
their components, since one may be a prefix of the other as a text only.
-/
import Mathlib.Data.List.DropRight
import Arcsent.Go.Basic
import Arcsent.Lib.Paths

namespace Arcsent.Go.Filepath

open Arcsent.Lib

/-- The constant `Separator`. -/
def separator : UInt8 := 0x2F

def dot : UInt8 := 0x2E

/-- The function `Clean`. -/
def clean (path : Bytes) : Bytes :=
  if path.head? = some separator then
    fromRoot separator (resolve dot true (path.splitOn separator))
  else
    match resolve dot false (path.splitOn separator) with
    | [] => [dot]
    | parts => [separator].intercalate parts

/-- The function `Join`. -/
def join : List Bytes → Bytes
  | [] => []
  | elem :: elems =>
    if elem = [] then join elems else clean ([separator].intercalate (elem :: elems))

/-- The function `Dir`. -/
def dir (path : Bytes) : Bytes := clean (path.rdropWhile (· ≠ separator))

/-- The components of a path. -/
def components (path : Bytes) : List Bytes := (path.splitOn separator).filter (· ≠ [])

/-- A path from the root is another one or below it. -/
structure Inside (base path : Bytes) : Prop where
  rooted : path.head? = some separator
  below : components base <+: components path
  noUp : [dot, dot] ∉ components path

/-- A path lies a number of levels below another one. -/
structure Below (base : Bytes) (levels : ℕ) (path : Bytes) : Prop extends Inside base path where
  depth : (components path).length = (components base).length + levels

example : clean (bytes "/a//b/./../c/") = bytes "/a/c" := by decide +kernel

/-! ## Components -/

variable {path base name : Bytes} {parts : List Bytes}

/-- Names that may be the components of a path. -/
def Names (parts : List Bytes) : Prop := ∀ c ∈ parts, IsName dot c ∧ separator ∉ c

lemma names_append {more : List Bytes} (h : Names parts) (hmore : Names more) :
    Names (parts ++ more) := by
  intro c hc
  rcases List.mem_append.mp hc with hold | hnew
  · exact h c hold
  · exact hmore c hnew

lemma components_fromRoot (h : Names parts) : components (fromRoot separator parts) = parts := by
  have hkeep : parts.filter (· ≠ []) = parts :=
    List.filter_eq_self.mpr fun c hc => by simpa using (h c hc).1.1
  cases parts with
  | nil => rfl
  | cons c rest =>
    rw [components, splitOn_fromRoot (fun d hd => (h d hd).2) (List.cons_ne_nil c rest)]
    rw [List.filter_cons_of_neg (by simp), hkeep]

/-- A path from the root with the components of another one at the front. -/
lemma inside_fromRoot {more : List Bytes} (h : Names (parts ++ more)) :
    Inside (fromRoot separator parts) (fromRoot separator (parts ++ more)) := by
  have hparts : Names parts := fun c hc => h c (List.mem_append_left _ hc)
  refine ⟨rfl, ?_, ?_⟩
  · rw [components_fromRoot hparts, components_fromRoot h]
    exact List.prefix_append parts more
  · rw [components_fromRoot h]
    exact fun hup => (h _ hup).1.2.2 rfl

/-- The paths some levels below a path from the root have that many components more. -/
lemma below_fromRoot_iff {more : List Bytes} {levels : ℕ} (hparts : Names parts)
    (hmore : Names more) :
    Below (fromRoot separator parts) levels (fromRoot separator more) ↔
      ∃ names, names.length = levels ∧ more = parts ++ names := by
  constructor
  · rintro ⟨⟨-, hprefix, -⟩, hdepth⟩
    rw [components_fromRoot hparts, components_fromRoot hmore] at hprefix hdepth
    obtain ⟨names, rfl⟩ := hprefix
    refine ⟨names, ?_, rfl⟩
    rw [List.length_append] at hdepth
    omega
  · rintro ⟨names, rfl, rfl⟩
    refine ⟨inside_fromRoot hmore, ?_⟩
    rw [components_fromRoot hparts, components_fromRoot hmore, List.length_append]

/-! ## The bytes of a text -/

lemma bytes_eq_flatMap (s : String) : bytes s = s.toList.flatMap String.utf8EncodeChar := by
  show s.toByteArray.data.toList = _
  rw [← String.utf8Encode_toList]
  simp [List.utf8Encode]

/-- A byte below 128 stands for itself. -/
lemma toNat_of_mem_utf8EncodeChar {c : Char} {b : UInt8} (hb : b.toNat < 128)
    (h : b ∈ String.utf8EncodeChar c) : c.toNat = b.toNat := by
  unfold String.utf8EncodeChar at h
  extract_lets v at h
  have hv : v = c.toNat := rfl
  split_ifs at h with hone htwo hthree
  all_goals simp only [List.mem_cons, List.not_mem_nil, or_false] at h
  · rw [h, UInt8.toNat_ofNat']
    omega
  · rcases h with rfl | rfl <;> rw [UInt8.toNat_ofNat'] at hb <;> omega
  · rcases h with rfl | rfl | rfl <;> rw [UInt8.toNat_ofNat'] at hb <;> omega
  · rcases h with rfl | rfl | rfl | rfl <;> rw [UInt8.toNat_ofNat'] at hb <;> omega

/-- A text without a slash is one component. -/
lemma separator_notMem_bytes {s : String} (h : '/' ∉ s.toList) : separator ∉ bytes s := by
  intro hmem
  rw [bytes_eq_flatMap, List.mem_flatMap] at hmem
  obtain ⟨c, hc, hsep⟩ := hmem
  have hslash : c.toNat = '/'.toNat := toNat_of_mem_utf8EncodeChar (by decide) hsep
  exact h (Char.toNat_inj.mp hslash ▸ hc)

/-! ## The function `Clean` -/

lemma names_resolve (path : Bytes) : Names (resolve dot true (path.splitOn separator)) :=
  fun _ hc => ⟨isName_of_mem_resolve hc, sep_notMem_of_mem_splitOn (mem_resolve hc).1⟩

lemma names_resolve_append (path name : Bytes) :
    Names (resolve dot true (path.splitOn separator ++ name.splitOn separator)) := by
  intro c hc
  refine ⟨isName_of_mem_resolve hc, ?_⟩
  rcases List.mem_append.mp (mem_resolve hc).1 with hpath | hname
  · exact sep_notMem_of_mem_splitOn hpath
  · exact sep_notMem_of_mem_splitOn hname

lemma clean_of_rooted (h : path.head? = some separator) :
    clean path = fromRoot separator (resolve dot true (path.splitOn separator)) := by
  rw [clean, if_pos h]

/-- A clean path from the root. -/
lemma exists_clean (h : path.head? = some separator) :
    ∃ parts, Names parts ∧ clean path = fromRoot separator parts :=
  ⟨_, names_resolve path, clean_of_rooted h⟩

/-- What splitting a path from the root leaves of its components. -/
lemma resolve_fromRoot (h : Names parts) :
    resolve dot true ((fromRoot separator parts).splitOn separator) = parts := by
  cases parts with
  | nil => rfl
  | cons c rest =>
    rw [splitOn_fromRoot (fun d hd => (h d hd).2) (List.cons_ne_nil c rest), resolve_nil_cons]
    exact resolve_of_isName fun d hd => (h d hd).1

/-- A cleaned path that goes up does so at its front. -/
lemma prefix_clean_of_mem (h : [dot, dot] ∈ (clean path).splitOn separator) :
    [dot, dot] <+: clean path := by
  rw [clean] at h ⊢
  split_ifs at h ⊢ with hrooted
  · -- below the root there are names only
    exfalso
    have hnames := names_resolve path
    generalize resolve dot true (path.splitOn separator) = parts at h hnames
    have hmem : [dot, dot] ∈ components (fromRoot separator parts) :=
      List.mem_filter.mpr ⟨h, by simp⟩
    rw [components_fromRoot hnames] at hmem
    exact (hnames _ hmem).1.2.2 rfl
  · cases hparts : resolve dot false (path.splitOn separator) with
    | nil =>
      rw [hparts] at h
      exact absurd h (by decide)
    | cons c rest =>
      have hsep : ∀ d ∈ c :: rest, separator ∉ d := fun d hd =>
        sep_notMem_of_mem_splitOn (mem_resolve (hparts ▸ hd)).1
      rw [hparts] at h
      dsimp only at h ⊢
      rw [List.splitOn_intercalate separator hsep (List.cons_ne_nil c rest), ← hparts] at h
      have hfront := head?_resolve h
      rw [hparts] at hfront
      obtain rfl := Option.some.inj hfront
      cases rest with
      | nil => simp
      | cons d rest =>
        rw [List.intercalate_cons_cons, List.append_assoc]
        exact List.prefix_append _ _

/-! ## The functions `Join` and `Dir` -/

/-- A path from the root and a name are cleaned together. -/
lemma join_pair_of_rooted (h : path.head? = some separator) (name : Bytes) :
    join [path, name] =
      fromRoot separator (resolve dot true (path.splitOn separator ++ name.splitOn separator)) := by
  have hne : path ≠ [] := by
    rintro rfl
    cases h
  have hrooted : ([separator].intercalate [path, name]).head? = some separator := by
    rw [List.intercalate_cons_cons, List.append_assoc, List.head?_append, h, Option.some_or]
  rw [join, if_neg hne, clean_of_rooted hrooted, List.intercalate_cons_cons,
    List.intercalate_singleton, List.append_assoc, List.singleton_append,
    List.splitOn_append_cons_self]

/-- Two names from the root, cleaned one after the other, are cleaned at once. -/
lemma join_join_of_rooted (h : path.head? = some separator) (name file : Bytes) :
    join [join [path, name], file] = fromRoot separator (resolve dot true
      (path.splitOn separator ++ name.splitOn separator ++ file.splitOn separator)) := by
  have hdir := join_pair_of_rooted h name
  have hrooted : (join [path, name]).head? = some separator := by
    rw [hdir]
    rfl
  rw [join_pair_of_rooted hrooted, hdir]
  congr 1
  exact resolve_append_congr (resolve_fromRoot (names_resolve_append path name))
/-- A path that does not go up, joined to one from the root, is inside it. -/
lemma join_of_rooted (hbase : Names parts) (hup : [dot, dot] ∉ name.splitOn separator) :
    ∃ more, Names (parts ++ more) ∧
      join [fromRoot separator parts, name] = fromRoot separator (parts ++ more) := by
  refine ⟨(name.splitOn separator).filter (IsName dot), ?_, ?_⟩
  · refine names_append hbase fun c hc => ?_
    obtain ⟨hmem, hname⟩ := List.mem_filter.mp hc
    exact ⟨by simpa using hname, sep_notMem_of_mem_splitOn hmem⟩
  · rw [join_pair_of_rooted rfl, resolve_append hup, resolve_fromRoot hbase]

/-- A name is one component more. -/
lemma components_join (hparts : Names parts) (hname : IsName dot name) (hsep : separator ∉ name) :
    components (join [fromRoot separator parts, name]) = parts ++ [name] := by
  have hsplit : name.splitOn separator = [name] := List.splitOn_eq_singleton hsep
  have hup : [dot, dot] ∉ [name] := by simpa using Ne.symm hname.2.2
  have hnames : Names (parts ++ [name]) := names_append hparts fun c hc => by
    rw [List.mem_singleton.mp hc]
    exact ⟨hname, hsep⟩
  rw [join_pair_of_rooted rfl, hsplit, resolve_append hup, resolve_fromRoot hparts]
  simpa [hname] using components_fromRoot hnames

/-- Two dots are one component less. -/
lemma components_join_up (hparts : Names parts) :
    components (join [fromRoot separator parts, [dot, dot]]) = parts.dropLast := by
  have hsplit : [dot, dot].splitOn separator = [[dot, dot]] := by decide
  have hnames : Names parts.dropLast := fun c hc => hparts c (List.mem_of_mem_dropLast hc)
  rw [join_pair_of_rooted rfl, hsplit, resolve_concat_up, resolve_fromRoot hparts,
    components_fromRoot hnames]

/-- What `Dir` cuts off before it cleans the path. -/
lemma rdropWhile_fromRoot {c : Bytes} (hc : separator ∉ c) (parts : List Bytes) :
    (fromRoot separator (parts ++ [c])).rdropWhile (· ≠ separator) =
      fromRoot separator (parts ++ [[]]) := by
  have hcut (pre : Bytes) : (pre ++ separator :: c).rdropWhile (· ≠ separator) =
      pre ++ [separator] := by
    have hall : ∀ a ∈ c.reverse, (decide (a ≠ separator)) = true := by
      intro a ha
      rw [decide_eq_true_eq]
      rintro rfl
      exact hc (List.mem_reverse.mp ha)
    rw [List.rdropWhile, List.reverse_append, List.reverse_cons, List.append_assoc,
      List.dropWhile_append_of_pos hall]
    simp
  cases parts with
  | nil =>
    have hroot := hcut []
    simpa [fromRoot] using hroot
  | cons d rest =>
    rw [fromRoot_concat (List.cons_ne_nil d rest), fromRoot_concat (List.cons_ne_nil d rest)]
    exact hcut _

/-- The last component is dropped. -/
lemma dir_fromRoot {c : Bytes} (h : Names (parts ++ [c])) :
    dir (fromRoot separator (parts ++ [c])) = fromRoot separator parts := by
  have hparts : Names parts := fun d hd => h d (List.mem_append_left _ hd)
  have hsep : ∀ d ∈ parts ++ [[]], separator ∉ d := by
    intro d hd
    rcases List.mem_append.mp hd with hold | hlast
    · exact (hparts d hold).2
    · rw [List.mem_singleton.mp hlast]
      exact List.not_mem_nil
  rw [dir, rdropWhile_fromRoot (h c (by simp)).2, clean_of_rooted rfl,
    splitOn_fromRoot hsep (by simp), resolve_nil_cons, resolve_append (by simp),
    resolve_of_isName fun d hd => (hparts d hd).1]
  simp [IsName]

end Arcsent.Go.Filepath
