/-
# Names of entries that are benign

A name that never goes above the destination can be extracted to its place below it.
`safeExtractPath` looks for two dots in the text of the name and for the destination with a
slash after it in the text of the target, and so refuses some of these names.  Which ones is
a matter of the components of the name.
-/
import Arcsent.Lib.Separators
import Arcsent.Signatures.Extract

namespace Arcsent.Signatures

open Arcsent.Go Arcsent.Go.Filepath Arcsent.Lib

variable {dest name : Bytes}

/-- The cleaned name of an entry never goes up. -/
def Benign (name : Bytes) : Prop := [dot, dot] ∉ (clean name).splitOn separator

instance (name : Bytes) : Decidable (Benign name) := inferInstanceAs (Decidable (¬ _))

/-- The components of a name that is accepted: the first does not begin with two dots, none
before the last ends with two dots, and at the root there are none at all. -/
structure Plain (dest name : Bytes) : Prop where
  front : ∀ c, ((clean name).splitOn separator).head? = some c → ¬ [dot, dot] <+: c
  inner : ∀ c ∈ ((clean name).splitOn separator).dropLast, ¬ [dot, dot] <:+ c
  root : clean dest = [separator] → clean name = [dot] ∨ clean name = [separator]

/-- The names below the destination. -/
def namesOf (name : Bytes) : List Bytes := ((clean name).splitOn separator).filter (IsName dot)

lemma names_namesOf (name : Bytes) : Names (namesOf name) := by
  intro c hc
  obtain ⟨hmem, hname⟩ := List.mem_filter.mp hc
  exact ⟨by simpa using hname, sep_notMem_of_mem_splitOn hmem⟩

/-- A benign name without names in it stands for the destination. -/
lemma namesOf_eq_nil_iff (h : Benign name) :
    namesOf name = [] ↔ clean name = [dot] ∨ clean name = [separator] := by
  constructor
  · intro hnone
    rw [namesOf, List.filter_eq_nil_iff] at hnone
    have hnone' : ∀ c ∈ (clean name).splitOn separator, ¬ IsName dot c := by
      intro c hc hname
      exact hnone c hc (by simpa using hname)
    rw [Benign] at h
    by_cases hrooted : name.head? = some separator
    · obtain ⟨parts, hparts, hclean⟩ := exists_clean hrooted
      cases parts with
      | nil => exact .inr hclean
      | cons c rest =>
        rw [hclean, splitOn_fromRoot (fun d hd => (hparts d hd).2) (List.cons_ne_nil c rest)]
          at hnone'
        exact absurd (hparts c List.mem_cons_self).1 (hnone' c (by simp))
    · rw [clean, if_neg hrooted] at h hnone' ⊢
      cases hparts : resolve dot false (name.splitOn separator) with
      | nil => exact .inl rfl
      | cons c rest =>
        have hsep : ∀ d ∈ c :: rest, separator ∉ d := fun d hd =>
          sep_notMem_of_mem_splitOn (mem_resolve (hparts ▸ hd)).1
        rw [hparts] at h hnone'
        dsimp only at h hnone'
        rw [List.splitOn_intercalate separator hsep (List.cons_ne_nil c rest)] at h hnone'
        -- the first component is a name, as it does not go up
        have hc : c ∈ resolve dot false (name.splitOn separator) := by simp [hparts]
        have hup : c ≠ [dot, dot] := by
          rintro rfl
          exact h List.mem_cons_self
        exact absurd ⟨(mem_resolve hc).2.1, (mem_resolve hc).2.2, hup⟩ (hnone' c (by simp))
  · rintro (hclean | hclean)
    · rw [namesOf, hclean]
      decide
    · rw [namesOf, hclean]
      decide

/-- Where a benign name is to be put. -/
lemma join_of_benign {parts : List Bytes} (hparts : Names parts) (h : Benign name) :
    join [fromRoot separator parts, clean name] = fromRoot separator (parts ++ namesOf name) := by
  rw [join_pair_of_rooted rfl, resolve_append h, resolve_fromRoot hparts]
  rfl

/-- The second test: it lets everything pass unless the destination is the root. -/
lemma target_iff {parts more : List Bytes} (hmore : Names more) :
    (fromRoot separator (parts ++ more) ≠ fromRoot separator parts ∧
      ¬ fromRoot separator parts ++ [separator] <+: fromRoot separator (parts ++ more)) ↔
      parts = [] ∧ more ≠ [] := by
  constructor
  · rintro ⟨hne, hpre⟩
    have hmore' : more ≠ [] := by
      rintro rfl
      exact hne (by rw [List.append_nil])
    refine ⟨?_, hmore'⟩
    by_contra hparts
    rw [fromRoot_append hparts hmore'] at hpre
    exact hpre ((List.prefix_append_right_inj _).mpr ⟨_, rfl⟩)
  · rintro ⟨rfl, hne⟩
    obtain ⟨c, rest, rfl⟩ := List.exists_cons_of_ne_nil hne
    obtain ⟨⟨hc, -⟩, hsep⟩ := hmore c List.mem_cons_self
    obtain ⟨b, c, rfl⟩ := List.exists_cons_of_ne_nil hc
    obtain ⟨tail, htail⟩ := exists_fromRoot_cons separator (b :: c) rest
    have hroot : fromRoot separator [] = [separator] := rfl
    rw [List.nil_append, htail, hroot]
    refine ⟨by simp, ?_⟩
    -- a second slash would be in the first name
    rintro ⟨t, ht⟩
    obtain ⟨-, hcons⟩ := List.cons.inj ht
    obtain ⟨rfl, -⟩ := List.cons.inj hcons
    exact hsep List.mem_cons_self

/-- The first test. -/
lemma traversal_iff (name : Bytes) :
    (bytes ".." <+: clean name ∨ bytes ".." ++ [separator] <:+: clean name) ↔
      (∃ c, ((clean name).splitOn separator).head? = some c ∧ [dot, dot] <+: c) ∨
        ∃ c ∈ ((clean name).splitOn separator).dropLast, [dot, dot] <:+ c := by
  have hdots : bytes ".." = [dot, dot] := by decide
  have hsep : separator ∉ [dot, dot] := by decide
  rw [hdots, prefix_iff_head hsep, concat_infix_iff hsep]

/-- A benign name is put at its place exactly when it is a plain one. -/
lemma safeExtractPath_eq_ok_iff (hdest : dest.head? = some separator) (h : Benign name) :
    safeExtractPath dest name = .ok (join [clean dest, clean name]) ↔ Plain dest name := by
  obtain ⟨parts, hparts, hclean⟩ := exists_clean hdest
  have hroot : clean dest = [separator] ↔ parts = [] := by
    rw [hclean]
    constructor
    · intro heq
      have hcomponents := components_fromRoot hparts
      rw [heq] at hcomponents
      rw [← hcomponents]
      decide
    · rintro rfl
      rfl
  rw [safeExtractPath]
  dsimp only
  rw [hclean, join_of_benign hparts h]
  split_ifs with htraversal htarget
  · refine iff_of_false (fun herr => by cases herr) fun hplain => ?_
    rcases (traversal_iff name).mp htraversal with ⟨c, hc, hpre⟩ | ⟨c, hc, hsuf⟩
    · exact hplain.front c hc hpre
    · exact hplain.inner c hc hsuf
  · refine iff_of_false (fun herr => by cases herr) fun hplain => ?_
    obtain ⟨hnil, hne⟩ := (target_iff (names_namesOf name)).mp htarget
    exact hne ((namesOf_eq_nil_iff h).mpr (hplain.root (hroot.mpr hnil)))
  · refine iff_of_true rfl ⟨?_, ?_, ?_⟩
    · exact fun c hc hpre => htraversal ((traversal_iff name).mpr (.inl ⟨c, hc, hpre⟩))
    · exact fun c hc hsuf => htraversal ((traversal_iff name).mpr (.inr ⟨c, hc, hsuf⟩))
    · intro heq
      rw [← namesOf_eq_nil_iff h]
      by_contra hne
      exact htarget ((target_iff (names_namesOf name)).mpr ⟨hroot.mp heq, hne⟩)

/-- It is put there or nowhere. -/
lemma exists_safeExtractPath_iff (hdest : dest.head? = some separator) (h : Benign name) :
    (∃ target, safeExtractPath dest name = .ok target) ↔ Plain dest name := by
  rw [← safeExtractPath_eq_ok_iff hdest h]
  refine ⟨fun ⟨target, htarget⟩ => ?_, fun hok => ⟨_, hok⟩⟩
  rw [htarget]
  rw [safeExtractPath] at htarget
  dsimp only at htarget
  split_ifs at htarget
  rw [Except.ok.inj htarget]

/-! ## Whole archives -/

/-- All calls for an entry work out. -/
def Answers.fine : Answers := ⟨none, none, none, none⟩

/-- An extraction works out exactly when that of every entry does. -/
lemma extractEach_snd_eq_none {α : Type} {entry : α → List FileOp × Option Bytes}
    {entries : List α} :
    (extractEach entry entries).2 = none ↔ ∀ a ∈ entries, (entry a).2 = none := by
  induction entries with
  | nil => simp [extractEach]
  | cons a entries ih =>
    rw [extractEach, List.forall_mem_cons, ← ih]
    rcases entry a with ⟨ops, err⟩
    cases err with
    | none => simp
    | some err => simp

lemma extractZipFile_snd_eq_none (f : ZipFile) :
    (extractZipFile dest (f, .fine)).2 = none ↔
      ∃ target, safeExtractPath dest f.name = .ok target := by
  rw [extractZipFile]
  cases safeExtractPath dest f.name with
  | error err => simp
  | ok target =>
    refine iff_of_true ?_ ⟨target, rfl⟩
    dsimp only
    split_ifs <;> rfl

lemma extractTarEntry_snd_eq_none (header : Header) :
    (extractTarEntry dest (.ok (header, .fine))).2 = none ↔
      ∃ target, safeExtractPath dest header.name = .ok target := by
  rw [extractTarEntry]
  cases safeExtractPath dest header.name with
  | error err => simp
  | ok target =>
    refine iff_of_true ?_ ⟨target, rfl⟩
    dsimp only
    split_ifs <;> rfl

/-- **Which benign names are refused.**  A benign name is put at its place below the
destination exactly when it is plain; an archive of benign names whose calls all work out
is extracted exactly when all of them are. -/
theorem benign_accepted_iff (hdest : dest.head? = some separator) :
    (∀ name, Benign name →
      (safeExtractPath dest name = .ok (join [clean dest, clean name]) ↔ Plain dest name)) ∧
    (∀ files : List ZipFile, (∀ f ∈ files, Benign f.name) →
      ((extractZip dest (files.map (·, .fine))).2 = none ↔ ∀ f ∈ files, Plain dest f.name)) ∧
    ∀ headers : List Header, (∀ header ∈ headers, Benign header.name) →
      ((extractTarReader dest (headers.map fun header => .ok (header, .fine))).2 = none ↔
        ∀ header ∈ headers, Plain dest header.name) := by
  refine ⟨fun name => safeExtractPath_eq_ok_iff hdest, fun files hfiles => ?_,
    fun headers hheaders => ?_⟩
  · rw [extractZip, extractEach_snd_eq_none, List.forall_mem_map]
    refine forall₂_congr fun f hf => ?_
    rw [extractZipFile_snd_eq_none, exists_safeExtractPath_iff hdest (hfiles f hf)]
  · rw [extractTarReader, extractEach_snd_eq_none, List.forall_mem_map]
    refine forall₂_congr fun header hheader => ?_
    rw [extractTarEntry_snd_eq_none, exists_safeExtractPath_iff hdest (hheaders header hheader)]

/-- A name with dots in it. -/
theorem dotted_accepted :
    safeExtractPath cacheDir (bytes "./kev..2024/.feed..json") =
      .ok (bytes "/var/lib/arcsent/signatures/kev..2024/.feed..json") := by
  have hjoin : join [clean cacheDir, clean (bytes "./kev..2024/.feed..json")] =
      bytes "/var/lib/arcsent/signatures/kev..2024/.feed..json" := by decide +kernel
  rw [← hjoin]
  refine ((benign_accepted_iff (by decide +kernel)).1 _ (by decide +kernel)).mpr ⟨?_, ?_, ?_⟩
  · decide +kernel
  · decide +kernel
  · exact fun hroot => absurd hroot (by decide +kernel)

/-- A directory whose name begins with two dots, a directory whose name ends with them, and
the root as the destination. -/
theorem benign_refused :
    (¬ ∀ dest name, dest.head? = some separator → Benign name →
      safeExtractPath dest name = .ok (join [clean dest, clean name])) ∧
    safeExtractPath cacheDir (bytes "..data/x") =
      .error (bytes "invalid path traversal: ..data/x") ∧
    safeExtractPath cacheDir (bytes "a../b") =
      .error (bytes "invalid path traversal: a../b") ∧
    safeExtractPath (bytes "/") (bytes "kev.json") =
      .error (bytes "invalid extract target: /kev.json") := by
  have hrefused : safeExtractPath cacheDir (bytes "..data/x") =
      .error (bytes "invalid path traversal: ..data/x") := by decide +kernel
  refine ⟨fun h => ?_, hrefused, by decide +kernel, by decide +kernel⟩
  have hok := h cacheDir (bytes "..data/x") (by decide +kernel) (by decide +kernel)
  rw [hrefused] at hok
  cases hok

end Arcsent.Signatures
