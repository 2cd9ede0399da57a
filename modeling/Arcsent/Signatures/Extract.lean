/-
# Archives that are imported into the cache

An import without a network extracts a zip or tar archive into the cache directory.  Each
entry names where it is to be put, and the name is not to be trusted: `safeExtractPath`
decides whether that place is in the cache.  What an extraction does to the file system is
the list of its operations, those that fail included.
-/
import Arcsent.Go.Filepath

namespace Arcsent.Signatures

open Arcsent.Go Arcsent.Go.Filepath Arcsent.Lib

/-- The function `safeExtractPath`. -/
def safeExtractPath (dest name : Bytes) : Except Bytes Bytes :=
  let cleaned := clean name
  if bytes ".." <+: cleaned ∨ bytes ".." ++ [separator] <:+: cleaned then
    .error (bytes "invalid path traversal: " ++ name)
  else
    let cleanDest := clean dest
    let target := join [cleanDest, cleaned]
    if target ≠ cleanDest ∧ ¬ cleanDest ++ [separator] <+: target then
      .error (bytes "invalid extract target: " ++ target)
    else .ok target

/-- An operation on the file system. -/
inductive FileOp
  /-- A directory is made, `os.MkdirAll(target)`. -/
  | mkdir (target : Bytes)
  /-- The directory of a file is made, `os.MkdirAll(filepath.Dir(target))`. -/
  | mkdirOf (target : Bytes)
  /-- A file is made, `os.Create(target)`. -/
  | create (target : Bytes)
deriving DecidableEq

/-- The target that an operation is for. -/
def FileOp.target : FileOp → Bytes
  | mkdir target | mkdirOf target | create target => target

/-- Where an operation makes a file or a directory. -/
def FileOp.path : FileOp → Bytes
  | mkdirOf target => dir target
  | mkdir target | create target => target

/-- The errors that the calls for an entry return, if they do. -/
structure Answers where
  mkdirAll : Option Bytes
  openFile : Option Bytes
  create : Option Bytes
  copy : Option Bytes

/-- An entry of a zip archive. -/
structure ZipFile where
  name : Bytes
  /-- What its `FileInfo` says. -/
  isDir : Bool

/-- The header of an entry of a tar archive. -/
structure Header where
  name : Bytes
  typeflag : UInt8

/-- The constants of `archive/tar` for regular files and for directories. -/
def typeReg : UInt8 := 0x30

def typeDir : UInt8 := 0x35

/-- The loop over the entries of an archive, which the first error ends. -/
def extractEach {α : Type} (entry : α → List FileOp × Option Bytes) :
    List α → List FileOp × Option Bytes
  | [] => ([], none)
  | a :: entries =>
    match entry a with
    | (ops, some err) => (ops, some err)
    | (ops, none) =>
      let (more, err) := extractEach entry entries
      (ops ++ more, err)

/-- The body of the loop of `extractZip`. -/
def extractZipFile (dest : Bytes) : ZipFile × Answers → List FileOp × Option Bytes
  | (f, answers) =>
    match safeExtractPath dest f.name with
    | .error err => ([], some err)
    | .ok target =>
      if f.isDir then ([.mkdir target], answers.mkdirAll)
      else
        -- the entry is opened before the file is made
        match answers.mkdirAll.or answers.openFile with
        | some err => ([.mkdirOf target], some err)
        | none => ([.mkdirOf target, .create target], answers.create.or answers.copy)

/-- The function `extractZip`, given the entries of the archive it has opened. -/
def extractZip (dest : Bytes) (files : List (ZipFile × Answers)) : List FileOp × Option Bytes :=
  extractEach (extractZipFile dest) files

/-- The body of the loop of `extractTarReader`; the reader returns a header or an error. -/
def extractTarEntry (dest : Bytes) : Except Bytes (Header × Answers) → List FileOp × Option Bytes
  | .error err => ([], some err)
  | .ok (header, answers) =>
    match safeExtractPath dest header.name with
    | .error err => ([], some err)
    | .ok target =>
      if header.typeflag = typeDir then ([.mkdir target], answers.mkdirAll)
      else if header.typeflag = typeReg then
        match answers.mkdirAll with
        | some err => ([.mkdirOf target], some err)
        | none => ([.mkdirOf target, .create target], answers.create.or answers.copy)
      else
        -- links and devices are passed over
        ([], none)

/-- The function `extractTarReader`, given what its reader returns before `io.EOF`. -/
def extractTarReader (dest : Bytes) (entries : List (Except Bytes (Header × Answers))) :
    List FileOp × Option Bytes :=
  extractEach (extractTarEntry dest) entries

/-! ## The targets -/

variable {dest name target : Bytes}

/-- A target that is accepted lies below the destination. -/
lemma exists_of_safeExtractPath (hdest : dest.head? = some separator)
    (h : safeExtractPath dest name = .ok target) :
    ∃ parts more, Names (parts ++ more) ∧ clean dest = fromRoot separator parts ∧
      target = fromRoot separator (parts ++ more) := by
  obtain ⟨parts, hparts, hclean⟩ := exists_clean hdest
  rw [safeExtractPath] at h
  dsimp only at h
  split_ifs at h with htraversal htarget
  -- the search for dots before a separator is not needed: a clean name goes up at its front only
  have hup : [dot, dot] ∉ (clean name).splitOn separator := by
    intro hmem
    exact htraversal (.inl (prefix_clean_of_mem hmem))
  obtain ⟨more, hmore, hjoin⟩ := join_of_rooted hparts hup
  rw [hclean, hjoin] at h
  exact ⟨parts, more, hmore, hclean, (Except.ok.inj h).symm⟩

/-- The operations for a target are inside the destination, or for the destination itself. -/
structure StaysIn (dest : Bytes) (op : FileOp) : Prop where
  target : Inside (clean dest) op.target
  path : op.target ≠ clean dest → Inside (clean dest) op.path

lemma staysIn_of_safeExtractPath (hdest : dest.head? = some separator)
    (h : safeExtractPath dest name = .ok target) {op : FileOp} (hop : op.target = target) :
    StaysIn dest op := by
  obtain ⟨parts, more, hnames, hclean, rfl⟩ := exists_of_safeExtractPath hdest h
  have htarget : Inside (clean dest) op.target := by
    rw [hop, hclean]
    exact inside_fromRoot hnames
  refine ⟨htarget, ?_⟩
  intro hne
  cases op with
  | mkdir target => exact htarget
  | create target => exact htarget
  | mkdirOf target =>
    obtain rfl : target = fromRoot separator (parts ++ more) := hop
    rcases List.eq_nil_or_concat more with rfl | ⟨init, last, rfl⟩
    · -- the target is the destination
      rw [List.append_nil, ← hclean] at hne
      exact absurd rfl hne
    · rw [FileOp.path, List.concat_eq_append, ← List.append_assoc, hclean]
      rw [List.concat_eq_append, ← List.append_assoc] at hnames
      rw [dir_fromRoot hnames]
      exact inside_fromRoot fun c hc => hnames c (List.mem_append_left _ hc)

/-! ## The extractions -/

/-- What holds of the operations for each entry holds of those of the whole loop. -/
lemma forall_mem_extractEach {α : Type} {entry : α → List FileOp × Option Bytes}
    {P : FileOp → Prop} (h : ∀ a, ∀ op ∈ (entry a).1, P op) (entries : List α) :
    ∀ op ∈ (extractEach entry entries).1, P op := by
  induction entries with
  | nil => exact fun op hop => absurd hop List.not_mem_nil
  | cons a entries ih =>
    have hentry := h a
    rw [extractEach]
    split
    · next ops err heq =>
      rw [heq] at hentry
      exact hentry
    · next ops heq =>
      rw [heq] at hentry
      intro op hop
      rcases List.mem_append.mp hop with hfirst | hrest
      · exact hentry op hfirst
      · exact ih op hrest

lemma staysIn_extractZipFile (hdest : dest.head? = some separator) (a : ZipFile × Answers) :
    ∀ op ∈ (extractZipFile dest a).1, StaysIn dest op := by
  obtain ⟨f, answers⟩ := a
  intro op hop
  rw [extractZipFile] at hop
  split at hop
  · exact absurd hop List.not_mem_nil
  · next target htarget =>
    refine staysIn_of_safeExtractPath hdest htarget ?_
    split_ifs at hop
    · rw [List.mem_singleton.mp hop]
      rfl
    · split at hop
      · rw [List.mem_singleton.mp hop]
        rfl
      · rcases List.mem_pair.mp hop with rfl | rfl <;> rfl

lemma staysIn_extractTarEntry (hdest : dest.head? = some separator)
    (a : Except Bytes (Header × Answers)) :
    ∀ op ∈ (extractTarEntry dest a).1, StaysIn dest op := by
  intro op hop
  cases a with
  | error err => exact absurd hop List.not_mem_nil
  | ok entry =>
    obtain ⟨header, answers⟩ := entry
    rw [extractTarEntry] at hop
    split at hop
    · exact absurd hop List.not_mem_nil
    · next target htarget =>
      refine staysIn_of_safeExtractPath hdest htarget ?_
      split_ifs at hop
      · rw [List.mem_singleton.mp hop]
        rfl
      · split at hop
        · rw [List.mem_singleton.mp hop]
          rfl
        · rcases List.mem_pair.mp hop with rfl | rfl <;> rfl
      · exact absurd hop List.not_mem_nil

/-- **What an extraction makes stays inside the destination.** -/
theorem extraction_staysIn (hdest : dest.head? = some separator) :
    (∀ name target, safeExtractPath dest name = .ok target → Inside (clean dest) target) ∧
    (∀ files, ∀ op ∈ (extractZip dest files).1, StaysIn dest op) ∧
    ∀ entries, ∀ op ∈ (extractTarReader dest entries).1, StaysIn dest op := by
  refine ⟨?_, ?_, ?_⟩
  · intro name target h
    have hcreate : (FileOp.create target).target = target := rfl
    exact (staysIn_of_safeExtractPath hdest h hcreate).target
  · intro files
    exact forall_mem_extractEach (staysIn_extractZipFile hdest) files
  · intro entries
    exact forall_mem_extractEach (staysIn_extractTarEntry hdest) entries

/-- A cache directory, as a configuration may spell it. -/
def cacheDir : Bytes := bytes "/var/lib/arcsent//signatures/"

/-- A directory, a file in it, and a file that would be put beside the cache. -/
def feed : List (ZipFile × Answers) :=
  [(⟨bytes "./epss//", true⟩, ⟨none, none, none, none⟩),
    (⟨bytes "/kev/../epss/scores.csv", false⟩, ⟨none, none, none, none⟩),
    (⟨bytes "epss/../../signatures-old", false⟩, ⟨none, none, none, none⟩)]

/-- The last entry is refused. -/
theorem feed_staysIn :
    (∀ op ∈ (extractZip cacheDir feed).1, StaysIn cacheDir op) ∧
      extractZip cacheDir feed =
        ([.mkdir (bytes "/var/lib/arcsent/signatures/epss"),
          .mkdirOf (bytes "/var/lib/arcsent/signatures/epss/scores.csv"),
          .create (bytes "/var/lib/arcsent/signatures/epss/scores.csv")],
        some (bytes "invalid path traversal: epss/../../signatures-old")) :=
  ⟨(extraction_staysIn (by decide +kernel)).2.1 feed, by decide +kernel⟩

end Arcsent.Signatures
