/-
# Imports into the cache

`importAirgap` copies a directory, the entries of an archive or a single file into the cache,
one file after the other, and the first error ends it.  A file is created under its own name
and filled there, so that an import can break off in the middle of one.  Of the disk only
matters what the files hold, by their paths; the calls fail as the answers say.

What is imported lies apart from the cache: its content does not change while the import
writes.  (The function `copyFile` would empty a file that it copied to itself.)
-/
import Arcsent.Lib.Runs
import Arcsent.Signatures.Download
import Arcsent.Signatures.Extract
import Mathlib.Logic.Function.Basic

namespace Arcsent.Signatures

open Arcsent.Go Arcsent.Go.Filepath Arcsent.Lib

/-- What the files hold, by their paths. -/
abbrev Disk := Bytes → Option Bytes

/-- Something that is copied to a file. -/
structure Entry where
  /-- All that its reader has to give. -/
  content : Bytes
  answers : Answers
  /-- What has been written of it when the copying fails. -/
  written : Bytes
  /-- The error of `Sync`, for the files that are synced. -/
  sync : Option Bytes

/-- The calls of `os.Create` and `io.Copy`. -/
def copyTo (target : Bytes) (e : Entry) (disk : Disk) : Disk × Option Bytes :=
  match e.answers.create with
  | some err => (disk, some err)
  | none =>
    match e.answers.copy with
    | some err => (Function.update disk target (some e.written), some err)
    | none => (Function.update disk target (some e.content), none)

/-- The function `copyFile`. -/
def copyFile (dest : Bytes) (e : Entry) (disk : Disk) : Disk × Option Bytes :=
  match e.answers.mkdirAll.or e.answers.openFile with
  | some err => (disk, some err)
  | none =>
    match copyTo dest e disk with
    | (disk, some err) => (disk, some err)
    | (disk, none) => (disk, e.sync)

/-- What `filepath.WalkDir` passes on about an entry of the directory. -/
structure Visit where
  /-- The names on the way to it. -/
  names : List Bytes
  isDir : Bool
  entry : Entry

/-- What `filepath.Rel` makes of these names. -/
def rel (names : List Bytes) : Bytes := if names = [] then [dot] else [separator].intercalate names

/-- The function that `copyDir` has called on every entry, or on an error. -/
def copyDirEntry (dest : Bytes) : Except Bytes Visit → Disk → Disk × Option Bytes
  | .error err, disk => (disk, some err)
  | .ok v, disk =>
    let target := join [dest, rel v.names]
    if v.isDir then (disk, v.entry.answers.mkdirAll) else copyFile target v.entry disk

/-- The function `copyDir`. -/
def copyDir (dest : Bytes) (visits : List (Except Bytes Visit)) (disk : Disk) :
    Disk × Option Bytes :=
  eachUntil (copyDirEntry dest) visits disk

/-- The body of the loop of `extractZip`, on the disk. -/
def extractZipFileOn (dest : Bytes) : ZipFile × Entry → Disk → Disk × Option Bytes
  | (f, e), disk =>
    match safeExtractPath dest f.name with
    | .error err => (disk, some err)
    | .ok target =>
      if f.isDir then (disk, e.answers.mkdirAll)
      else
        match e.answers.mkdirAll.or e.answers.openFile with
        | some err => (disk, some err)
        | none => copyTo target e disk

/-- The function `extractZip`, on the disk, given the entries of the archive it has opened. -/
def extractZipOn (dest : Bytes) (files : List (ZipFile × Entry)) (disk : Disk) :
    Disk × Option Bytes :=
  eachUntil (extractZipFileOn dest) files disk

/-- The body of the loop of `extractTarReader`, on the disk. -/
def extractTarEntryOn (dest : Bytes) : Except Bytes (Header × Entry) → Disk → Disk × Option Bytes
  | .error err, disk => (disk, some err)
  | .ok (header, e), disk =>
    match safeExtractPath dest header.name with
    | .error err => (disk, some err)
    | .ok target =>
      if header.typeflag = typeDir then (disk, e.answers.mkdirAll)
      else if header.typeflag = typeReg then
        match e.answers.mkdirAll with
        | some err => (disk, some err)
        | none => copyTo target e disk
      else (disk, none)

/-- The function `extractTarReader`, on the disk. -/
def extractTarReaderOn (dest : Bytes) (entries : List (Except Bytes (Header × Entry)))
    (disk : Disk) : Disk × Option Bytes :=
  eachUntil (extractTarEntryOn dest) entries disk

/-- What there is at the path of an import, and what the calls return. -/
structure Material where
  /-- Whether it is a directory. -/
  stat : Except Bytes Bool
  mkdirAll : Option Bytes
  /-- The directory, as it is walked. -/
  visits : List (Except Bytes Visit)
  openFile : Option Bytes
  gzip : Option Bytes
  /-- The archive, as it is read. -/
  files : List (ZipFile × Entry)
  headers : List (Except Bytes (Header × Entry))
  /-- The file itself. -/
  file : Entry

/-- The function `extractTarGz`. -/
def extractTarGz (dest : Bytes) (m : Material) (disk : Disk) : Disk × Option Bytes :=
  match m.openFile.or m.gzip with
  | some err => (disk, some err)
  | none => extractTarReaderOn dest m.headers disk

/-- The function `extractTar`. -/
def extractTar (dest : Bytes) (m : Material) (disk : Disk) : Disk × Option Bytes :=
  match m.openFile with
  | some err => (disk, some err)
  | none => extractTarReaderOn dest m.headers disk

/-- The function `importAirgap`. -/
def importAirgap (srcPath : String) (destDir : Bytes) (m : Material) (disk : Disk) :
    Disk × Option Bytes :=
  match m.stat with
  | .error err => (disk, some (bytes "stat airgap path: " ++ err))
  | .ok isDir =>
    match m.mkdirAll with
    | some err => (disk, some (bytes "create cache dir: " ++ err))
    | none =>
      if isDir then copyDir destDir m.visits disk
      else if hasSuffix srcPath ".zip" then
        match m.openFile with
        | some err => (disk, some err)
        | none => extractZipOn destDir m.files disk
      else if hasSuffix srcPath ".tar.gz" || hasSuffix srcPath ".tgz" then
        extractTarGz destDir m disk
      else if hasSuffix srcPath ".tar" then extractTar destDir m disk
      else copyFile (join [destDir, bytes (base srcPath)]) m.file disk

/-! ## The operations of an extraction -/

section Operations

variable {α β : Type} {body : α → Disk → Disk × Option Bytes}
  {entry : β → List FileOp × Option Bytes} {dest target : Bytes} {e : Entry} {disk : Disk}

/-- A step on the disk does what a list of operations says: it returns the same error, and it
writes only files that are created. -/
def Performs (ops : List FileOp × Option Bytes) (disk : Disk) (out : Disk × Option Bytes) : Prop :=
  out.2 = ops.2 ∧ ∀ path, out.1 path ≠ disk path → .create path ∈ ops.1

lemma performs_self (ops : List FileOp) (err : Option Bytes) (disk : Disk) :
    Performs (ops, err) disk (disk, err) :=
  ⟨rfl, fun _ hne => absurd rfl hne⟩

lemma performs_copyTo (target : Bytes) (e : Entry) (disk : Disk) :
    Performs ([.mkdirOf target, .create target], e.answers.create.or e.answers.copy) disk
      (copyTo target e disk) := by
  have hwrite (c : Bytes) (path : Bytes)
      (hne : Function.update disk target (some c) path ≠ disk path) :
      FileOp.create path ∈ [.mkdirOf target, .create target] := by
    have heq : path = target := by
      by_contra hpath
      exact hne (Function.update_of_ne hpath _ _)
    rw [heq]
    exact List.mem_cons_of_mem _ List.mem_cons_self
  rw [copyTo]
  cases e.answers.create with
  | some err => exact performs_self _ _ _
  | none =>
    cases e.answers.copy with
    | some err => exact ⟨rfl, hwrite e.written⟩
    | none => exact ⟨rfl, hwrite e.content⟩

/-- The loops do what their operations say when their bodies do. -/
lemma performs_eachUntil (f : α → β)
    (h : ∀ a disk, Performs (entry (f a)) disk (body a disk)) (as : List α) (disk : Disk) :
    Performs (extractEach entry (as.map f)) disk (eachUntil body as disk) := by
  induction as generalizing disk with
  | nil => exact performs_self _ _ _
  | cons a as ih =>
    obtain ⟨herr, hwrites⟩ := h a disk
    rw [eachUntil_cons, List.map_cons, extractEach]
    rcases hentry : entry (f a) with ⟨ops, err⟩
    rw [hentry] at herr hwrites
    cases err with
    | some err =>
      rw [if_pos (by rw [herr]; rfl)]
      exact ⟨herr, hwrites⟩
    | none =>
      rw [if_neg (by rw [herr]; simp)]
      obtain ⟨herr', hwrites'⟩ := ih (body a disk).1
      refine ⟨herr', fun path hne => ?_⟩
      by_cases hsame : (body a disk).1 path = disk path
      · rw [← hsame] at hne
        exact List.mem_append_right _ (hwrites' path hne)
      · exact List.mem_append_left _ (hwrites path hsame)

lemma performs_extractZip (dest : Bytes) (files : List (ZipFile × Entry)) (disk : Disk) :
    Performs (extractZip dest (files.map (Prod.map id Entry.answers))) disk
      (extractZipOn dest files disk) := by
  refine performs_eachUntil _ ?_ files disk
  rintro ⟨f, e⟩ disk
  rw [Prod.map_apply, extractZipFile, extractZipFileOn]
  dsimp only [id]
  cases safeExtractPath dest f.name with
  | error err => exact performs_self _ _ _
  | ok target =>
    dsimp only
    split_ifs
    · exact performs_self _ _ _
    · cases e.answers.mkdirAll.or e.answers.openFile with
      | some err => exact performs_self _ _ _
      | none => exact performs_copyTo target e disk

lemma performs_extractTarReader (dest : Bytes) (entries : List (Except Bytes (Header × Entry)))
    (disk : Disk) :
    Performs (extractTarReader dest (entries.map (Except.map (Prod.map id Entry.answers)))) disk
      (extractTarReaderOn dest entries disk) := by
  refine performs_eachUntil _ ?_ entries disk
  intro a disk
  cases a with
  | error err => exact performs_self _ _ _
  | ok entry =>
    obtain ⟨header, e⟩ := entry
    rw [Except.map, Prod.map_apply, extractTarEntry, extractTarEntryOn]
    dsimp only [id]
    cases safeExtractPath dest header.name with
    | error err => exact performs_self _ _ _
    | ok target =>
      dsimp only
      split_ifs
      · exact performs_self _ _ _
      · cases e.answers.mkdirAll with
        | some err => exact performs_self _ _ _
        | none => exact performs_copyTo target e disk
      · exact performs_self _ _ _

/-- **An extraction writes files inside the destination only.** -/
theorem extraction_writes_inside {path : Bytes} (hdest : dest.head? = some separator)
    (disk : Disk) :
    (∀ files, (extractZipOn dest files disk).1 path ≠ disk path → Inside (clean dest) path) ∧
      ∀ entries, (extractTarReaderOn dest entries disk).1 path ≠ disk path →
        Inside (clean dest) path := by
  obtain ⟨-, hzip, htar⟩ := extraction_staysIn hdest
  constructor
  · intro files hne
    exact (hzip _ _ ((performs_extractZip dest files disk).2 path hne)).target
  · intro entries hne
    exact (htar _ _ ((performs_extractTarReader dest entries disk).2 path hne)).target

end Operations

end Arcsent.Signatures
