/-
# Failed imports

What an import does with each entry is the same whatever it imports from: some calls come
before its file is created, then the file is created and filled, and a call may come after
that.  An import that fails leaves every file whole unless it breaks off while a file is
being filled.  As before, what is imported lies apart from the cache.
-/
import Arcsent.Signatures.Airgap

namespace Arcsent.Signatures

open Arcsent.Go Arcsent.Go.Filepath Arcsent.Lib

/-- What an import does with an entry. -/
structure Action where
  /-- An error that comes before a file is created. -/
  early : Option Bytes
  /-- The file, and what is copied to it. -/
  file : Option (Bytes × Entry)
  /-- An error that comes after the copying. -/
  late : Option Bytes

/-- The action on the disk. -/
def Action.perform (a : Action) (disk : Disk) : Disk × Option Bytes :=
  match a.early with
  | some err => (disk, some err)
  | none =>
    match a.file with
    | none => (disk, a.late)
    | some (target, e) =>
      match copyTo target e disk with
      | (disk, some err) => (disk, some err)
      | (disk, none) => (disk, a.late)

/-- The error that the action ends with. -/
def Action.error (a : Action) : Option Bytes :=
  (a.early.or (a.file.bind fun f => f.2.answers.create.or f.2.answers.copy)).or a.late

/-- The import ends at once. -/
def Action.fail (err : Bytes) : Action := ⟨some err, none, none⟩

def fileAction (dest : Bytes) (e : Entry) : Action :=
  ⟨e.answers.mkdirAll.or e.answers.openFile, some (dest, e), e.sync⟩

def visitAction (dest : Bytes) : Except Bytes Visit → Action
  | .error err => .fail err
  | .ok v =>
    if v.isDir then ⟨v.entry.answers.mkdirAll, none, none⟩
    else fileAction (join [dest, rel v.names]) v.entry

def zipAction (dest : Bytes) : ZipFile × Entry → Action
  | (f, e) =>
    match safeExtractPath dest f.name with
    | .error err => .fail err
    | .ok target =>
      if f.isDir then ⟨e.answers.mkdirAll, none, none⟩
      else ⟨e.answers.mkdirAll.or e.answers.openFile, some (target, e), none⟩

def tarAction (dest : Bytes) : Except Bytes (Header × Entry) → Action
  | .error err => .fail err
  | .ok (header, e) =>
    match safeExtractPath dest header.name with
    | .error err => .fail err
    | .ok target =>
      if header.typeflag = typeDir then ⟨e.answers.mkdirAll, none, none⟩
      else if header.typeflag = typeReg then ⟨e.answers.mkdirAll, some (target, e), none⟩
      else ⟨none, none, none⟩

/-- The actions on an archive, if it can be opened. -/
def archiveActions {α : Type} (openErr : Option Bytes) (action : α → Action) (entries : List α) :
    List Action :=
  match openErr with
  | some err => [.fail err]
  | none => entries.map action

/-- The actions of an import. -/
def importActions (srcPath : String) (destDir : Bytes) (m : Material) : List Action :=
  match m.stat with
  | .error err => [.fail (bytes "stat airgap path: " ++ err)]
  | .ok isDir =>
    match m.mkdirAll with
    | some err => [.fail (bytes "create cache dir: " ++ err)]
    | none =>
      if isDir then m.visits.map (visitAction destDir)
      else if hasSuffix srcPath ".zip" then archiveActions m.openFile (zipAction destDir) m.files
      else if hasSuffix srcPath ".tar.gz" || hasSuffix srcPath ".tgz" then
        archiveActions (m.openFile.or m.gzip) (tarAction destDir) m.headers
      else if hasSuffix srcPath ".tar" then
        archiveActions m.openFile (tarAction destDir) m.headers
      else [fileAction (join [destDir, bytes (base srcPath)]) m.file]

/-- The files of an import, with their complete contents. -/
def importedFiles (actions : List Action) : List (Bytes × Bytes) :=
  actions.filterMap fun a => a.file.map fun f => (f.1, f.2.content)

/-- The import breaks off while it copies to a file. -/
def BreaksOff (actions : List Action) (target : Bytes) (e : Entry) : Prop :=
  ∃ a, actions.find? (fun a => a.error.isSome) = some a ∧ a.early = none ∧
    a.file = some (target, e) ∧ e.answers.create = none ∧ e.answers.copy ≠ none

/-- Every file holds what it did before, or an entry of its name completely. -/
def Undamaged (files : List (Bytes × Bytes)) (before after : Disk) : Prop :=
  ∀ path, after path = before path ∨
    ∃ content, (path, content) ∈ files ∧ after path = some content

/-! ## An import as a list of actions -/

variable {dest : Bytes} {disk disk' : Disk} {a : Action} {actions : List Action}

lemma eachUntil_map {α : Type} {body : α → Disk → Disk × Option Bytes} {action : α → Action}
    (h : ∀ a disk, body a disk = (action a).perform disk) (as : List α) (disk : Disk) :
    eachUntil body as disk = eachUntil Action.perform (as.map action) disk := by
  induction as generalizing disk with
  | nil => rfl
  | cons a as ih => rw [List.map_cons, eachUntil_cons, eachUntil_cons, h, ih]

lemma eachUntil_singleton (a : Action) (disk : Disk) :
    eachUntil Action.perform [a] disk = a.perform disk := by
  rw [eachUntil_cons]
  split_ifs with hfails
  · rfl
  · have hnone : (a.perform disk).2 = none := by simpa using hfails
    exact Prod.ext rfl hnone.symm

lemma copyFile_eq (target : Bytes) (e : Entry) (disk : Disk) :
    copyFile target e disk = (fileAction target e).perform disk := rfl

lemma copyDirEntry_eq (v : Except Bytes Visit) (disk : Disk) :
    copyDirEntry dest v disk = (visitAction dest v).perform disk := by
  cases v with
  | error err => rfl
  | ok v =>
    rw [copyDirEntry, visitAction]
    split_ifs
    · rw [Action.perform]
      cases v.entry.answers.mkdirAll <;> rfl
    · rfl

lemma extractZipFileOn_eq (f : ZipFile × Entry) (disk : Disk) :
    extractZipFileOn dest f disk = (zipAction dest f).perform disk := by
  obtain ⟨f, e⟩ := f
  rw [extractZipFileOn, zipAction]
  cases safeExtractPath dest f.name with
  | error err => rfl
  | ok target =>
    dsimp only
    split_ifs
    · rw [Action.perform]
      cases e.answers.mkdirAll <;> rfl
    · rw [Action.perform]
      dsimp only
      cases e.answers.mkdirAll.or e.answers.openFile with
      | some err => rfl
      | none =>
        rcases copyTo target e disk with ⟨disk', err⟩
        cases err <;> rfl

lemma extractTarEntryOn_eq (entry : Except Bytes (Header × Entry)) (disk : Disk) :
    extractTarEntryOn dest entry disk = (tarAction dest entry).perform disk := by
  cases entry with
  | error err => rfl
  | ok entry =>
    obtain ⟨header, e⟩ := entry
    rw [extractTarEntryOn, tarAction]
    cases safeExtractPath dest header.name with
    | error err => rfl
    | ok target =>
      dsimp only
      split_ifs
      · rw [Action.perform]
        cases e.answers.mkdirAll <;> rfl
      · rw [Action.perform]
        dsimp only
        cases e.answers.mkdirAll with
        | some err => rfl
        | none =>
          rcases copyTo target e disk with ⟨disk', err⟩
          cases err <;> rfl
      · rfl

/-- **An import performs its actions**, up to the first error. -/
theorem importAirgap_eq (srcPath : String) (destDir : Bytes) (m : Material) (disk : Disk) :
    importAirgap srcPath destDir m disk =
      eachUntil Action.perform (importActions srcPath destDir m) disk := by
  rw [importAirgap, importActions]
  cases m.stat with
  | error err => rfl
  | ok isDir =>
    dsimp only
    cases m.mkdirAll with
    | some err => rfl
    | none =>
      -- a directory, an archive of either kind or a single file
      dsimp only
      split_ifs
      · exact eachUntil_map copyDirEntry_eq m.visits disk
      · cases m.openFile with
        | some err => rfl
        | none => exact eachUntil_map extractZipFileOn_eq m.files disk
      · rw [extractTarGz]
        cases m.openFile.or m.gzip with
        | some err => rfl
        | none => exact eachUntil_map extractTarEntryOn_eq m.headers disk
      · rw [extractTar]
        cases m.openFile with
        | some err => rfl
        | none => exact eachUntil_map extractTarEntryOn_eq m.headers disk
      · rw [eachUntil_singleton, copyFile_eq]

/-! ## Where an import fails -/

/-- The error an action ends with does not depend on the disk. -/
lemma perform_error (a : Action) (disk : Disk) : (a.perform disk).2 = a.error := by
  rw [Action.perform, Action.error]
  cases a.early with
  | some err => rfl
  | none =>
    cases a.file with
    | none => rfl
    | some f =>
      obtain ⟨target, e⟩ := f
      dsimp only
      rw [copyTo]
      cases hcreate : e.answers.create with
      | some err => simp [hcreate]
      | none => cases hcopy : e.answers.copy <;> simp [hcreate, hcopy]

/-- An action leaves the disk as it is, writes its file completely, or breaks off in it. -/
lemma perform_disk (a : Action) (disk : Disk) :
    (a.perform disk).1 = disk ∧
        (∀ target e, a.early = none → a.file = some (target, e) → e.answers.create ≠ none) ∨
      ∃ target e, a.early = none ∧ a.file = some (target, e) ∧ e.answers.create = none ∧
        (a.perform disk).1 = Function.update disk target
          (some (if e.answers.copy = none then e.content else e.written)) := by
  rw [Action.perform]
  cases hearly : a.early with
  | some err => exact .inl ⟨rfl, fun _ _ h => by cases h⟩
  | none =>
    cases hfile : a.file with
    | none => exact .inl ⟨rfl, fun _ _ _ h => by cases h⟩
    | some f =>
      obtain ⟨target, e⟩ := f
      dsimp only
      rw [copyTo]
      cases hcreate : e.answers.create with
      | some err =>
        refine .inl ⟨rfl, fun target' e' _ heq => ?_⟩
        obtain ⟨-, rfl⟩ := Prod.mk.inj (Option.some.inj heq)
        rw [hcreate]
        exact Option.some_ne_none err
      | none =>
        refine .inr ⟨target, e, rfl, rfl, hcreate, ?_⟩
        -- the file is created, and holds all of the entry or what was written of it
        cases e.answers.copy <;> rfl

lemma mem_importedFiles (ha : a ∈ actions) {target : Bytes} {e : Entry}
    (hfile : a.file = some (target, e)) : (target, e.content) ∈ importedFiles actions :=
  List.mem_filterMap.mpr ⟨a, ha, by rw [hfile]; rfl⟩

/-- A file that is written is damaged unless it is as before or holds what an entry does. -/
lemma Undamaged.update_iff {files : List (Bytes × Bytes)} (h : Undamaged files disk disk')
    {target written : Bytes} :
    Undamaged files disk (Function.update disk' target (some written)) ↔
      disk target = some written ∨ (target, written) ∈ files := by
  constructor
  · intro hundamaged
    have htarget := hundamaged target
    rw [Function.update_self] at htarget
    rcases htarget with hold | ⟨content, hmem, heq⟩
    · exact .inl hold.symm
    · exact .inr (Option.some.inj heq ▸ hmem)
  · rintro hwhen path
    by_cases heq : path = target
    · rw [heq, Function.update_self]
      rcases hwhen with hold | hmem
      · exact .inl hold.symm
      · exact .inr ⟨written, hmem, rfl⟩
    · rw [Function.update_of_ne heq]
      exact h path

/-- An action that ends well damages nothing. -/
lemma Undamaged.perform {out : Disk} (h : Undamaged (importedFiles actions) disk disk')
    (ha : a ∈ actions) (hdone : a.perform disk' = (out, none)) :
    Undamaged (importedFiles actions) disk out := by
  have hout : (a.perform disk').1 = out := congrArg Prod.fst hdone
  have herror : a.error = none := (perform_error a disk').symm.trans (congrArg Prod.snd hdone)
  rcases perform_disk a disk' with ⟨hsame, -⟩ | ⟨target, e, hearly, hfile, hcreate, hwritten⟩
  · rwa [← hout, hsame]
  · have hcopy : e.answers.copy = none := by
      rw [Action.error, hearly, hfile, Option.none_or, Option.bind_some, hcreate, Option.none_or,
        Option.or_eq_none_iff] at herror
      exact herror.1
    rw [← hout, hwritten, if_pos hcopy]
    exact h.update_iff.mpr (.inr (mem_importedFiles ha hfile))

/-- The actions of an import that comes to its end have no error. -/
lemma error_of_eachUntil (h : eachUntil Action.perform actions disk = (disk', none))
    (ha : a ∈ actions) : a.error = none := by
  induction actions generalizing disk with
  | nil => exact absurd ha List.not_mem_nil
  | cons b actions ih =>
    rw [eachUntil_cons] at h
    split_ifs at h with hfails
    · rw [h] at hfails
      cases hfails
    · rcases List.mem_cons.mp ha with rfl | hrest
      · rw [← perform_error a disk]
        simpa using hfails
      · exact ih h hrest

/-- **A failed import leaves no damaged file** exactly when it does not break off in the
copying of an entry, or what was written by then is what the file held before or the content
of an entry of that name. -/
theorem undamaged_iff {srcPath : String} {destDir : Bytes} {m : Material} {err : Bytes}
    (h : importAirgap srcPath destDir m disk = (disk', some err)) :
    Undamaged (importedFiles (importActions srcPath destDir m)) disk disk' ↔
      ∀ target e, BreaksOff (importActions srcPath destDir m) target e →
        disk target = some e.written ∨
          (target, e.written) ∈ importedFiles (importActions srcPath destDir m) := by
  rw [importAirgap_eq] at h
  generalize importActions srcPath destDir m = actions at h ⊢
  obtain ⟨before, a, after, middle, hsplit, hbefore, hlast⟩ := exists_of_eachUntil h
  have ha : a ∈ actions := by simp [hsplit]
  -- up to the action that fails every file is written as a whole
  have hmiddle : Undamaged (importedFiles actions) disk middle := by
    refine inv_of_eachUntil (I := Undamaged (importedFiles actions) disk) ?_ ?_ hbefore
    · intro b hb s t hs hdone
      exact hs.perform (by simp [hsplit, hb]) hdone
    · exact fun path => .inl rfl
  have hfirst : actions.find? (fun a => a.error.isSome) = some a := by
    rw [List.find?_eq_some_iff_append]
    refine ⟨?_, before, after, hsplit, fun b hb => ?_⟩
    · rw [← perform_error a middle, hlast]
      rfl
    · rw [error_of_eachUntil hbefore hb]
      rfl
  have hdisk : (a.perform middle).1 = disk' := congrArg Prod.fst hlast
  rcases perform_disk a middle with ⟨hsame, hnone⟩ | ⟨target, e, hearly, hfile, hcreate, hwritten⟩
  · -- the last action has not come to a file
    rw [hsame] at hdisk
    refine iff_of_true (hdisk ▸ hmiddle) ?_
    rintro target e ⟨a', hfirst', hearly, hfile, hcreate, -⟩
    obtain rfl : a = a' := Option.some.inj (hfirst.symm.trans hfirst')
    exact absurd hcreate (hnone target e hearly hfile)
  · -- the action has created its file, so that only the copying is left to fail
    have hbreak {target' : Bytes} {e' : Entry} (hoff : BreaksOff actions target' e') :
        target' = target ∧ e' = e ∧ e.answers.copy ≠ none := by
      obtain ⟨a', hfirst', -, hfile', -, hcopy⟩ := hoff
      obtain rfl : a = a' := Option.some.inj (hfirst.symm.trans hfirst')
      obtain ⟨rfl, rfl⟩ := Prod.mk.inj (Option.some.inj (hfile'.symm.trans hfile))
      exact ⟨rfl, rfl, hcopy⟩
    rw [← hdisk, hwritten]
    by_cases hcopy : e.answers.copy = none
    · rw [if_pos hcopy]
      refine iff_of_true (hmiddle.update_iff.mpr (.inr (mem_importedFiles ha hfile))) ?_
      intro target' e' hoff
      exact absurd hcopy (hbreak hoff).2.2
    · rw [if_neg hcopy, hmiddle.update_iff]
      constructor
      · intro hwhen target' e' hoff
        obtain ⟨rfl, rfl, -⟩ := hbreak hoff
        exact hwhen
      · intro hwhen
        exact hwhen target e ⟨a, hfirst, hearly, hfile, hcreate, hcopy⟩

/-- An archive of two files, given what happens to the second one. -/
def feeds (second : Entry) : Material where
  stat := .ok false
  mkdirAll := none
  visits := []
  openFile := none
  gzip := none
  files :=
    [(⟨bytes "kev.json", false⟩, ⟨bytes "[]", ⟨none, none, none, none⟩, [], none⟩),
      (⟨bytes "epss.csv", false⟩, second)]
  headers := []
  file := second

/-- The cache before the import. -/
def oldDisk : Disk := fun path =>
  if path = bytes "/var/lib/arcsent/signatures/epss.csv" then some (bytes "cve,epss") else none

/-- The second file cannot be opened. -/
def unreadable : Entry :=
  ⟨bytes "cve,epss,date", ⟨none, some (bytes "zip: unsupported compression algorithm"), none, none⟩,
    [], none⟩

/-- The file is what it was. -/
theorem undamaged_unreadable :
    Undamaged (importedFiles (importActions "/media/feeds.zip" cacheDir (feeds unreadable))) oldDisk
      (importAirgap "/media/feeds.zip" cacheDir (feeds unreadable) oldDisk).1 := by
  have herr : (importAirgap "/media/feeds.zip" cacheDir (feeds unreadable) oldDisk).2 =
      some (bytes "zip: unsupported compression algorithm") := by
    decide +kernel
  have hearly : ∀ a ∈ importActions "/media/feeds.zip" cacheDir (feeds unreadable),
      a.error.isSome → a.early.isSome := by
    decide +kernel
  refine (undamaged_iff (Prod.ext rfl herr)).mpr ?_
  rintro target e ⟨a, hfirst, hnone, -⟩
  have hsome := hearly a (List.mem_of_find?_eq_some hfirst) (by simpa using List.find?_some hfirst)
  rw [hnone] at hsome
  cases hsome

/-- The second file is corrupt in the middle. -/
def corrupt : Entry :=
  ⟨bytes "cve,epss,date", ⟨none, none, none, some (bytes "flate: corrupt input before offset 5")⟩,
    bytes "cve,e", none⟩

/-- The file that was there is gone, and the new one is not complete. -/
theorem damaged_corrupt :
    (importAirgap "/media/feeds.zip" cacheDir (feeds corrupt) oldDisk).2 =
        some (bytes "flate: corrupt input before offset 5") ∧
      (importAirgap "/media/feeds.zip" cacheDir (feeds corrupt) oldDisk).1
        (bytes "/var/lib/arcsent/signatures/epss.csv") = some (bytes "cve,e") ∧
      ¬ Undamaged (importedFiles (importActions "/media/feeds.zip" cacheDir (feeds corrupt)))
        oldDisk (importAirgap "/media/feeds.zip" cacheDir (feeds corrupt) oldDisk).1 := by
  have hafter : (importAirgap "/media/feeds.zip" cacheDir (feeds corrupt) oldDisk).1
      (bytes "/var/lib/arcsent/signatures/epss.csv") = some (bytes "cve,e") := by
    decide +kernel
  have hcontents : ∀ f ∈ importedFiles (importActions "/media/feeds.zip" cacheDir (feeds corrupt)),
      f.2 ≠ bytes "cve,e" := by
    decide +kernel
  have hbefore : oldDisk (bytes "/var/lib/arcsent/signatures/epss.csv") ≠ some (bytes "cve,e") := by
    decide +kernel
  refine ⟨by decide +kernel, hafter, ?_⟩
  intro hundamaged
  rcases hundamaged (bytes "/var/lib/arcsent/signatures/epss.csv") with hold | ⟨c, hmem, heq⟩
  · exact hbefore (hold.symm.trans hafter)
  · exact hcontents _ hmem (Option.some.inj (heq.symm.trans hafter))

end Arcsent.Signatures
