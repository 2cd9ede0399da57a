/-
# Imports that come to their end

An import that is not broken off has copied everything it found: a file of the cache holds
what the last entry of its name does, and the rest is as it was.  Of a directory, which lies
apart from the cache, it makes an exact copy, as different files of a tree come to different
places.
-/
import Arcsent.Lib.Latest
import Arcsent.Lib.Walk
import Arcsent.Signatures.FailedImports

namespace Arcsent.Signatures

open Arcsent.Go Arcsent.Go.Filepath Arcsent.Lib

variable {srcPath : String} {destDir : Bytes} {m : Material} {disk disk' : Disk}
  {actions : List Action} {a : Action} {path : Bytes} {names : List Bytes}

/-! ## All files of an import -/

/-- A file with its new content, on the disk. -/
def overlay (disk : Disk) (f : Bytes × Bytes) : Disk := Function.update disk f.1 (some f.2)

/-- An action without an error has copied its file. -/
lemma perform_of_ok (h : a.error = none) (disk : Disk) :
    a.perform disk = ((importedFiles [a]).foldl overlay disk, none) := by
  rw [Action.error, Option.or_eq_none_iff, Option.or_eq_none_iff] at h
  obtain ⟨⟨hearly, hfile⟩, hlate⟩ := h
  rw [Action.perform, hearly, hlate, importedFiles, List.filterMap_cons]
  cases hf : a.file with
  | none => rfl
  | some f =>
    obtain ⟨target, e⟩ := f
    rw [hf, Option.bind_some, Option.or_eq_none_iff] at hfile
    have hcopy : copyTo target e disk = (overlay disk (target, e.content), none) := by
      obtain ⟨hcreate, hcopy⟩ := hfile
      dsimp only at hcreate hcopy
      rw [copyTo, hcreate, hcopy]
      rfl
    dsimp only
    rw [hcopy]
    rfl

/-- Without an error the files are copied one after the other. -/
lemma eachUntil_of_ok (h : ∀ a ∈ actions, a.error = none) (disk : Disk) :
    eachUntil Action.perform actions disk =
      ((importedFiles actions).foldl overlay disk, none) := by
  induction actions generalizing disk with
  | nil => rfl
  | cons a actions ih =>
    have hfirst := perform_of_ok (h a List.mem_cons_self) disk
    have hsplit : importedFiles (a :: actions) = importedFiles [a] ++ importedFiles actions := by
      rw [importedFiles, ← List.singleton_append, List.filterMap_append]
      rfl
    rw [eachUntil_cons, hfirst, if_neg (by simp), hsplit, List.foldl_append]
    exact ih (fun b hb => h b (List.mem_cons_of_mem _ hb)) _

/-- What a path holds in the end is the content of the last file of its name. -/
lemma foldl_overlay (files : List (Bytes × Bytes)) (disk : Disk) (path : Bytes) :
    files.foldl overlay disk path = ((latest Prod.fst files path).map Prod.snd).or (disk path) := by
  have hstep (disk : Disk) (f : Bytes × Bytes) (_ : f ∈ files) :
      overlay disk f path = if f.1 = path then some f.2 else disk path := by
    rw [overlay]
    split_ifs with hpath
    · rw [hpath, Function.update_self]
    · exact Function.update_of_ne (Ne.symm hpath) _ _
  rw [view_foldl (fun disk : Disk => disk path) (fun f => some f.2) disk hstep]
  cases latest Prod.fst files path <;> rfl

/-- **An import that has no error has copied everything**: it comes to its end exactly when
none of its actions fails, and then every file of the disk holds what the last entry of its
name does, and otherwise what it did before. -/
theorem importAirgap_completed (srcPath : String) (destDir : Bytes) (m : Material) (disk : Disk) :
    ((importAirgap srcPath destDir m disk).2 = none ↔
        ∀ a ∈ importActions srcPath destDir m, a.error = none) ∧
      ((importAirgap srcPath destDir m disk).2 = none →
        ∀ path, (importAirgap srcPath destDir m disk).1 path =
          ((latest Prod.fst (importedFiles (importActions srcPath destDir m)) path).map
            Prod.snd).or (disk path)) := by
  rw [importAirgap_eq]
  have hiff : (eachUntil Action.perform (importActions srcPath destDir m) disk).2 = none ↔
      ∀ a ∈ importActions srcPath destDir m, a.error = none :=
    ⟨fun h a ha => error_of_eachUntil (Prod.ext rfl h) ha, fun h => by rw [eachUntil_of_ok h]⟩
  refine ⟨hiff, fun hend path => ?_⟩
  rw [eachUntil_of_ok (hiff.mp hend)]
  exact foldl_overlay _ disk path

/-! ## Directories -/

/-- A directory with all that is below it. -/
structure SourceTree where
  tree : Listing Bytes Bytes
  /-- No directory lists a name twice. -/
  distinct : tree.Distinct
  /-- The names are such as a path can have. -/
  names : ∀ e ∈ tree.walk [], ∀ c ∈ e.1, IsName dot c ∧ separator ∉ c
  /-- What the calls on an entry return, and what a file has to give. -/
  entry : List Bytes → Entry

/-- What the walk passes on at an entry. -/
def SourceTree.visit (s : SourceTree) : List Bytes × Met Bytes → Except Bytes Visit
  | (_, .failed err) => .error err
  | (names, .dir) => .ok ⟨names, true, s.entry names⟩
  | (names, .leaf) => .ok ⟨names, false, s.entry names⟩

/-- The calls of `filepath.WalkDir`. -/
def SourceTree.visits (s : SourceTree) : List (Except Bytes Visit) :=
  (s.tree.walk []).map s.visit

/-- A file of the tree. -/
def SourceTree.IsFile (s : SourceTree) (names : List Bytes) : Prop :=
  s.tree.find names = some .leaf

lemma SourceTree.IsFile.mem_walk {s : SourceTree} (h : s.IsFile names) :
    (names, .leaf) ∈ s.tree.walk [] :=
  (s.tree.mem_walk [] names .leaf s.distinct).mpr
    ⟨names, .leaf, rfl, h, List.mem_singleton_self _⟩

lemma SourceTree.IsFile.isNames {s : SourceTree} (h : s.IsFile names) : Names names :=
  s.names _ h.mem_walk

/-- The names on the way to an entry become the last components of its place. -/
lemma join_rel (hdest : destDir.head? = some separator) (hnames : Names names) :
    join [destDir, rel names] =
      fromRoot separator (resolve dot true (destDir.splitOn separator) ++ names) := by
  rw [join_pair_of_rooted hdest, rel]
  congr 1
  split_ifs with hnil
  · have hdot : ([dot] : Bytes).splitOn separator = [[dot]] := by decide
    rw [hdot, resolve_append (by decide), hnil]
    rfl
  · rw [List.splitOn_intercalate separator (fun c hc => (hnames c hc).2) hnil,
      resolve_append fun hup => (hnames _ hup).1.2.2 rfl]
    congr 1
    exact List.filter_eq_self.mpr fun c hc => by simpa using (hnames c hc).1

/-- Different files come to different places. -/
lemma join_rel_inj (hdest : destDir.head? = some separator) {names' : List Bytes}
    (hnames : Names names) (hnames' : Names names')
    (h : join [destDir, rel names] = join [destDir, rel names']) : names = names' := by
  have hbase := names_resolve destDir
  rw [join_rel hdest hnames, join_rel hdest hnames'] at h
  have hcomponents := congrArg components h
  rw [components_fromRoot (names_append hbase hnames),
    components_fromRoot (names_append hbase hnames')] at hcomponents
  exact List.append_cancel_left hcomponents

/-- What a copy of the directory writes. -/
lemma mem_importedFiles_visits (s : SourceTree) (destDir : Bytes) {f : Bytes × Bytes} :
    f ∈ importedFiles (s.visits.map (visitAction destDir)) ↔
      ∃ names, s.IsFile names ∧ f = (join [destDir, rel names], (s.entry names).content) := by
  simp only [importedFiles, SourceTree.visits, List.map_map, List.mem_filterMap, List.mem_map,
    Function.comp_apply]
  constructor
  · rintro ⟨a, ⟨e, he, rfl⟩, hf⟩
    obtain ⟨names, met⟩ := e
    obtain ⟨names, node, rfl, hfind, hmet⟩ := (s.tree.mem_walk [] names met s.distinct).mp he
    cases met with
    | failed err => cases hf
    | dir => cases hf
    | leaf =>
      refine ⟨_, ?_, (Option.some.inj hf).symm⟩
      cases node with
      | leaf => exact hfind
      | dir err entries => simp [Listing.here] at hmet
  · rintro ⟨names, hfile, rfl⟩
    exact ⟨_, ⟨(names, .leaf), hfile.mem_walk, rfl⟩, rfl⟩

/-- **A directory apart from the cache is copied exactly**: after an import without an error
every file of the tree is in the cache under the same names, with its content, and no other
file has changed. -/
theorem copied_tree (hdest : destDir.head? = some separator) (s : SourceTree)
    (hstat : m.stat = .ok true) (hvisits : m.visits = s.visits)
    (h : importAirgap srcPath destDir m disk = (disk', none)) :
    (∀ names, s.IsFile names →
        disk' (join [destDir, rel names]) = some (s.entry names).content) ∧
      ∀ path, (∀ names, s.IsFile names → path ≠ join [destDir, rel names]) →
        disk' path = disk path := by
  have hactions : eachUntil Action.perform (s.visits.map (visitAction destDir)) disk =
      (disk', none) := by
    rw [importAirgap_eq, importActions, hstat] at h
    cases hmkdir : m.mkdirAll with
    | some err => simp [hmkdir, Action.fail, eachUntil, Action.perform] at h
    | none => simpa [hmkdir, hvisits] using h
  rw [eachUntil_of_ok fun a ha => error_of_eachUntil hactions ha] at hactions
  -- a file of the cache is the one copied last to its path, if any
  have hdisk (path : Bytes) : disk' path =
      ((latest Prod.fst (importedFiles (s.visits.map (visitAction destDir))) path).map
        Prod.snd).or (disk path) := by
    rw [← foldl_overlay]
    exact congrFun (congrArg Prod.fst hactions).symm path
  constructor
  · intro names hfile
    have hmem := (mem_importedFiles_visits s destDir).mpr ⟨names, hfile, rfl⟩
    have hsome : (latest Prod.fst (importedFiles (s.visits.map (visitAction destDir)))
        (join [destDir, rel names])).isSome := isSome_latest.mpr ⟨_, hmem, rfl⟩
    obtain ⟨f, hf⟩ := Option.isSome_iff_exists.mp hsome
    obtain ⟨hplace, before, after, hlist, -⟩ := latest_eq_some_iff.mp hf
    have hlisted : f ∈ importedFiles (s.visits.map (visitAction destDir)) := by
      rw [hlist]
      exact List.mem_append_right _ List.mem_cons_self
    obtain ⟨names', hfile', rfl⟩ := (mem_importedFiles_visits s destDir).mp hlisted
    -- no other file of the tree comes to this place
    obtain rfl := join_rel_inj hdest hfile'.isNames hfile.isNames hplace
    rw [hdisk, hf]
    rfl
  · intro path hother
    have hnone : latest Prod.fst (importedFiles (s.visits.map (visitAction destDir))) path =
        none := by
      rw [← Option.not_isSome_iff_eq_none, isSome_latest]
      rintro ⟨f, hf, rfl⟩
      obtain ⟨names, hfile, rfl⟩ := (mem_importedFiles_visits s destDir).mp hf
      exact hother names hfile rfl
    rw [hdisk, hnone]
    rfl

/-- A directory of two files, one of them in a directory of its own. -/
def mirror : SourceTree where
  tree := .dir none
    [(bytes "kev.json", .leaf), (bytes "lists", .dir none [(bytes "epss.csv", .leaf)])]
  distinct := ⟨by decide, trivial, ⟨by decide, trivial, trivial⟩, trivial⟩
  names := by decide
  entry names :=
    ⟨if names = [bytes "kev.json"] then bytes "[]" else bytes "cve,epss", ⟨none, none, none, none⟩,
      [], none⟩

/-- An import of it. -/
def mirrorMaterial : Material where
  stat := .ok true
  mkdirAll := none
  visits := mirror.visits
  openFile := none
  gzip := none
  files := []
  headers := []
  file := mirror.entry []

/-- The second file takes the place that the tree gives it. -/
theorem copied_tree_mirror :
    (importAirgap "/media/mirror" cacheDir mirrorMaterial oldDisk).1
        (join [cacheDir, rel [bytes "lists", bytes "epss.csv"]]) = some (bytes "cve,epss") := by
  have herr : (importAirgap "/media/mirror" cacheDir mirrorMaterial oldDisk).2 = none := by
    decide +kernel
  have hcopied := copied_tree (by decide) mirror rfl rfl (Prod.ext rfl herr)
  exact hcopied.1 [bytes "lists", bytes "epss.csv"] rfl

end Arcsent.Signatures
