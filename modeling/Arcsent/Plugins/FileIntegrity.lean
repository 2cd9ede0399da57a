/-
# The hashes of files

`internal/plugins/system/file_integrity.go`: every configured path is walked, and every entry
met that is no directory is opened by its path and hashed.  What cannot be listed or read
makes a finding.  The hashes go into the metadata of the result; the plugin compares them with
nothing.
-/
import Arcsent.Lib.Paths
import Arcsent.Lib.Walk
import Arcsent.Plugins.Init

namespace Arcsent.Plugins

open Arcsent.Go Arcsent.Lib Arcsent.Scanner

/-- The function `filepath.Clean` on a path that is a text. -/
def cleanText (path : String) : String :=
  let parts := path.toList.splitOn '/'
  if path.toList.head? = some '/' then String.ofList (fromRoot '/' (resolve '.' true parts))
  else
    match resolve '.' false parts with
    | [] => "."
    | parts => String.ofList (['/'].intercalate parts)

/-- The path of an entry of a directory, by `filepath.Join`. -/
def joinPath (directory name : String) : String :=
  if directory = "" then cleanText name else cleanText (directory ++ "/" ++ name)

/-- What is to be found on the disk. -/
structure Disk where
  /-- The entry of a path, which is not followed, with all that is listed below it. -/
  listing : String → Except String (Listing String String)
  /-- No directory lists a name twice. -/
  distinct : ∀ path t, listing path = .ok t → t.Distinct
  /-- The bytes that a path leads to when it is opened. -/
  read : String → Except String Bytes

variable (sha256 : Bytes → String) (disk : Disk) (paths : List String)

/-- The function `hashFile`. -/
def hashFile (path : String) : Except String String := (disk.read path).map sha256

/-- The finding about an entry that cannot be looked at. -/
def fileAccessError (path err : String) : Finding where
  id := "file_access_error"
  severity := .low
  category := "file_integrity"
  description := "Failed to access " ++ path
  evidence := [("path", .string path), ("error", .string err)]
  remediation := "Verify file permissions and integrity."

/-- The finding about a file that cannot be hashed. -/
def fileHashError (path err : String) : Finding where
  id := "file_hash_error"
  severity := .low
  category := "file_integrity"
  description := "Failed to hash " ++ path
  evidence := [("path", .string path), ("error", .string err)]
  remediation := "Verify file readability."

/-- The entry of a map is set. -/
def setHash (hashes : List (String × String)) (path hash : String) : List (String × String) :=
  hashes.filter (·.1 ≠ path) ++ [(path, hash)]

/-- The function that the walk calls, on the findings and the hashes so far. -/
def visit (acc : List Finding × List (String × String)) :
    String × Met String → List Finding × List (String × String)
  | (path, .failed err) => (acc.1 ++ [fileAccessError path err], acc.2)
  | (_, .dir) => acc
  | (path, .leaf) =>
    match hashFile sha256 disk path with
    | .error err => (acc.1 ++ [fileHashError path err], acc.2)
    | .ok hash => (acc.1, setHash acc.2 path hash)

/-- The calls that the function `filepath.WalkDir` makes for a root. -/
def walkDir (root : String) : List (String × Met String) :=
  match disk.listing root with
  | .error err => [(root, .failed err)]
  | .ok t => (t.walk []).map fun e => (e.1.foldl joinPath root, e.2)

/-- All calls of a run. -/
def visits : List (String × Met String) := paths.flatMap (walkDir disk)

/-- The findings and the hashes of a run. -/
def scanFiles : List Finding × List (String × String) :=
  paths.foldl (fun acc root => (walkDir disk root).foldl (visit sha256 disk) acc) ([], [])

/-- The method `Run` of `FileIntegrity`. -/
def runFileIntegrity (timestamp : String) : Result where
  scannerName := (Plugin.fileIntegrity paths).name
  status := .success
  findings := (scanFiles sha256 disk paths).1
  startedAt := 0
  finishedAt := 0
  duration := 0
  metadata :=
    ⟨[("timestamp", .string timestamp), ("hashes", .stringMap (scanFiles sha256 disk paths).2)],
      by simp⟩

/-! ## What is reported -/

/-- A walk from one of the paths meets an entry. -/
def Encounters (path : String) (met : Met String) : Prop :=
  ∃ root ∈ paths, ∃ t names node, disk.listing root = .ok t ∧ t.find names = some node ∧
    met ∈ node.here ∧ path = names.foldl joinPath root

/-- The bytes of a file that is met. -/
def HoldsFile (path : String) (content : Bytes) : Prop :=
  Encounters disk paths path .leaf ∧ disk.read path = .ok content

/-- What there is to be reported. -/
inductive Reported : Finding → Prop
  | root {root err : String} (hroot : root ∈ paths) (h : disk.listing root = .error err) :
    Reported (fileAccessError root err)
  | listing {path err : String} (h : Encounters disk paths path (.failed err)) :
    Reported (fileAccessError path err)
  | file {path err : String} (h : Encounters disk paths path .leaf)
    (hread : disk.read path = .error err) : Reported (fileHashError path err)

variable {sha256 disk paths}

lemma lookup_filter_ne (hashes : List (String × String)) (path other : String) :
    (hashes.filter (·.1 ≠ path)).lookup other =
      if other = path then none else hashes.lookup other := by
  induction hashes with
  | nil => simp
  | cons e hashes ih =>
    obtain ⟨key, hash⟩ := e
    by_cases hkey : key = path
    · have hdrop : ((key, hash) :: hashes).filter (·.1 ≠ path) = hashes.filter (·.1 ≠ path) :=
        List.filter_cons_of_neg (by simpa using hkey)
      rw [hdrop, ih]
      split_ifs with hother
      · rfl
      · rw [List.lookup_cons, beq_eq_false_iff_ne.mpr (hkey ▸ hother)]
    · have hkeep : ((key, hash) :: hashes).filter (·.1 ≠ path) =
          (key, hash) :: hashes.filter (·.1 ≠ path) := List.filter_cons_of_pos (by simpa using hkey)
      rw [hkeep, List.lookup_cons, List.lookup_cons, ih]
      by_cases hother : other = key
      · simp [hother, hkey]
      · rw [beq_eq_false_iff_ne.mpr hother]

lemma lookup_setHash (hashes : List (String × String)) (path hash other : String) :
    (setHash hashes path hash).lookup other =
      if other = path then some hash else hashes.lookup other := by
  rw [setHash, List.lookup_append, lookup_filter_ne]
  by_cases hother : other = path
  · rw [if_pos hother, if_pos hother, hother, List.lookup_cons_self]
    rfl
  · rw [if_neg hother, if_neg hother, List.lookup_cons, beq_eq_false_iff_ne.mpr hother]
    exact Option.or_none

/-- What the calls of a run are about. -/
lemma mem_visits {path : String} {met : Met String} :
    (path, met) ∈ visits disk paths ↔ Encounters disk paths path met ∨
      ∃ err, met = .failed err ∧ path ∈ paths ∧ disk.listing path = .error err := by
  rw [visits, List.mem_flatMap]
  constructor
  · rintro ⟨root, hroot, hmem⟩
    rw [walkDir] at hmem
    cases hlisting : disk.listing root with
    | error err =>
      rw [hlisting] at hmem
      obtain ⟨rfl, rfl⟩ := Prod.mk.inj (List.mem_singleton.mp hmem)
      exact .inr ⟨err, rfl, hroot, hlisting⟩
    | ok t =>
      rw [hlisting] at hmem
      obtain ⟨⟨names, met'⟩, hwalk, heq⟩ := List.mem_map.mp hmem
      obtain ⟨rfl, rfl⟩ := Prod.mk.inj heq
      obtain ⟨_, node, rfl, hfind, hhere⟩ :=
        (Listing.mem_walk [] names met' t (disk.distinct root t hlisting)).mp hwalk
      exact .inl ⟨root, hroot, t, _, node, hlisting, hfind, hhere, rfl⟩
  · rintro (⟨root, hroot, t, names, node, hlisting, hfind, hhere, rfl⟩ | ⟨err, rfl, hroot, herr⟩)
    · refine ⟨root, hroot, ?_⟩
      rw [walkDir, hlisting]
      refine List.mem_map.mpr ⟨(names, met), ?_, rfl⟩
      exact (Listing.mem_walk [] names met t (disk.distinct root t hlisting)).mpr
        ⟨names, node, rfl, hfind, hhere⟩
    · refine ⟨path, hroot, ?_⟩
      rw [walkDir, herr]
      exact List.mem_singleton_self _

/-- The calls of a run follow one another. -/
lemma scanFiles_eq : scanFiles sha256 disk paths =
    (visits disk paths).foldl (visit sha256 disk) ([], []) := by
  rw [scanFiles, visits, List.foldl_flatMap]

/-- The hashes are those of the files that have been met and could be read. -/
lemma lookup_foldl_visit (calls : List (String × Met String)) (path hash : String) :
    (calls.foldl (visit sha256 disk) ([], [])).2.lookup path = some hash ↔
      (path, .leaf) ∈ calls ∧ hashFile sha256 disk path = .ok hash := by
  induction calls using List.reverseRecOn with
  | nil => simp
  | append_singleton calls call ih =>
    rw [List.foldl_concat, List.mem_append, List.mem_singleton]
    obtain ⟨path', met⟩ := call
    cases met with
    | failed err => simpa [visit] using ih
    | dir => simpa [visit] using ih
    | leaf =>
      rw [visit]
      cases hhash : hashFile sha256 disk path' with
      | error err =>
        rw [ih]
        refine and_congr_left fun hok => ⟨.inl, ?_⟩
        rintro (hmem | heq)
        · exact hmem
        · obtain ⟨rfl, -⟩ := Prod.mk.inj heq
          rw [hhash] at hok
          cases hok
      | ok hash' =>
        dsimp only
        rw [lookup_setHash]
        split_ifs with hpath
        · subst hpath
          rw [hhash]
          simp
        · rw [ih]
          simp [hpath]

/-- The finding that a call makes. -/
def callFinding (sha256 : Bytes → String) (disk : Disk) : String × Met String → Option Finding
  | (path, .failed err) => some (fileAccessError path err)
  | (_, .dir) => none
  | (path, .leaf) =>
    match hashFile sha256 disk path with
    | .error err => some (fileHashError path err)
    | .ok _ => none

/-- The findings are those of the calls, in order. -/
lemma findings_foldl_visit (calls : List (String × Met String)) :
    (calls.foldl (visit sha256 disk) ([], [])).1 = calls.filterMap (callFinding sha256 disk) := by
  induction calls using List.reverseRecOn with
  | nil => rfl
  | append_singleton calls call ih =>
    rw [List.foldl_concat, List.filterMap_append, ← ih]
    obtain ⟨path, met⟩ := call
    cases met with
    | failed err => rfl
    | dir => exact (List.append_nil _).symm
    | leaf =>
      cases hhash : hashFile sha256 disk path with
      | error err => simp [visit, callFinding, hhash]
      | ok hash => simp [visit, callFinding, hhash]

lemma hashFile_eq_ok {path hash : String} :
    hashFile sha256 disk path = .ok hash ↔
      ∃ content, disk.read path = .ok content ∧ sha256 content = hash := by
  rw [hashFile]
  cases disk.read path <;> simp [Except.map]

lemma callFinding_eq_some {call : String × Met String} {f : Finding} :
    callFinding sha256 disk call = some f ↔
      (∃ path err, call = (path, .failed err) ∧ fileAccessError path err = f) ∨
      ∃ path err, call = (path, .leaf) ∧ disk.read path = .error err ∧
        fileHashError path err = f := by
  obtain ⟨path, met⟩ := call
  cases met with
  | failed err => simp [callFinding]
  | dir => simp [callFinding]
  | leaf =>
    cases hread : disk.read path with
    | error err => simp [callFinding, hashFile, hread, Except.map]
    | ok content => simp [callFinding, hashFile, hread, Except.map]

/-- **Every file below a path is hashed or reported**, and so is what cannot be listed; nothing
else is reported or hashed. -/
theorem scanFiles_iff (sha256 : Bytes → String) (disk : Disk) (paths : List String) :
    (∀ f, f ∈ (scanFiles sha256 disk paths).1 ↔ Reported disk paths f) ∧
      ∀ path hash, (scanFiles sha256 disk paths).2.lookup path = some hash ↔
        ∃ content, HoldsFile disk paths path content ∧ sha256 content = hash := by
  rw [scanFiles_eq]
  constructor
  · intro f
    rw [findings_foldl_visit, List.mem_filterMap]
    constructor
    · rintro ⟨call, hcall, hf⟩
      rcases callFinding_eq_some.mp hf with ⟨path, err, rfl, rfl⟩ | ⟨path, err, rfl, hread, rfl⟩
      · rcases mem_visits.mp hcall with hmeets | ⟨err', herr, hroot, hlisting⟩
        · exact .listing hmeets
        · obtain rfl := Met.failed.inj herr
          exact .root hroot hlisting
      · rcases mem_visits.mp hcall with hmeets | ⟨err', herr, -⟩
        · exact .file hmeets hread
        · cases herr
    · intro hreported
      cases hreported with
      | root hroot hlisting =>
        exact ⟨_, mem_visits.mpr (.inr ⟨_, rfl, hroot, hlisting⟩), rfl⟩
      | listing hmeets => exact ⟨_, mem_visits.mpr (.inl hmeets), rfl⟩
      | file hmeets hread =>
        exact ⟨_, mem_visits.mpr (.inl hmeets),
          callFinding_eq_some.mpr (.inr ⟨_, _, rfl, hread, rfl⟩)⟩
  · intro path hash
    rw [lookup_foldl_visit, mem_visits, hashFile_eq_ok]
    constructor
    · rintro ⟨hmeets | ⟨err, herr, -⟩, content, hread, rfl⟩
      · exact ⟨content, ⟨hmeets, hread⟩, rfl⟩
      · cases herr
    · rintro ⟨content, ⟨hmeets, hread⟩, rfl⟩
      exact ⟨.inl hmeets, content, hread, rfl⟩

end Arcsent.Plugins
