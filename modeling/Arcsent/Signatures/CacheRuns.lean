/-
# The cache over all runs

One run after the other downloads into the cache, each with the configuration of its time, and
saves its status.  What the files hold in the end can be told from what the runs have
reported: every file is that of the last run that reports its source as updated.
-/
import Arcsent.Lib.History
import Arcsent.Signatures.FailedDownloads
import Arcsent.Signatures.Snapshot

namespace Arcsent.Signatures

open Arcsent.Go Arcsent.Go.Filepath Arcsent.Storage Arcsent.Lib

/-- A run that downloads: the settings it has read, its clock, and what the world has in store
for its rounds. -/
structure UpdateRun where
  cfg : UpdaterConfig
  now : Time
  nextRun : Time
  attempts : ℕ → Attempt

variable (client : HTTPClient)

/-- The sources of the run. -/
def UpdateRun.sources (r : UpdateRun) : String → Option HTTPSource :=
  builtInSources r.cfg.sourceURLs

/-- The files of the cache, and the store that has the status. -/
structure Cache (V : Type) where
  files : Files
  store : BadgerStore V

variable {V : Type} (codec : Codec Status V)

/-- A run, with the status that it saves and returns. -/
def UpdateRun.perform (r : UpdateRun) (c : Cache V) : Cache V × Status :=
  let (files, status) :=
    runOnceOn client r.cfg r.sources r.now r.nextRun (c.files, none) r.attempts c.files
  (⟨files, (saveStatus codec (some c.store) status).getD c.store⟩, status)

/-- The runs one after the other, with a record of what each has returned. -/
def performAll (c : Cache V) (rs : List UpdateRun) : Cache V × List (UpdateRun × Status) :=
  rs.foldl (fun p r =>
    ((r.perform client codec p.1).1, p.2 ++ [(r, (r.perform client codec p.1).2)])) (c, [])

/-- The settings of the run are those of an accepted configuration with downloads, each source
in a directory of its own and the names of the files out of each other's way. -/
structure UpdateRun.Clear (r : UpdateRun) : Prop where
  accepted : ∃ euid, ∃ c : Config, c.validate euid = .ok () ∧ c.signatures.enabled = true ∧
    r.cfg = c.signatures.updaterConfig
  downloads : r.cfg.airgapImportPath = ""
  dirs : (r.cfg.sources.map (sourceDir r.cfg)).Nodup
  names : ClearNames client r.cfg r.sources

/-- A run reports a source without an error, and what its round has received belongs in the
file at a path. -/
def Delivers (e : UpdateRun × Status) (path : List Bytes) (body : Bytes) : Prop :=
  ∃ round src, e.1.cfg.sources[round]? = some src.id ∧ e.1.sources src.id = some src ∧
    destination e.1.cfg src = path ∧ (e.1.attempts round).body = body ∧
    ∃ st, e.2.sources.lookup src.id = some st ∧ st.error = ""

/-! ## One run -/

variable {client codec} {r : UpdateRun} {c : Cache V} {path : List Bytes} {body : Bytes}

lemma UpdateRun.Clear.intact (hclear : r.Clear client) (c : Cache V) :
    Intact r.cfg r.sources r.attempts c.files (r.perform client codec c).1.files
      (r.perform client codec c).2 := by
  obtain ⟨euid, config, hvalid, henabled, hcfg⟩ := hclear.accepted
  have hrooted : (bytes r.cfg.cacheDir).head? = some separator := by
    rw [hcfg]
    exact cacheDir_rooted hvalid henabled
  have hnamed : Named r.sources := fun id src hsrc => id_of_builtInSources hsrc
  rw [UpdateRun.perform, runOnceOn, if_neg (not_not.mpr hclear.downloads)]
  exact intact_of_clearNames hrooted hnamed hclear.dirs hclear.names r.now r.nextRun r.attempts
    c.files

/-- What is reported as delivered is in the file. -/
lemma UpdateRun.Clear.content_of_delivers (hclear : r.Clear client)
    (h : Delivers (r, (r.perform client codec c).2) path body) :
    (r.perform client codec c).1.files.content path = some body := by
  obtain ⟨round, src, hround, hsrc, rfl, rfl, st, hst, hok⟩ := h
  obtain ⟨st', hst', hcases⟩ := (hclear.intact c).outcome round src.id hround
  obtain rfl := Option.some.inj (hst.symm.trans hst')
  rcases hcases with ⟨-, src', hsrc', -, hbody⟩ | ⟨hne, -⟩
  · obtain rfl := Option.some.inj (hsrc.symm.trans hsrc')
    exact hbody
  · exact absurd hok hne

/-- A file to which nothing is reported as delivered is as before. -/
lemma UpdateRun.Clear.content_of_not_delivers (hclear : r.Clear client)
    (h : ∀ body, ¬ Delivers (r, (r.perform client codec c).2) path body) :
    (r.perform client codec c).1.files.content path = c.files.content path := by
  have hintact : Intact r.cfg r.sources r.attempts c.files (r.perform client codec c).1.files
      (r.perform client codec c).2 := hclear.intact c
  by_cases hpath : ∃ src, Addressed r.sources r.cfg.sources src ∧ path = destination r.cfg src
  · obtain ⟨src, hsrc, rfl⟩ := hpath
    obtain ⟨round, hround⟩ := List.mem_iff_getElem?.mp hsrc.listed
    obtain ⟨st, hst, ⟨hok, -⟩ | ⟨-, hkept⟩⟩ := hintact.outcome round src.id hround
    · exact absurd ⟨round, src, hround, hsrc.registered, rfl, rfl, st, hst, hok⟩
        (h (r.attempts round).body)
    · exact hkept src hsrc.registered hsrc.url
  · exact hintact.others path fun src hsrc heq => hpath ⟨src, hsrc, heq⟩

/-- The status of a run is the one that is loaded after it. -/
lemma loadStatus_perform (r : UpdateRun) (c : Cache V) :
    loadStatus codec (r.perform client codec c).1.store = .ok (r.perform client codec c).2 := by
  have hnames : ¬ (signaturesBucket = [] ∨ signaturesStatusKey = []) := by decide
  rw [UpdateRun.perform]
  dsimp only
  generalize (runOnceOn client r.cfg r.sources r.now r.nextRun (c.files, none) r.attempts
    c.files).2 = st
  obtain ⟨b, hput, hget⟩ := c.store.exists_put hnames (codec.marshal st)
  rw [saveStatus, Option.map_some, hput]
  show loadStatus codec b = _
  rw [loadStatus, hget]
  simp only [codec.unmarshal_marshal]

/-! ## All runs -/

lemma performAll_concat (c : Cache V) (rs : List UpdateRun) (r : UpdateRun) :
    performAll client codec c (rs ++ [r]) =
      ((r.perform client codec (performAll client codec c rs).1).1,
        (performAll client codec c rs).2 ++
          [(r, (r.perform client codec (performAll client codec c rs).1).2)]) := by
  rw [performAll, List.foldl_concat]
  rfl

/-- **The cache is what the runs have reported**: after any runs, whatever failed in them and
whichever settings they had, each file holds what the last run that reports its source as
updated has received, or what it held at the beginning if there is none, and the status that
is loaded is that of the last run. -/
theorem cache_of_runs (client : HTTPClient) (codec : Codec Status V) (c : Cache V)
    {rs : List UpdateRun} (hclear : ∀ r ∈ rs, r.Clear client) :
    (∀ path body, (performAll client codec c rs).1.files.content path = some body ↔
      LastWritten Delivers (performAll client codec c rs).2 path body ∨
        Unwritten Delivers (performAll client codec c rs).2 path ∧
          c.files.content path = some body) ∧
      ∀ e ∈ (performAll client codec c rs).2.getLast?,
        loadStatus codec (performAll client codec c rs).1.store = .ok e.2 := by
  induction rs using List.reverseRecOn with
  | nil =>
    refine ⟨fun path body => ?_, fun e he => by cases he⟩
    have hnone : ¬ LastWritten Delivers (performAll client codec c []).2 path body := by
      rintro ⟨before, x, after, hlog, -⟩
      simp [performAll] at hlog
    have hunwritten : Unwritten Delivers (performAll client codec c []).2 path :=
      fun y hy => absurd hy List.not_mem_nil
    simp only [hnone, hunwritten, false_or, true_and]
    rfl
  | append_singleton rs r ih =>
    -- the last run writes over what the runs before it have left
    obtain ⟨hfiles, -⟩ := ih fun r hr => hclear r (List.mem_append_left _ hr)
    have hlast : r.Clear client := hclear r (List.mem_append_right _ List.mem_cons_self)
    rw [performAll_concat]
    constructor
    · intro path
      exact seen_concat (hfiles path) (fun body => hlast.content_of_delivers)
        hlast.content_of_not_delivers
    · intro e he
      rw [List.getLast?_concat] at he
      rw [← Option.some.inj he]
      exact loadStatus_perform r _

/-- A run for two lists, the first round of which is given. -/
def listsRun (a : Attempt) : UpdateRun where
  cfg := listsConfig.signatures.updaterConfig
  now := unixEpoch
  nextRun := unixEpoch + listsConfig.signatures.updaterConfig.updateInterval
  attempts := only 0 a

/-- A download, and one that fails. -/
def listsRuns : Cache Status × List (UpdateRun × Status) :=
  performAll .any statusCodec ⟨noFiles, .empty⟩
    [listsRun (downloaded 0 (bytes "old")), listsRun idle]

lemma listsRuns_content :
    listsRuns.1.files.content (destination listsConfig.signatures.updaterConfig
      ⟨"custom:kev", "https://kev.example/list"⟩) = some (bytes "old") := by
  decide +kernel

/-- The file is the one that the first run has reported. -/
theorem cache_of_runs_lists :
    LastWritten Delivers listsRuns.2 (destination listsConfig.signatures.updaterConfig
      ⟨"custom:kev", "https://kev.example/list"⟩) (bytes "old") := by
  have hnames : ∀ id ∈ listsConfig.signatures.sources,
      ∀ src ∈ builtInSources listsConfig.signatures.sourceURLs.entries id,
        filename src.url = "list" := by
    decide +kernel
  have hdirs : (listsConfig.signatures.updaterConfig.sources.map
      (sourceDir listsConfig.signatures.updaterConfig)).Nodup := by decide +kernel
  have hclear (a : Attempt) : (listsRun a).Clear .any := by
    refine ⟨⟨0, listsConfig, by decide, rfl, rfl⟩, rfl, hdirs, ?_, ?_⟩
    · intro src hsrc _ random heq
      rw [hnames _ hsrc.listed src hsrc.registered] at heq
      have hhead : "list".toList.head? = some 'd' := by
        rw [heq, tempFilename, String.toList_append]
        rfl
      exact absurd hhead (by decide)
    · intro src other hsrc _ _ hup
      rw [hnames _ hsrc.listed src hsrc.registered] at hup
      exact absurd hup (by decide)
  have hall : ∀ r ∈ [listsRun (downloaded 0 (bytes "old")), listsRun idle], r.Clear .any := by
    intro r hr
    rcases List.mem_cons.mp hr with rfl | hr
    · exact hclear _
    · rw [List.mem_singleton.mp hr]
      exact hclear _
  have hruns := cache_of_runs .any statusCodec ⟨noFiles, .empty⟩ hall
  rcases (hruns.1 _ _).mp listsRuns_content with hlast | ⟨-, hnone⟩
  · exact hlast
  · rw [noFiles, FileTree.content_empty] at hnone
    cases hnone

end Arcsent.Signatures
