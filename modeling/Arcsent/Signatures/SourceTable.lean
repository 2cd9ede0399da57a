/-
# The table of sources

Three places say which sources there are: the names that the check of the configuration
lets pass, the addresses that come with the program, five of which are blank, and the
overrides of the configuration.  A source that has no address is an error in the status of
every run.
-/
import Arcsent.Signatures.Download

namespace Arcsent.Signatures

open Arcsent.Go Arcsent.Go.Filepath

/-! ## The entries of a status -/

variable {client : HTTPClient} {cfg : UpdaterConfig} {sources : String → Option HTTPSource}
  {status : Status}
  {id other : String} {ids : List String} {replies : ℕ → Replies}

lemma lookup_filter_ne {β : Type*} (entries : List (String × β)) (h : other ≠ id) :
    (entries.filter fun e => e.1 ≠ id).lookup other = entries.lookup other := by
  induction entries with
  | nil => rfl
  | cons e entries ih =>
    obtain ⟨key, value⟩ := e
    by_cases hkey : key = id
    · have hne : (other == key) = false := beq_false_of_ne (hkey ▸ h)
      rw [List.filter_cons_of_neg (by simpa using hkey), ih, List.lookup_cons, hne]
    · rw [List.filter_cons_of_pos (by simpa using hkey), List.lookup_cons, List.lookup_cons, ih]

lemma lookup_setSource_self (status : Status) (id : String) (s : SourceStatus) :
    (status.setSource id s).sources.lookup id = some s := by
  rw [Status.setSource, List.lookup_cons, beq_self_eq_true]

lemma lookup_setSource_of_ne (h : other ≠ id) (s : SourceStatus) :
    (status.setSource id s).sources.lookup other = status.sources.lookup other := by
  rw [Status.setSource, List.lookup_cons, beq_false_of_ne h]
  exact lookup_filter_ne status.sources h

/-- What a round of the loop over the sources puts into the status. -/
def roundEntry (client : HTTPClient) (cfg : UpdaterConfig) (sources : String → Option HTTPSource)
    (id : String) (r : Replies) : SourceStatus :=
  match sources id with
  | none => ⟨id, "", "", 0, 0, "", "source not registered"⟩
  | some src =>
    let (_, st, err) := src.update client (join [bytes cfg.cacheDir, bytes id]) r
    match err with | none => st | some err => { st with error := err }

lemma updateEach_cons (client : HTTPClient) (cfg : UpdaterConfig)
    (sources : String → Option HTTPSource) (id : String)
    (ids : List String) (replies : ℕ → Replies) (status : Status) :
    (updateEach client cfg sources (id :: ids) replies status).2 =
      (updateEach client cfg sources ids (fun round => replies (round + 1))
        (status.setSource id (roundEntry client cfg sources id (replies 0)))).2 := by
  rw [updateEach, roundEntry]
  cases sources id <;> rfl

/-- An identifier that is not listed keeps the entry it has. -/
lemma lookup_updateEach_of_notMem (h : id ∉ ids) :
    (updateEach client cfg sources ids replies status).2.sources.lookup id =
      status.sources.lookup id := by
  induction ids generalizing replies status with
  | nil => rfl
  | cons first ids ih =>
    obtain ⟨hne, hrest⟩ := not_or.mp (mt List.mem_cons.mpr h)
    rw [updateEach_cons, ih hrest]
    exact lookup_setSource_of_ne hne _

variable (client cfg sources status replies) in
/-- One that is listed has the entry of its last round. -/
lemma exists_lookup_updateEach (h : id ∈ ids) :
    ∃ round, (updateEach client cfg sources ids replies status).2.sources.lookup id =
      some (roundEntry client cfg sources id (replies round)) := by
  induction ids generalizing replies status with
  | nil => exact absurd h List.not_mem_nil
  | cons first ids ih =>
    rw [updateEach_cons]
    by_cases hrest : id ∈ ids
    · obtain ⟨round, hround⟩ := ih _ (fun round => replies (round + 1)) hrest
      exact ⟨round + 1, hround⟩
    · obtain rfl : id = first := (List.mem_cons.mp h).resolve_right hrest
      rw [lookup_updateEach_of_notMem hrest]
      exact ⟨0, lookup_setSource_self _ _ _⟩

/-- The entries of a list without repetitions come in the order of the rounds, the last one
first. -/
lemma map_fst_updateEach (hnodup : ids.Nodup)
    (hnew : ∀ id ∈ ids, id ∉ status.sources.map Prod.fst) :
    (updateEach client cfg sources ids replies status).2.sources.map Prod.fst =
      ids.reverse ++ status.sources.map Prod.fst := by
  induction ids generalizing replies status with
  | nil => rfl
  | cons id ids ih =>
    obtain ⟨hid, hnodup⟩ := List.nodup_cons.mp hnodup
    have hkeys (s : SourceStatus) : (status.setSource id s).sources.map Prod.fst =
        id :: status.sources.map Prod.fst := by
      -- a source that is not in the table yet is put in front
      have hkeep : status.sources.filter (fun e => e.1 ≠ id) = status.sources := by
        rw [List.filter_eq_self]
        intro e he
        rw [decide_eq_true_eq]
        rintro rfl
        exact hnew e.1 List.mem_cons_self (List.mem_map_of_mem he)
      rw [Status.setSource, hkeep, List.map_cons]
    rw [updateEach_cons, ih hnodup, hkeys, List.reverse_cons, List.append_assoc,
      List.singleton_append]
    intro other hother hmem
    rw [hkeys] at hmem
    rcases List.mem_cons.mp hmem with rfl | hold
    · exact hid hother
    · exact hnew other (List.mem_cons_of_mem _ hother) hold

/-! ## Sources without an address -/

/-- Every run reports that the source has no address. -/
def Unserved (client : HTTPClient) (cfg : UpdaterConfig) (sources : String → Option HTTPSource)
    (id : String) : Prop :=
  ∀ now nextRun imported replies, ∃ st,
    (runOnce client cfg sources now nextRun imported replies).2.sources.lookup id = some st ∧
      (st.error = "source not registered" ∨ st.error = "no URL configured for source " ++ id)

/-- The listed sources have an address, and none of them is without one in every run. -/
structure Served (client : HTTPClient) (c : Config) : Prop where
  address : ∀ id ∈ c.signatures.sources, ∃ src,
    builtInSources c.signatures.sourceURLs.entries id = some src ∧ src.url ≠ ""
  reached : ∀ id ∈ c.signatures.sources,
    ¬ Unserved client c.signatures.updaterConfig (builtInSources c.signatures.sourceURLs.entries) id

lemma roundEntry_error_of_none (h : sources id = none) (r : Replies) :
    (roundEntry client cfg sources id r).error = "source not registered" := by
  rw [roundEntry, h]

lemma roundEntry_error_of_blank {src : HTTPSource} (h : sources id = some src)
    (hurl : src.url = "") (r : Replies) :
    (roundEntry client cfg sources id r).error = "no URL configured for source " ++ src.id := by
  rw [roundEntry, h]
  dsimp only
  rw [HTTPSource.update, if_pos hurl]

/-- With an address, another error is reported or none. -/
lemma roundEntry_error_fine {src : HTTPSource} (h : sources id = some src) (hurl : src.url ≠ "") :
    ∃ err, (roundEntry client cfg sources id .fine).error = err ∧
      (err = "" ∨ (∃ text, err = "build request: " ++ text) ∨
        ∃ text, err = "download: " ++ text) := by
  refine ⟨_, rfl, ?_⟩
  rw [roundEntry, h]
  dsimp only
  rw [HTTPSource.update, if_neg hurl]
  cases hrequest : client.newRequest src.url with
  | some text => exact .inr (.inl ⟨text, rfl⟩)
  | none =>
    cases hsent : client.unsent src.url with
    | some text =>
      right; right
      refine ⟨text, ?_⟩
      simp [untilError, Replies.fine, Replies.download, hsent]
    | none =>
      left
      dsimp only
      rw [untilError_of_none (by simp [Replies.fine, Replies.download, hsent])]
      rfl

/-- A listed source is in the end served in some run exactly when it has an address. -/
lemma unserved_iff (hairgap : cfg.airgapImportPath = "") (hid : id ∈ cfg.sources)
    (hids : ∀ src, sources id = some src → src.id = id) :
    Unserved client cfg sources id ↔ ¬ ∃ src, sources id = some src ∧ src.url ≠ "" := by
  have hruns : ¬ cfg.airgapImportPath ≠ "" := not_not.mpr hairgap
  constructor
  · rintro hunserved ⟨src, hsrc, hurl⟩
    -- the run in which every download works out
    obtain ⟨st, hst, herr⟩ := hunserved 0 0 none fun _ => .fine
    rw [runOnce, if_neg hruns] at hst
    obtain ⟨round, hround⟩ := exists_lookup_updateEach client cfg sources (newStatus cfg 0 0)
      (fun _ => .fine) hid
    obtain rfl := Option.some.inj (hst.symm.trans hround)
    obtain ⟨err, heq, hcases⟩ : ∃ err, (roundEntry client cfg sources id .fine).error = err ∧ _ :=
      roundEntry_error_fine hsrc hurl
    rw [heq] at herr
    -- the texts begin with different letters
    have hhead : err.toList.head? ∈ ["source not registered".toList.head?,
        ("no URL configured for source " ++ id).toList.head?] := by
      rcases herr with rfl | rfl <;> simp
    rcases hcases with rfl | ⟨text, rfl⟩ | ⟨text, rfl⟩ <;> simp at hhead
  · intro hnone now nextRun imported replies
    rw [runOnce, if_neg hruns]
    obtain ⟨round, hround⟩ := exists_lookup_updateEach client cfg sources
      (newStatus cfg now nextRun) replies hid
    refine ⟨_, hround, ?_⟩
    cases hsrc : sources id with
    | none => exact .inl (roundEntry_error_of_none hsrc _)
    | some src =>
      have hurl : src.url = "" := by
        by_contra hurl
        exact hnone ⟨src, hsrc, hurl⟩
      right
      rw [roundEntry_error_of_blank hsrc hurl, hids src hsrc]

/-! ## What the check of the configuration ensures -/

/-- The sources whose address comes with the program. -/
def addressedSources : List String :=
  [sourceMITREATTACK, sourceNVD, sourceCISAKEV, sourceExploitDB]

lemma exists_lookup_defaultSourceURLs_iff (id : String) :
    (∃ url, defaultSourceURLs.lookup id = some url ∧ url ≠ "") ↔ id ∈ addressedSources := by
  have hblank : ∀ e ∈ defaultSourceURLs, e.2 ≠ "" → e.1 ∈ addressedSources := by decide
  have hfound : ∀ id ∈ addressedSources, ∃ e ∈ defaultSourceURLs,
      defaultSourceURLs.lookup id = some e.2 ∧ e.2 ≠ "" := by decide
  constructor
  · rintro ⟨url, hurl, hne⟩
    obtain ⟨before, after, heq, -⟩ := List.lookup_eq_some_iff.mp hurl
    exact hblank (id, url) (by simp [heq]) hne
  · intro hid
    obtain ⟨e, -, he⟩ := hfound id hid
    exact ⟨e.2, he⟩

/-- An override of a configuration that is let pass is not blank. -/
lemma url_ne_empty {euid : ℕ} {c : Config} (h : c.validate euid = .ok ())
    (henabled : c.signatures.enabled = true) {id url : String}
    (hurl : c.signatures.sourceURLs.entries.lookup id = some url) : url ≠ "" := by
  rw [Config.validate_eq_ok] at h
  simp only [Config.validateErrors, List.append_eq_nil_iff, SignaturesConfig.errors, henabled,
    if_true] at h
  have hentries := h.1.1.1.1.1.1.2.1.1.2
  obtain ⟨before, after, heq, -⟩ := List.lookup_eq_some_iff.mp hurl
  have hentry := List.flatMap_eq_nil_iff.mp hentries (id, url) (by simp [heq])
  rw [List.append_eq_nil_iff, Config.failing_eq_nil, Config.failing_eq_nil] at hentry
  rintro rfl
  have hblank : decide (trimSpace "" = "") = false := hentry.2
  exact absurd hblank (by decide)

/-- **Every listed source is served** exactly when each has an override or is one of the four
whose address comes with the program. -/
theorem served_iff (client : HTTPClient) {euid : ℕ} {c : Config} (h : c.validate euid = .ok ())
    (henabled : c.signatures.enabled = true) (hairgap : c.signatures.airgapImportPath = "") :
    Served client c ↔ ∀ id ∈ c.signatures.sources,
      id ∈ c.signatures.sourceURLs.entries.map Prod.fst ∨ id ∈ addressedSources := by
  have haddress (id : String) :
      (∃ src, builtInSources c.signatures.sourceURLs.entries id = some src ∧ src.url ≠ "") ↔
        id ∈ c.signatures.sourceURLs.entries.map Prod.fst ∨ id ∈ addressedSources := by
    rw [← exists_lookup_defaultSourceURLs_iff, builtInSources]
    cases hurl : c.signatures.sourceURLs.entries.lookup id with
    | none =>
      have hnot : id ∉ c.signatures.sourceURLs.entries.map Prod.fst := by
        intro hmem
        obtain ⟨e, he, rfl⟩ := List.mem_map.mp hmem
        simpa using List.lookup_eq_none_iff.mp hurl e he
      simp [hnot]
    | some url =>
      have hmem : id ∈ c.signatures.sourceURLs.entries.map Prod.fst := by
        obtain ⟨before, after, heq, -⟩ := List.lookup_eq_some_iff.mp hurl
        simp [heq]
      simp [hmem, url_ne_empty h henabled hurl]
  constructor
  · intro hserved id hid
    exact (haddress id).mp (hserved.address id hid)
  · intro hlisted
    refine ⟨fun id hid => (haddress id).mpr (hlisted id hid), ?_⟩
    intro id hid hunserved
    have hids (src : HTTPSource)
        (hsrc : builtInSources c.signatures.sourceURLs.entries id = some src) : src.id = id :=
      id_of_builtInSources hsrc
    exact (unserved_iff hairgap hid hids).mp hunserved ((haddress id).mpr (hlisted id hid))

/-- The configuration that the program begins with, with the updates switched on. -/
def enabledConfig (overrides : StringMap String) : Config :=
  { Config.default with
    signatures := { Config.default.signatures with enabled := true, sourceURLs := overrides } }

/-- A mirror for the one source that needs it. -/
theorem served_mirror :
    Served .any (enabledConfig ⟨[("osv", "https://example.com/mirrors/osv.zip")], by decide⟩) := by
  have hvalid : (enabledConfig
      ⟨[("osv", "https://example.com/mirrors/osv.zip")], by decide⟩).validate 0 = .ok () := by
    decide
  exact (served_iff .any hvalid rfl rfl).mpr (by decide)

/-- Without it the check passes too, and the source fails in every run. -/
theorem not_served_osv :
    (enabledConfig .empty).validate 0 = .ok () ∧
      (enabledConfig .empty).signatures.enabled = true ∧
      (enabledConfig .empty).signatures.airgapImportPath = "" ∧
      "osv" ∈ (enabledConfig .empty).signatures.sources ∧
      Unserved .any (enabledConfig .empty).signatures.updaterConfig (builtInSources []) "osv" ∧
      ¬ Served .any (enabledConfig .empty) := by
  have hunserved :
      Unserved .any (enabledConfig .empty).signatures.updaterConfig (builtInSources []) "osv" := by
    refine (unserved_iff rfl (by decide) fun src hsrc => id_of_builtInSources hsrc).mpr ?_
    rintro ⟨src, hsrc, hurl⟩
    obtain rfl := Option.some.inj hsrc
    exact hurl rfl
  refine ⟨by decide, rfl, rfl, by decide, hunserved, ?_⟩
  intro hserved
  exact hserved.reached "osv" (by decide) hunserved

end Arcsent.Signatures
