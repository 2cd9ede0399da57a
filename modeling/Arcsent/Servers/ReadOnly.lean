/-
# Requests that change nothing

The setting `read_only` of the API is read from the configuration and looked at nowhere.
Each handler of `internal/api/server.go` decides for itself whether it looks at the method:
the one that starts an update of the signatures asks for a POST, the one that runs a plugin
does not.  No other handler does anything but answer.
-/
import Arcsent.Servers.Alias

namespace Arcsent.Servers

open Arcsent.Go Arcsent.Scanner Arcsent.Plugins Arcsent.Lib

variable {κ V : Type}

/-! ## What a request does to the server -/

/-- The server after one of the effects of a request: what the hook of the daemon does with
a result, and what an update of the signatures does. -/
def Server.after (onResult : Result → Server κ V → Server κ V) (update : Server κ V → Server κ V)
    (s : Server κ V) : Effect → Server κ V
  | .run _ => s
  | .onResult r => onResult r s
  | .updateSignatures => update s

section Definitions

variable (codecs : Codecs V) (w : Surroundings) (s : Server κ V) (req : Request)

/-- A request runs no plugin, starts no update of the signatures, and leaves the results, the
stores and the jobs as they are. -/
structure ReadsOnly : Prop where
  no_run : ∀ p, .run p ∉ (respond codecs w s req).2
  no_update : .updateSignatures ∉ (respond codecs w s req).2
  unchanged : ∀ (onResult : Result → Server κ V → Server κ V) (update : Server κ V → Server κ V),
    (respond codecs w s req).2.foldl (Server.after onResult update) s = s

/-- The request should change nothing. -/
def IsRead : Prop := s.cfg.readOnly = true ∨ req.method ≠ "POST"

/-- The request is for the path of a plugin. -/
def RunsPlugin : Prop :=
  ∃ e ∈ s.mgr.plugins, segments req.escapedPath = triggerSegments ++ [bytes e.1]

/-- The segments of the paths that start an update. -/
def updatePaths : List (List Bytes) :=
  [[bytes "signatures", bytes "update"], [bytes "api", bytes "signatures", bytes "update"]]

/-- The request is a POST to a path that starts an update, and updates are enabled. -/
def StartsUpdate : Prop :=
  req.method = "POST" ∧ segments req.escapedPath ∈ updatePaths ∧
    ∃ cfg, s.sigUpdater = some cfg ∧ cfg.enabled = true

end Definitions

/-! ## The requests that do something -/

/-- What the routes of the API are checked for. -/
lemma apiRoutes_segments :
    (∀ e ∈ apiRoutes, [] ∉ e.1.segments) ∧
      ∀ e ∈ apiRoutes, e.1.subtree = true →
        e.1.segments = triggerSegments ∨ e.1.segments = apiDir :: triggerSegments := by
  rw [apiRoutes_eq]
  exact ⟨by decide, by decide⟩

/-- A request to the API is served where it is when its path is clean and is not that of the
plugins. -/
lemma serveMux_of_clean {req : Request} (hne : segments req.escapedPath ≠ [])
    (hclean : cleanPath req.escapedPath = req.escapedPath)
    (hown : segments req.escapedPath ≠ triggerSegments)
    (hapi : segments req.escapedPath ≠ apiDir :: triggerSegments) :
    serveMux apiRoutes req = answerAt apiRoutes (segments req.escapedPath) := by
  refine serveMux_of_none (redirection_of_clean hne hclean apiRoutes_segments.1
    fun e he htree hsame => ?_)
  rcases apiRoutes_segments.2 e he htree with htrigger | htrigger
  · exact hown (hsame.symm.trans htrigger)
  · exact hapi (hsame.symm.trans htrigger)

/-- The names that plugins have. -/
def pluginNames : List String := Plugins.Manager.builtIn.map Plugin.name

lemma name_mem_pluginNames (p : Plugin) : p.name ∈ pluginNames := by
  cases p <;> simp [pluginNames, Plugins.Manager.builtIn, Plugin.name]

lemma plain_pluginNames : ∀ name ∈ pluginNames, name ≠ "" ∧ '/' ∉ name.toList := by decide

/-- What lies below the path of the plugins comes to the handler that runs them. -/
lemma answerAt_trigger {parts : List Bytes} (h : triggerSegments <+: parts)
    (hlength : triggerSegments.length < parts.length) :
    answerAt apiRoutes parts = .handler .trigger := by
  have hhead : parts.head? ≠ some apiDir := by
    obtain ⟨more, rfl⟩ := h
    rw [List.head?_append_of_ne_nil _ (by decide)]
    decide
  rw [answerAt, apiRoutes_eq, matchRoute_twice hhead, ← answerAt]
  exact answerAt_eq_trigger_iff.mpr ⟨h, hlength⟩

/-- The path of a plugin is served by the handler that runs it. -/
lemma serveMux_plugin {req : Request} {p : Plugin}
    (hpath : segments req.escapedPath = triggerSegments ++ [bytes p.name]) :
    serveMux apiRoutes req = .handler .trigger := by
  have hnames : ∀ name ∈ pluginNames, ∀ c ∈ triggerSegments ++ [bytes name],
      IsName Filepath.dot c := by decide +kernel
  have hne : segments req.escapedPath ≠ [] := by
    rw [hpath]
    simp
  have hclean := cleanPath_of_names hne (hpath ▸ hnames p.name (name_mem_pluginNames p))
  -- neither of the two subtrees has as many segments and such a first one
  rw [serveMux_of_clean hne hclean, hpath]
  · exact answerAt_trigger (List.prefix_append _ _) (by simp)
  · rw [hpath]
    simp
  · rw [hpath]
    exact fun hsame => absurd (List.cons.inj hsame).1 (by decide)

/-- The two paths of an update are served by the handler that starts it. -/
lemma serveMux_update {req : Request} (hpath : segments req.escapedPath ∈ updatePaths) :
    serveMux apiRoutes req = .handler .signaturesUpdate := by
  have hpaths : ∀ parts ∈ updatePaths, parts ≠ [] ∧ (∀ c ∈ parts, IsName Filepath.dot c) ∧
      parts ≠ triggerSegments ∧ parts ≠ apiDir :: triggerSegments ∧
        answerAt apiRoutes parts = .handler .signaturesUpdate := by
    rw [apiRoutes_eq]
    decide
  obtain ⟨hne, hnames, hown, hapi, hanswer⟩ := hpaths _ hpath
  rw [serveMux_of_clean hne (cleanPath_of_names hne hnames) hown hapi, hanswer]

/-- A plugin is in the manager under its name. -/
lemma exists_get {m : Plugins.Manager} {e : String × Plugin} (he : e ∈ m.plugins) :
    ∃ p, m.get e.1 = .ok p := by
  cases hget : m.get e.1 with
  | ok p => exact ⟨p, rfl⟩
  | error err => exact absurd (List.mem_map_of_mem he) (notMem_of_get hget)

variable {codecs : Codecs V} {w : Surroundings} {s : Server κ V} {req : Request}

/-- What comes to the handler that runs a plugin. -/
lemma path_of_trigger (h : serveMux apiRoutes req = .handler .trigger) :
    BelowTrigger req ∨ ∃ name, req.path = "/api" ++ (triggerPath ++ name) := by
  have hroutes : ∀ e ∈ apiRoutes, e.2 = .trigger → e.1 = ⟨triggerSegments, true⟩ ∨
      e.1 = ⟨apiDir :: triggerSegments, true⟩ := by
    rw [apiRoutes_eq]
    decide
  obtain ⟨e, he, hmatch, htrigger⟩ := exists_of_handler h
  rcases hroutes e he htrigger with hown | hapi
  · left
    simpa [hown, Pattern.matches, BelowTrigger] using hmatch
  · right
    have hbelow : apiDir :: triggerSegments <+: segments req.escapedPath ∧
        (apiDir :: triggerSegments).length < (segments req.escapedPath).length := by
      simpa [hapi, Pattern.matches] using hmatch
    have hdir : bytes "/api/scanners/trigger/" =
        fromRoot Filepath.separator (apiDir :: triggerSegments) ++ [Filepath.separator] ∧
        apiDir :: triggerSegments ≠ [] := by decide
    obtain ⟨name, hname⟩ := req.exists_of_prefix (by decide) hdir hbelow.1 hbelow.2
    refine ⟨name, ?_⟩
    rw [hname, ← String.append_assoc]
    rfl

lemma path_of_update (h : serveMux apiRoutes req = .handler .signaturesUpdate) :
    segments req.escapedPath ∈ updatePaths := by
  have hroutes : ∀ e ∈ apiRoutes, e.2 = .signaturesUpdate →
      e.1.subtree = false ∧ e.1.segments ∈ updatePaths := by
    rw [apiRoutes_eq]
    decide
  obtain ⟨e, he, hmatch, hupdate⟩ := exists_of_handler h
  obtain ⟨hfixed, hmem⟩ := hroutes e he hupdate
  rw [Pattern.matches, if_neg (by simp [hfixed])] at hmatch
  rw [of_decide_eq_true hmatch]
  exact hmem

/-- The name that is taken out of the path of a plugin. -/
lemma trimPrefix_eq_iff (h : BelowTrigger req) {name : String} (hslash : '/' ∉ name.toList) :
    trimPrefix req.path "/scanners/trigger/" = name ↔
      segments req.escapedPath = triggerSegments ++ [bytes name] := by
  obtain ⟨suffix, hsuffix⟩ := path_of_belowTrigger h
  obtain ⟨more, hmore⟩ := h.1
  have hne : more ≠ [] := by
    rintro rfl
    have hlength := h.2
    rw [← hmore, List.append_nil] at hlength
    exact lt_irrefl _ hlength
  have hdir : bytes triggerPath =
      fromRoot Filepath.separator triggerSegments ++ [Filepath.separator] ∧
      triggerSegments ≠ [] := by decide
  have hbytes := req.bytes_path hdir hne hmore.symm
  rw [hsuffix, bytes_append, List.append_cancel_left_eq] at hbytes
  rw [hsuffix, trimPrefix_triggerPath, ← bytes_inj, hbytes,
    intercalate_eq_iff (Filepath.separator_notMem_bytes hslash) hne, ← hmore,
    List.append_cancel_left_eq]

/-- A request for the path of a plugin runs it. -/
lemma effects_of_runsPlugin (hauth : Authorised s.cfg req) (h : RunsPlugin s req) :
    ∃ p, .run p ∈ (respond codecs w s req).2 := by
  obtain ⟨e, he, hpath⟩ := h
  obtain ⟨p, hp⟩ := exists_get he
  have hname : e.1 = e.2.name := s.named e he
  obtain ⟨hne, hslash⟩ := plain_pluginNames e.1 (hname ▸ name_mem_pluginNames e.2)
  have hbelow : BelowTrigger req := by
    rw [BelowTrigger, hpath]
    exact ⟨List.prefix_append _ _, by simp⟩
  have htrim := (trimPrefix_eq_iff hbelow hslash).mpr hpath
  have hrun : .run p ∈ (runOnce w s.mgr e.1).2 := by
    rw [runOnce, hp]
    dsimp only
    cases w.run p <;> exact List.mem_cons_self
  refine ⟨p, ?_⟩
  rw [respond_of_authorised (serveMux_plugin (hname ▸ hpath)) hauth, handle, handleTrigger, htrim,
    if_neg hne]
  rcases hcase : runOnce w s.mgr e.1 with ⟨_ | result, effects⟩ <;>
    simpa [hcase] using hrun

/-- A POST for an update starts it. -/
lemma effects_of_startsUpdate (hauth : Authorised s.cfg req) (h : StartsUpdate s req) :
    .updateSignatures ∈ (respond codecs w s req).2 := by
  obtain ⟨hpost, hpath, cfg, hcfg, henabled⟩ := h
  rw [respond_of_authorised (serveMux_update hpath) hauth, handle, handleSignaturesUpdate,
    if_neg (not_not.mpr hpost), hcfg]
  dsimp only
  rw [triggerUpdate, henabled, if_neg (by simp)]
  cases w.update <;> exact List.mem_singleton_self _

/-- Every other request does nothing. -/
lemma effects_eq_nil (hauth : Authorised s.cfg req) (hrun : ¬ RunsPlugin s req)
    (hupdate : ¬ StartsUpdate s req) : (respond codecs w s req).2 = [] := by
  cases hserve : serveMux apiRoutes req with
  | status code => rw [respond_of_status hserve]
  | redirect place => rw [respond_of_redirect hserve]
  | handler e =>
    rw [respond_of_authorised hserve hauth]
    cases e with
    | trigger =>
      rcases path_of_trigger hserve with hbelow | ⟨name, hapi⟩
      · have hnone : trimPrefix req.path "/scanners/trigger/" ∉ s.mgr.plugins.map Prod.fst := by
          intro hmem
          obtain ⟨e, he, heq⟩ := List.mem_map.mp hmem
          have hplain := plain_pluginNames e.1 (s.named e he ▸ name_mem_pluginNames e.2)
          exact hrun ⟨e, he, (trimPrefix_eq_iff hbelow hplain.2).mp heq.symm⟩
        rw [handle, handleTrigger, runOnce_of_notMem w hnone]
        split_ifs <;> rfl
      · -- under `/api` there is no plugin of that name
        rw [handle, handleTrigger_api w s hapi]
    | signaturesUpdate =>
      have hpath := path_of_update hserve
      rw [handle, handleSignaturesUpdate]
      split_ifs with hpost
      · rfl
      · cases hcfg : s.sigUpdater with
        | none => rfl
        | some cfg =>
          have hdisabled : cfg.enabled = false := by
            by_contra henabled
            exact hupdate ⟨not_not.mp hpost, hpath, cfg, hcfg, by simpa using henabled⟩
          simp [triggerUpdate, hdisabled]
    | _ => rfl

/-- **An authorised request that should change nothing changes nothing exactly when it neither
is for the path of a plugin nor starts an update.** -/
theorem readsOnly_iff (codecs : Codecs V) (w : Surroundings) (s : Server κ V) (req : Request)
    (hauth : Authorised s.cfg req) :
    (IsRead s req → ReadsOnly codecs w s req) ↔
      (IsRead s req → ¬ RunsPlugin s req ∧ ¬ StartsUpdate s req) := by
  refine imp_congr_right fun _ => ?_
  constructor
  · intro h
    refine ⟨fun hrun => ?_, fun hupdate => h.no_update (effects_of_startsUpdate hauth hupdate)⟩
    obtain ⟨p, hp⟩ := effects_of_runsPlugin hauth hrun
    exact h.no_run p hp
  · rintro ⟨hrun, hupdate⟩
    have hnil : (respond codecs w s req).2 = [] := effects_eq_nil hauth hrun hupdate
    refine ⟨fun p => ?_, ?_, fun onResult update => ?_⟩
    · rw [hnil]
      exact List.not_mem_nil
    · rw [hnil]
      exact List.not_mem_nil
    · rw [hnil]
      rfl

/-- A request for the metrics changes nothing. -/
theorem readsOnly_metrics :
    ReadsOnly storedCodecs failingRuns plainServer (withToken "GET" "/metrics" (by decide)) := by
  have hsegments : segments (withToken "GET" "/metrics" (by decide)).escapedPath =
      [bytes "metrics"] := by decide
  have hplain (h : RunsPlugin plainServer (withToken "GET" "/metrics" (by decide))) : False := by
    obtain ⟨e, -, hpath⟩ := h
    rw [hsegments] at hpath
    exact absurd (congrArg List.length hpath) (by simp [triggerSegments])
  refine (readsOnly_iff storedCodecs failingRuns plainServer _ (fun h => h.2 rfl)).mpr
    (fun _ => ⟨hplain, fun h => ?_⟩) (.inl rfl)
  exact absurd h.1 (by decide)

/-- A GET runs a plugin, although the API is read-only. -/
theorem not_readsOnly_trigger :
    ¬ ∀ (s : Server Unit Stored) (req : Request), Authorised s.cfg req → IsRead s req →
      ReadsOnly storedCodecs failingRuns s req := by
  intro hclaim
  let req := withToken "GET" "/scanners/trigger/system.uptime" (by decide)
  have hauth : Authorised plainServer.cfg req := fun hrefused => hrefused.2 rfl
  have hruns : RunsPlugin plainServer req := ⟨("system.uptime", .uptime), by decide, by decide⟩
  obtain ⟨p, hp⟩ := effects_of_runsPlugin hauth hruns
  exact (hclaim _ _ hauth (.inl rfl)).no_run p hp

end Arcsent.Servers
