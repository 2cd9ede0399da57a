/-
# The endpoints under `/api`

Every handler is registered twice, for a path and for the same path under `/api`, and the
multiplexer treats the two alike.  The handlers do not look at the path of the request,
except for the one that runs a plugin: it strips the path that it is registered under first
and not the other one.
-/
import Arcsent.Go.MuxAlias
import Arcsent.Servers.Handlers

namespace Arcsent.Servers

open Arcsent.Go Arcsent.Lib Arcsent.Plugins

/-! ## The routes -/

/-- The endpoints of `buildHandler`, by the paths that `register` is called with. -/
def endpoints : List (String × Endpoint) :=
  [("/health", .health), ("/status", .status), ("/scanners", .scanners),
    ("/scanners/trigger/", .trigger), ("/results/latest", .resultsLatest),
    ("/results/history", .resultsHistory), ("/findings", .findings),
    ("/baselines", .baselines), ("/export/results", .exportResults),
    ("/export/baselines", .exportBaselines), ("/signatures/status", .signaturesStatus),
    ("/signatures/update", .signaturesUpdate), ("/metrics", .metrics)]

/-- Their routes. -/
def ownRoutes : Routes Endpoint := endpoints.map fun e => (parsePattern e.1, e.2)

/-- The directory that they are registered under as well. -/
def apiDir : Bytes := bytes "api"

lemma apiRoutes_eq : apiRoutes = twice apiDir ownRoutes := by decide +kernel

lemma isDir_api : IsDir apiDir := ⟨by decide, by decide, by decide⟩

lemma apart_endpoints : Apart apiDir ownRoutes := ⟨by decide, by decide⟩

/-- The path of the endpoint that runs a plugin. -/
def triggerPath : String := "/scanners/trigger/"

def triggerSegments : List Bytes := [bytes "scanners", bytes "trigger"]

/-- The path of a request lies below the one of that endpoint. -/
def BelowTrigger (req : Request) : Prop :=
  triggerSegments <+: segments req.escapedPath ∧
    triggerSegments.length < (segments req.escapedPath).length

/-- The requests below that path are those that run a plugin. -/
lemma answerAt_eq_trigger_iff {parts : List Bytes} :
    answerAt ownRoutes parts = .handler .trigger ↔
      triggerSegments <+: parts ∧ triggerSegments.length < parts.length := by
  have hmatches (parts : List Bytes) : (parsePattern triggerPath).matches parts = true ↔
      triggerSegments <+: parts ∧ triggerSegments.length < parts.length := by
    have hpattern : parsePattern triggerPath = ⟨triggerSegments, true⟩ := by decide
    simp [hpattern, Pattern.matches]
  have htrigger : ∀ e ∈ ownRoutes, e.2 = .trigger → e.1 = parsePattern triggerPath := by decide
  have hother : ∀ e ∈ ownRoutes, e.2 ≠ .trigger → e.1.subtree = false ∧
      (parsePattern triggerPath).matches e.1.segments = false := by decide
  rw [← hmatches, answerAt]
  constructor
  · intro h
    cases hroute : matchRoute ownRoutes parts with
    | none => simp [hroute] at h
    | some e =>
      rw [hroute] at h
      obtain ⟨hmem, hmatch⟩ := mem_of_matchRoute hroute
      rwa [htrigger e hmem (Answer.handler.inj h)] at hmatch
  · intro hbelow
    have hmem : (parsePattern triggerPath, Endpoint.trigger) ∈ ownRoutes := by decide
    obtain ⟨e, hroute⟩ := Option.isSome_iff_exists.mp (matchRoute_isSome hmem hbelow)
    obtain ⟨hentry, hmatch⟩ := mem_of_matchRoute hroute
    by_cases he : e.2 = .trigger
    · rw [hroute, ← he]
    · -- the pattern of any other route would have to be the path itself
      obtain ⟨hfixed, hnot⟩ := hother e hentry he
      rw [Pattern.matches, if_neg (by simp [hfixed])] at hmatch
      rw [of_decide_eq_true hmatch, hnot] at hbelow
      cases hbelow

/-! ## The handlers -/

variable {κ V : Type} {codecs : Codecs V} {w : Surroundings} {s : Server κ V}

lemma length_quote (t : String) :
    (quote t).toList.length = (t.toList.flatMap quoteRune).length + 2 := by
  simp [quote]

/-- A longer name is longer when it is quoted. -/
lemma quote_append_ne {pre : String} (hne : pre.toList ≠ []) (t : String) :
    quote (pre ++ t) ≠ quote t := by
  intro heq
  have hlength := congrArg (fun q : String => q.toList.length) heq
  simp only [length_quote, String.toList_append, List.flatMap_append, List.length_append] at hlength
  obtain ⟨c, cs, hcs⟩ := List.exists_cons_of_ne_nil hne
  have hrune : 0 < (quoteRune c).length := List.length_pos_iff.mpr (quoteRune_ne_nil c)
  rw [hcs, List.flatMap_cons, List.length_append] at hlength
  omega

/-- No plugin has the name. -/
lemma get_of_notMem {m : Plugins.Manager} {name : String} (h : name ∉ m.plugins.map Prod.fst) :
    m.get name = .error ("plugin " ++ quote name ++ " not found") := by
  have hnone : m.plugins.lookup name = none := by
    rw [List.lookup_eq_none_iff]
    intro e he
    simpa using fun heq : name = e.1 => h (heq ▸ List.mem_map_of_mem he)
  rw [Plugins.Manager.get, hnone]

/-- When `RunOnce` has found a plugin it runs it. -/
lemma runOnce_effects_ne_nil (w : Surroundings) {m : Plugins.Manager} {name : String} {p : Plugin}
    (hp : m.get name = .ok p) : (runOnce w m name).2 ≠ [] := by
  rw [runOnce, hp]
  dsimp only
  cases w.run p <;> exact List.cons_ne_nil _ _

lemma runOnce_of_notMem (w : Surroundings) {m : Plugins.Manager} {name : String}
    (h : name ∉ m.plugins.map Prod.fst) :
    runOnce w m name = (.error ("plugin " ++ quote name ++ " not found"), []) := by
  rw [runOnce, get_of_notMem h]

lemma notMem_of_get {m : Plugins.Manager} {name err : String} (h : m.get name = .error err) :
    name ∉ m.plugins.map Prod.fst := by
  intro hmem
  obtain ⟨e, he, rfl⟩ := List.mem_map.mp hmem
  rw [Plugins.Manager.get] at h
  split at h
  · next hnone =>
    have hlookup := List.lookup_eq_none_iff.mp hnone e he
    simp at hlookup
  · cases h

/-- The messages for two names are as different as the names when they are quoted. -/
lemma quote_inj_of_notFound {name name' : String}
    (h : "plugin " ++ quote name ++ " not found" = "plugin " ++ quote name' ++ " not found") :
    quote name = quote name' := by
  have hlist := congrArg String.toList h
  simp only [String.toList_append] at hlist
  exact String.toList_inj.mp (List.append_cancel_left (List.append_cancel_right hlist))

lemma trimPrefix_triggerPath (name : String) :
    trimPrefix (triggerPath ++ name) "/scanners/trigger/" = name := by
  have hstarts : hasPrefix (triggerPath ++ name) "/scanners/trigger/" = true := by
    rw [hasPrefix, List.isPrefixOf_iff_prefix, String.toList_append]
    exact List.prefix_append ..
  rw [trimPrefix, if_pos hstarts, String.toList_append]
  exact (congrArg String.ofList (List.drop_left ..)).trans String.ofList_toList

/-- The path under `/api` is taken for the name of a plugin, and there is none. -/
lemma handleTrigger_api (w : Surroundings) (s : Server κ V) {req : Request} {name : String}
    (hpath : req.path = "/api" ++ (triggerPath ++ name)) :
    handleTrigger w s req =
      (writeError 400
        ("plugin " ++ quote ("/api" ++ (triggerPath ++ name)) ++ " not found"), []) := by
  have hstarts : hasPrefix ("/api" ++ (triggerPath ++ name)) "/scanners/trigger/" = false := by
    rw [hasPrefix, Bool.eq_false_iff, Ne, List.isPrefixOf_iff_prefix, String.toList_append]
    rintro ⟨rest, hrest⟩
    have hsecond := congrArg (fun l : List Char => l[1]?) hrest
    simp at hsecond
  have hne : "/api" ++ (triggerPath ++ name) ≠ "" := by
    rw [Ne, ← String.toList_inj, String.toList_append]
    simp
  have hnotMem : "/api" ++ (triggerPath ++ name) ∉ s.mgr.plugins.map Prod.fst := by
    intro hmem
    obtain ⟨e, he, heq⟩ := List.mem_map.mp hmem
    -- the name of every plugin begins with a letter
    have hhead : ∀ p : Plugin, p.name.toList.head? = some 's' := by
      intro p
      cases p <;> simp [Plugin.name]
    have hname := hhead e.2
    rw [← s.named e he, heq, String.toList_append] at hname
    simp at hname
  have htrim : trimPrefix ("/api" ++ (triggerPath ++ name)) "/scanners/trigger/"
      = "/api" ++ (triggerPath ++ name) := by
    rw [trimPrefix, if_neg (by simp [hstarts])]
  rw [handleTrigger, hpath, htrim, if_neg hne, runOnce_of_notMem w hnotMem]

/-- The endpoint that runs a plugin never does the same under both paths. -/
lemma handleTrigger_ne (w : Surroundings) (s : Server κ V) {own other : Request} {name : String}
    (hown : own.path = triggerPath ++ name) (hother : other.path = "/api" ++ own.path) :
    handleTrigger w s own ≠ handleTrigger w s other := by
  rw [hown] at hother
  rw [handleTrigger_api w s hother, handleTrigger, hown, trimPrefix_triggerPath]
  split_ifs with hempty
  · -- no name at all
    intro heq
    have hmessage : "scanner name required"
        = "plugin " ++ quote ("/api" ++ (triggerPath ++ name)) ++ " not found" := by
      simpa [writeError, writeJSON] using heq
    have hhead := congrArg (fun t : String => t.toList.head?) hmessage
    simp at hhead
  · cases hget : s.mgr.get name with
    | ok p =>
      -- a plugin is run
      intro heq
      have heffects : (runOnce w s.mgr name).2 = [] := by
        rcases hrun : runOnce w s.mgr name with ⟨_ | _, effects⟩ <;>
          simpa [hrun] using congrArg Prod.snd heq
      exact runOnce_effects_ne_nil w hget heffects
    | error err =>
      -- the messages name different plugins
      rw [runOnce_of_notMem w (notMem_of_get hget)]
      intro heq
      have hmessage : "plugin " ++ quote name ++ " not found"
          = "plugin " ++ quote ("/api" ++ (triggerPath ++ name)) ++ " not found" := by
        simpa [writeError, writeJSON] using heq
      have hquote := quote_inj_of_notFound hmessage
      rw [← String.append_assoc] at hquote
      refine quote_append_ne ?_ name hquote.symm
      rw [String.toList_append]
      simp

/-! ## The two requests -/

/-- The same request to the path under `/api`. -/
def underAPI (req : Request) : Request :=
  { req with
    path := "/api" ++ req.path
    escapedPath := underPath apiDir req.escapedPath
    decodes := by
      have hdir : Url.percent ∉ bytes "/api" := by decide
      have hdecoded := Url.unescape_append hdir req.escapedPath
      rwa [req.decodes, Option.map_some, ← bytes_append] at hdecoded
    rooted := .inr rfl }

/-- The two get the same response and do the same. -/
def SameUnderAPI (codecs : Codecs V) (w : Surroundings) (s : Server κ V) (req : Request) : Prop :=
  respond codecs w s req = respond codecs w s (underAPI req)

/-- The token check lets a request through. -/
def Authorised (cfg : APIConfig) (req : Request) : Prop :=
  ¬ (cfg.authToken ≠ "" ∧ requestToken req ≠ bytes cfg.authToken)

/-- Either the multiplexer does not redirect the request and no plugin is to be run, or it
redirects both requests to one place. -/
def Unaffected (cfg : APIConfig) (req : Request) : Prop :=
  let place := redirection apiRoutes req
  place = none ∧ ¬ (Authorised cfg req ∧ BelowTrigger req) ∨
  place ≠ none ∧ place = redirection apiRoutes (underAPI req)

/-- Only one handler looks at the path. -/
lemma handle_underAPI (req : Request) {e : Endpoint} (he : e ≠ .trigger) :
    handle codecs w s req e = handle codecs w s (underAPI req) e := by
  cases e with
  | trigger => exact absurd rfl he
  | _ => rfl

/-- The response to a request that has come to a handler. -/
lemma respond_of_authorised {req : Request} {e : Endpoint}
    (h : serveMux apiRoutes req = .handler e) (hauth : Authorised s.cfg req) :
    respond codecs w s req = handle codecs w s req e := by
  have hserve : serveAPI s.cfg req = .handler e := by
    rw [serveAPI, h]
    exact if_neg hauth
  rw [respond, hserve]

lemma respond_of_refused {req : Request} {e : Endpoint}
    (h : serveMux apiRoutes req = .handler e) (hauth : ¬ Authorised s.cfg req) :
    respond codecs w s req = (plainAnswer 401, []) := by
  have hserve : serveAPI s.cfg req = .status 401 := by
    rw [serveAPI, h]
    exact if_pos (not_not.mp hauth)
  rw [respond, hserve]

lemma respond_of_status {req : Request} {code : ℕ} (h : serveMux apiRoutes req = .status code) :
    respond codecs w s req = (plainAnswer code, []) := by
  rw [respond, serveAPI, h]

lemma respond_of_redirect {req : Request} {place : Bytes}
    (h : serveMux apiRoutes req = .redirect place) :
    respond codecs w s req = (redirect req place, []) := by
  rw [respond, serveAPI, h]

/-! ### Redirections -/

/-- The bytes of an address are kept in a header. -/
lemma hexEscapeNonASCII_append {place : Bytes} (h : ∀ b ∈ place, b < 0x80) (s : Bytes) :
    hexEscapeNonASCII (place ++ s) = place ++ hexEscapeNonASCII s := by
  rw [hexEscapeNonASCII, List.flatMap_append, hexEscapeNonASCII, List.append_cancel_right_eq]
  induction place with
  | nil => rfl
  | cons b place ih =>
    rw [List.flatMap_cons, if_pos (h b List.mem_cons_self),
      ih fun c hc => h c (List.mem_cons_of_mem _ hc), List.singleton_append]

/-- Two redirections are the same when they are to the same place. -/
lemma redirect_eq_iff {req : Request} {place place' : Bytes}
    (hplace : redirection apiRoutes req = some place)
    (hplace' : redirection apiRoutes (underAPI req) = some place') :
    redirect req place = redirect (underAPI req) place' ↔ place = place' := by
  constructor
  · intro heq
    have hlocation := Option.some.inj (congrArg Response.location heq)
    have hquery : (underAPI req).rawQuery = req.rawQuery := rfl
    rw [hquery, hexEscapeNonASCII_append (lt_of_mem_redirection hplace),
      hexEscapeNonASCII_append (lt_of_mem_redirection hplace')] at hlocation
    exact List.append_cancel_right hlocation
  · rintro rfl
    rfl

/-! ### The endpoints -/

/-- The path of an endpoint is not under `/api`. -/
lemma head?_of_endpoint {req : Request} {pattern suffix : String}
    (h : pattern ∈ endpoints.map Prod.fst) (hpath : req.path = pattern ++ suffix) :
    req.escapedPath.head? = some Filepath.separator ∧
      (segments req.escapedPath).head? ≠ some apiDir := by
  -- no path of an endpoint begins with the letter of `/api`
  have hpatterns : ∀ p ∈ endpoints.map Prod.fst, 1 < (bytes p).length ∧
      (bytes p)[1]? ≠ some 0x61 := by decide
  obtain ⟨hlength, hsecond⟩ := hpatterns pattern h
  have hbytes : bytes req.path = bytes pattern ++ bytes suffix := by rw [hpath, bytes_append]
  have hne : req.path ≠ "" := by
    intro hempty
    rw [hempty] at hbytes
    have hnil := congrArg List.length hbytes
    rw [List.length_append] at hnil
    have hzero : (bytes "").length = 0 := rfl
    omega
  have hroot := req.rooted.resolve_left hne
  refine ⟨hroot, fun hhead => hsecond ?_⟩
  obtain ⟨rest, hrest⟩ := List.head?_eq_some_iff.mp hroot
  obtain ⟨more, hmore⟩ := List.head?_eq_some_iff.mp hhead
  have hjoin := req.fromRoot_segments hroot
  obtain ⟨tail, htail⟩ := exists_fromRoot_cons Filepath.separator apiDir more
  rw [hmore, htail] at hjoin
  have hfirst : (bytes pattern ++ bytes suffix)[1]? = (bytes pattern)[1]? :=
    List.getElem?_append_left hlength
  rw [← hfirst, ← hbytes, ← hjoin]
  rfl

/-- What is below the path of the endpoint that runs a plugin. -/
lemma path_of_belowTrigger {req : Request} (h : BelowTrigger req) :
    ∃ name, req.path = triggerPath ++ name :=
  req.exists_of_prefix (by decide) (by decide) h.1 h.2

/-- **The endpoints are the same under `/api`** exactly for the requests that are redirected
to one place, and for those that are not redirected and are not authorised to run a plugin. -/
theorem sameUnderAPI_iff (codecs : Codecs V) (w : Surroundings) (s : Server κ V) {req : Request}
    {pattern suffix : String} (h : pattern ∈ endpoints.map Prod.fst)
    (hpath : req.path = pattern ++ suffix) :
    SameUnderAPI codecs w s req ↔ Unaffected s.cfg req := by
  obtain ⟨hroot, hhead⟩ := head?_of_endpoint h hpath
  have hmethod : (underAPI req).method = req.method := rfl
  have halike := serveMux_twice isDir_api apart_endpoints hmethod hroot rfl hhead
  rw [SameUnderAPI, Unaffected]
  dsimp only at halike ⊢
  rw [← apiRoutes_eq] at halike
  rcases halike with ⟨hstays, hown, hother⟩ | ⟨place, place', hown, hother⟩
  · rw [and_iff_right hstays, or_iff_left fun hor => hor.1 hstays, BelowTrigger,
      ← answerAt_eq_trigger_iff]
    cases hanswer : answerAt ownRoutes (segments req.escapedPath) with
    | redirect place => exact absurd hanswer (answerAt_ne_redirect _ _ place)
    | status code =>
      rw [respond_of_status (hown.trans hanswer), respond_of_status (hother.trans hanswer)]
      simp
    | handler e =>
      have hown := hown.trans hanswer
      have hother := hother.trans hanswer
      by_cases hauth : Authorised s.cfg req
      · rw [respond_of_authorised hown hauth, respond_of_authorised hother hauth]
        by_cases he : e = .trigger
        · obtain ⟨name, hname⟩ :=
            path_of_belowTrigger (answerAt_eq_trigger_iff.mp (hanswer.trans (by rw [he])))
          rw [he]
          exact iff_of_false (handleTrigger_ne w s hname rfl) fun hrun => hrun ⟨hauth, rfl⟩
        · refine iff_of_true (handle_underAPI req he) fun hrun => he ?_
          exact Answer.handler.inj hrun.2
      · -- both are refused
        rw [respond_of_refused hown hauth, respond_of_refused hother hauth]
        exact iff_of_true rfl fun hrun => hauth hrun.1
  · rw [respond_of_redirect (serveMux_of_some hown), respond_of_redirect (serveMux_of_some hother),
      Prod.mk.injEq, and_iff_left rfl, redirect_eq_iff hown hother, hown, hother]
    simp

/-! ### The metrics and a plugin -/

/-- A store of results, baselines and the status of the signatures. -/
abbrev Stored := Scanner.Result ⊕ Detection.Baseline ⊕ Signatures.Status

def storedCodecs : Codecs Stored where
  result :=
    ⟨.inl, fun | .inl r => .ok (r.readBack id) | _ => .error "not a result", id, fun _ => rfl⟩
  baseline :=
    ⟨fun b => .inr (.inl b), fun | .inr (.inl b) => .ok b | _ => .error "not a baseline",
      fun _ => rfl⟩
  signatures :=
    ⟨fun st => .inr (.inr st), fun | .inr (.inr st) => .ok st | _ => .error "not a status",
      fun _ => rfl⟩

/-- A server with a token and the plugins of the daemon. -/
def plainServer : Server Unit Stored where
  cfg := { enabled := true, bindAddr := "127.0.0.1:8788", readOnly := true, authToken := "t" }
  mgr := .new
  named := by decide
  sched := .new none
  results := .new 50
  baseline := none
  resultsStore := none
  sigStore := none
  sigUpdater := none

/-- Every plugin fails. -/
def failingRuns : Surroundings where
  euid := 1000
  latestOrder := []
  run := fun _ => .error "no such file"
  started := unixEpoch
  finished := unixEpoch + second
  update := .error "no source"

/-- A request with the token. -/
def withToken (method path : String)
    (hpath : Url.percent ∉ bytes path ∧ (bytes path).head? = some Filepath.separator) : Request :=
  .plain method path [("Authorization", bytes "t")] hpath

/-- The metrics are the same under `/api`. -/
theorem metrics_under_api :
    SameUnderAPI storedCodecs failingRuns plainServer (withToken "GET" "/metrics" (by decide)) :=
  have hpath : (withToken "GET" "/metrics" (by decide)).path = "/metrics" ++ "" := by decide
  (sameUnderAPI_iff storedCodecs failingRuns plainServer (by decide) hpath).mpr
    (.inl ⟨by decide +kernel, fun hrun => absurd hrun.2.2 (by decide)⟩)

/-- No plugin can be run under `/api`. -/
theorem no_trigger_under_api :
    ¬ ∀ (w : Surroundings) (s : Server Unit Stored) (req : Request) (pattern suffix : String),
      pattern ∈ endpoints.map Prod.fst → req.path = pattern ++ suffix →
        SameUnderAPI storedCodecs w s req := by
  intro hclaim
  let req := withToken "POST" "/scanners/trigger/system.uptime" (by decide)
  have hsame : SameUnderAPI storedCodecs failingRuns plainServer req :=
    hclaim failingRuns plainServer req "/scanners/trigger/" "system.uptime" (by decide) (by decide)
  have hown : serveMux apiRoutes req = .handler .trigger := by decide +kernel
  have hother : serveMux apiRoutes (underAPI req) = .handler .trigger := by decide +kernel
  have hauth : Authorised plainServer.cfg req := fun hrefused => hrefused.2 rfl
  have hauth' : Authorised plainServer.cfg (underAPI req) := fun hrefused => hrefused.2 rfl
  rw [SameUnderAPI, respond_of_authorised hown hauth, respond_of_authorised hother hauth'] at hsame
  have hpath : req.path = triggerPath ++ "system.uptime" := rfl
  exact handleTrigger_ne failingRuns plainServer hpath rfl hsame

end Arcsent.Servers
