/-
# What the API answers to `ctl`

A command of `ctl` becomes an address, the address becomes the first line of a request, and
the API server finds the endpoint, the plugin and the format in what it reads there.  The
client does not encode anything, so that the name of a plugin and a format come through only
if there is nothing in them that means something in an address.
-/
import Arcsent.Cmd.Received
import Arcsent.Servers.ReadOnly

namespace Arcsent.Cmd

open Arcsent.Go Arcsent.Go.Flag Arcsent.Servers

/-! ## The endpoints of the commands -/

/-- The names of plugins that come through. -/
structure PlainName (name : String) : Prop where
  plain : PlainPath name
  clean : CleanComponents ((bytes name).splitOn Filepath.separator)

/-- What an endpoint is asked for: all that its handler looks at in a request. -/
structure Asked where
  method : String
  path : String
  query : List (Bytes × Bytes)

/-- A request asks for that. -/
structure Asked.In (a : Asked) (req : Go.Request) : Prop where
  method : req.method = a.method
  path : req.path = a.path
  query : req.query = a.query

/-- What a command asks for, and the endpoint that it asks. -/
def Command.meant (s : Settings) : Command → Option (Endpoint × Asked)
  | .status => some (.status, ⟨"GET", "/status", []⟩)
  | .health => some (.health, ⟨"GET", "/health", []⟩)
  | .scanners => some (.scanners, ⟨"GET", "/scanners", []⟩)
  | .findings => some (.findings, ⟨"GET", "/findings", []⟩)
  | .baselines => some (.baselines, ⟨"GET", "/baselines", []⟩)
  | .metrics => some (.metrics, ⟨"GET", "/metrics", []⟩)
  | .results (some .latest) => some (.resultsLatest, ⟨"GET", "/results/latest", []⟩)
  | .results _ => some (.resultsHistory, ⟨"GET", "/results/history", []⟩)
  | .trigger plugin =>
    some (.trigger, ⟨"POST", "/scanners/trigger/" ++ pluginOf s (plugin.getD ""), []⟩)
  | .signatures .status => some (.signaturesStatus, ⟨"GET", "/signatures/status", []⟩)
  | .signatures .update => some (.signaturesUpdate, ⟨"POST", "/signatures/update", []⟩)
  | .exports .results =>
    some (.exportResults, ⟨"GET", "/export/results", [(bytes "format", bytes (toLower s.format))]⟩)
  | .exports .baselines =>
    some (.exportBaselines,
      ⟨"GET", "/export/baselines", [(bytes "format", bytes (toLower s.format))]⟩)
  | .validate => none
  | .storageCheck => none

/-- The free texts of a command stand for themselves in an address. -/
def Command.Plain (s : Settings) : Command → Prop
  | .trigger plugin => PlainName (pluginOf s (plugin.getD ""))
  | .exports _ => PlainValue (toLower s.format)
  | _ => True

/-- The requests without a free text in their path. -/
def fixedPaths : List (String × String × Endpoint) :=
  [("GET", "/status", .status), ("GET", "/health", .health), ("GET", "/scanners", .scanners),
    ("GET", "/findings", .findings), ("GET", "/baselines", .baselines),
    ("GET", "/metrics", .metrics), ("GET", "/results/latest", .resultsLatest),
    ("GET", "/results/history", .resultsHistory),
    ("GET", "/signatures/status", .signaturesStatus),
    ("POST", "/signatures/update", .signaturesUpdate),
    ("GET", "/export/results", .exportResults), ("GET", "/export/baselines", .exportBaselines)]

lemma plain_fixed {method path : String} {e : Endpoint} (h : (method, path, e) ∈ fixedPaths) :
    (bytes path).head? = some Url.slash ∧ PlainPath path := by
  have hroutes : ∀ f ∈ fixedPaths, (bytes f.2.1).head? = some Url.slash ∧
      ∀ b ∈ bytes f.2.1, b ≠ Url.percent ∧ b ≠ Url.questionMark ∧ b ≠ Url.hash ∧
        Url.isCTL b = false := by decide +kernel
  exact hroutes _ h

/-- The segments of a path that stands for itself are its components. -/
lemma segments_of_arrived {r : Request} {path : String} {query : List (Bytes × Bytes)}
    {req : Go.Request} (hreq : Arrived r path query req)
    (hroot : (bytes path).head? = some Url.slash) (hpath : PlainPath path) :
    segments req.escapedPath = segments (bytes path) ∧
      (cleanPath req.escapedPath = req.escapedPath ↔
        CleanComponents ((bytes path).tail.splitOn Filepath.separator)) := by
  obtain ⟨rest, hrest⟩ := List.head?_eq_some_iff.mp hroot
  have hplain : Url.percent ∉ rest := fun hmem =>
    (hpath _ (hrest ▸ List.mem_cons_of_mem _ hmem)).1 rfl
  obtain ⟨hsegments, hclean⟩ := segments_plain hplain hrest hreq.encoded
  rw [hsegments, hrest, segments_of_notMem hplain]
  exact ⟨rfl, hclean⟩

lemma serveMux_fixed {r : Request} {query : List (Bytes × Bytes)} {path : String} {e : Endpoint}
    (h : (r.method, path, e) ∈ fixedPaths) {req : Go.Request} (hreq : Arrived r path query req) :
    serveMux apiRoutes req = .handler e := by
  have hpaths : ∀ f ∈ fixedPaths, segments (bytes f.2.1) ≠ [] ∧
      (∀ c ∈ segments (bytes f.2.1), Lib.IsName Filepath.dot c) ∧
      segments (bytes f.2.1) ≠ triggerSegments ∧
      segments (bytes f.2.1) ≠ apiDir :: triggerSegments ∧
      answerAt apiRoutes (segments (bytes f.2.1)) = .handler f.2.2 := by
    rw [apiRoutes_eq]
    decide +kernel
  obtain ⟨hne, hnames, hown, hapi, hanswer⟩ := hpaths _ h
  obtain ⟨hroot, hplain⟩ := plain_fixed h
  rw [← (segments_of_arrived hreq hroot hplain).1] at hne hnames hown hapi hanswer
  rw [serveMux_of_clean hne (cleanPath_of_names hne hnames) hown hapi, hanswer]

lemma plainPath_triggerPath : PlainPath "/scanners/trigger/" := by
  have hbytes : ∀ b ∈ bytes "/scanners/trigger/", b ≠ Url.percent ∧ b ≠ Url.questionMark ∧
      b ≠ Url.hash ∧ Url.isCTL b = false := by decide +kernel
  exact hbytes

lemma root_triggerPath (rest : Bytes) :
    (bytes "/scanners/trigger/" ++ rest).head? = some Url.slash := by
  have hslash : (bytes "/scanners/trigger/").head? = some Url.slash := by decide
  rw [List.head?_append, hslash, Option.some_or]

lemma plainPath_trigger {name : String} (h : PlainPath name) :
    (bytes ("/scanners/trigger/" ++ name)).head? = some Url.slash ∧
      PlainPath ("/scanners/trigger/" ++ name) := by
  refine ⟨?_, PlainPath.append plainPath_triggerPath h⟩
  rw [bytes_append]
  exact root_triggerPath _

lemma isName_triggerSegments :
    ∀ c ∈ triggerSegments, Lib.IsName Filepath.dot c ∧ Filepath.separator ∉ c := by decide

/-- The components of a path below that of the trigger. -/
lemma splitOn_trigger (name : String) :
    (bytes ("/scanners/trigger/" ++ name)).tail.splitOn Filepath.separator =
      triggerSegments ++ (bytes name).splitOn Filepath.separator := by
  have hpath : bytes ("/scanners/trigger/" ++ name) = Filepath.separator :: (bytes "scanners" ++
      Filepath.separator :: (bytes "trigger" ++ Filepath.separator :: bytes name)) := by
    rw [bytes_append]
    rfl
  have hfirst := isName_triggerSegments (bytes "scanners") (by decide)
  have hsecond := isName_triggerSegments (bytes "trigger") (by decide)
  rw [hpath, List.tail_cons, List.splitOn_append_cons_self_of_not_mem hfirst.2,
    List.splitOn_append_cons_self_of_not_mem hsecond.2]
  rfl

/-- The multiplexer takes a name to the endpoint that runs a plugin exactly when it is clean. -/
lemma serveMux_trigger_iff {r : Request} {name : String} {query : List (Bytes × Bytes)}
    {req : Go.Request} (hmethod : r.method ≠ "CONNECT") (hname : PlainPath name)
    (hreq : Arrived r ("/scanners/trigger/" ++ name) query req) :
    serveMux apiRoutes req = .handler .trigger ↔
      CleanComponents ((bytes name).splitOn Filepath.separator) := by
  obtain ⟨hroot, hplain⟩ := plainPath_trigger hname
  obtain ⟨hsegments, hclean⟩ := segments_of_arrived hreq hroot hplain
  have hne := List.splitOn_ne_nil Filepath.separator (bytes name)
  have hsegs : segments req.escapedPath =
      triggerSegments ++ (bytes name).splitOn Filepath.separator := by
    obtain ⟨rest, hrest⟩ := List.head?_eq_some_iff.mp hroot
    have hpercent : Url.percent ∉ rest := fun hmem =>
      (hplain _ (hrest ▸ List.mem_cons_of_mem _ hmem)).1 rfl
    rw [hsegments, ← splitOn_trigger, hrest]
    exact segments_of_notMem hpercent _
  rw [splitOn_trigger, triggerSegments, List.cons_append, List.cons_append, List.nil_append,
    cleanComponents_cons (isName_triggerSegments _ (by decide)).1 (List.cons_ne_nil _ _),
    cleanComponents_cons (isName_triggerSegments _ (by decide)).1 hne] at hclean
  rw [← hclean]
  constructor
  · intro hserve
    have hstays := (redirection_eq_none_iff.mp (redirection_of_handler hserve)).1
    exact hstays.resolve_left (hreq.method ▸ hmethod)
  · intro hself
    have hlength : triggerSegments.length < (segments req.escapedPath).length := by
      rw [hsegs, List.length_append]
      exact Nat.lt_add_of_pos_right (List.length_pos_iff.mpr hne)
    have hbelow : triggerSegments <+: segments req.escapedPath :=
      hsegs ▸ List.prefix_append _ _
    rw [serveMux_of_clean (List.ne_nil_of_length_pos (Nat.zero_lt_of_lt hlength)) hself]
    · exact answerAt_trigger hbelow hlength
    · exact fun hsame => absurd (congrArg List.length hsame) hlength.ne'
    · intro hsame
      rw [hsegs] at hsame
      exact absurd (List.cons.inj hsame).1 (by decide)

/-! ## The answers -/

section Answers

variable {κ V : Type} (codecs : Servers.Codecs V) (w : Surroundings) (srv : Server κ V)
variable {env host name : String} {c : Command} {flags : List String} {s : Settings}
  {r : Request} {pretty : Bool}

/-- A handler looks at the method, the path and the query. -/
lemma handle_congr {a : Asked} {req req' : Go.Request} (h : a.In req) (h' : a.In req')
    (e : Endpoint) : handle codecs w srv req e = handle codecs w srv req' e := by
  have hmethod : req.method = req'.method := h.method.trans h'.method.symm
  have hpath : req.path = req'.path := h.path.trans h'.path.symm
  have hquery : req.query = req'.query := h.query.trans h'.query.symm
  cases e with
  | trigger => rw [handle, handle, handleTrigger, handleTrigger, hpath]
  | exportResults => rw [handle, handle, handleExportResults, handleExportResults, hquery]
  | exportBaselines => rw [handle, handle, handleExportBaselines, handleExportBaselines, hquery]
  | signaturesUpdate =>
    rw [handle, handle, handleSignaturesUpdate, handleSignaturesUpdate, hmethod]
  | _ => rfl

/-- The server at the host answers a request as the handler of an endpoint answers every
request that asks for the same, if it accepts the token. -/
def Answered (host : String) (r : Request) (e : Endpoint) (a : Asked) : Prop :=
  ∃ req, received r = some (bytes host, req) ∧ a.In req ∧ ∀ plain, a.In plain →
    respond codecs w srv req =
      if srv.cfg.authToken ≠ "" ∧ r.authorization ≠ srv.cfg.authToken then (plainAnswer 401, [])
      else handle codecs w srv plain e

/-- What the server answers, once the request has arrived. -/
lemma answered_of_arrived {path : String} {query : List (Bytes × Bytes)} {e : Endpoint}
    (h : ∃ req, received r = some (bytes host, req) ∧ Arrived r path query req)
    (hmux : ∀ req, Arrived r path query req → serveMux apiRoutes req = .handler e)
    (htoken : Sendable (bytes r.authorization)) (hne : r.authorization ≠ "") :
    Answered codecs w srv host r e ⟨r.method, path, query⟩ := by
  obtain ⟨req, hreceived, hreq⟩ := h
  have hasked : Asked.In ⟨r.method, path, query⟩ req := ⟨hreq.method, hreq.path, hreq.query⟩
  have hsent : requestToken req = bytes r.authorization := by
    have hfirst : getFirst req.header "Authorization" = bytes r.authorization := by
      rw [hreq.header, headerOf, htoken.trimmed]
      rfl
    have hnil : bytes r.authorization ≠ [] := fun hnil => hne (bytes_inj.mp hnil)
    rw [requestToken, hfirst, if_neg hnil]
  refine ⟨req, hreceived, hasked, fun plain hplain => ?_⟩
  split_ifs with hauth
  · refine respond_of_refused (hmux req hreq) (not_not.mpr ?_)
    rwa [hsent, Ne, Ne, bytes_inj]
  · have hallowed : Authorised srv.cfg req := by
      rwa [Authorised, hsent, Ne, Ne, bytes_inj]
    rw [respond_of_authorised (hmux req hreq) hallowed]
    exact handle_congr codecs w srv hasked hplain e

section Kinds

variable {token method path value : String} {contentType : Option String} {e : Endpoint}

lemma answered_fixed (hhost : Url.plainHost (bytes host) = true) (htoken : Sendable (bytes token))
    (hne : token ≠ "") (hfixed : (method, path, e) ∈ fixedPaths) :
    Answered codecs w srv host ⟨method, "http://" ++ host ++ path, token, contentType⟩ e
      ⟨method, path, []⟩ := by
  obtain ⟨hroot, hpath⟩ := plain_fixed hfixed
  exact answered_of_arrived codecs w srv (received_path hhost hroot hpath htoken.valid)
    (fun req hreq => serveMux_fixed hfixed hreq) htoken hne

lemma answered_format (hhost : Url.plainHost (bytes host) = true) (htoken : Sendable (bytes token))
    (hne : token ≠ "") (hfixed : (method, path, e) ∈ fixedPaths) (hvalue : PlainValue value) :
    Answered codecs w srv host
      ⟨method, "http://" ++ host ++ (path ++ ("?format=" ++ value)), token, contentType⟩ e
      ⟨method, path, [(bytes "format", bytes value)]⟩ := by
  obtain ⟨hroot, hpath⟩ := plain_fixed hfixed
  exact answered_of_arrived codecs w srv (received_format hhost hroot hpath hvalue htoken.valid)
    (fun req hreq => serveMux_fixed hfixed hreq) htoken hne

lemma answered_trigger (hhost : Url.plainHost (bytes host) = true) (htoken : Sendable (bytes token))
    (hne : token ≠ "") (hname : PlainName name) :
    Answered codecs w srv host
      ⟨"POST", "http://" ++ host ++ ("/scanners/trigger/" ++ name), token, contentType⟩ .trigger
      ⟨"POST", "/scanners/trigger/" ++ name, []⟩ := by
  obtain ⟨hroot, hpath⟩ := plainPath_trigger hname.plain
  have hmethod : "POST" ≠ "CONNECT" := by decide
  exact answered_of_arrived codecs w srv (received_path hhost hroot hpath htoken.valid)
    (fun req hreq => (serveMux_trigger_iff hmethod hname.plain hreq).mpr hname.clean) htoken hne

end Kinds

/-- **Every command is answered by its endpoint**: whatever the server is, what it answers to
the request of a command, and what it does, is what the handler of the endpoint that is meant
answers and does for the plugin and the format that are meant, if the server accepts the
token. -/
theorem ctl_answered (hparse : parse ctlFlags flags {} = .ok (s, []))
    (haddr : trimRight s.addr '/' = "http://" ++ host)
    (hhost : Url.plainHost (bytes host) = true) (htoken : Sendable (bytes (tokenOf env s)))
    (hplain : c.Plain s)
    (hrun : runCLI env (flags ++ c.words) = .perform (.request r) pretty) :
    ∃ e asked, c.meant s = some (e, asked) ∧ Answered codecs w srv host r e asked := by
  rw [runCLI_early hparse, ← List.append_nil c.words, afterFlags_words, List.append_nil] at hrun
  split_ifs at hrun with hempty
  -- the commands whose path does not depend on a flag
  have hfixed : ∀ {method path contentType e}, (method, path, e) ∈ fixedPaths →
      Answered codecs w srv host
        ⟨method, trimRight s.addr '/' ++ path, tokenOf env s, contentType⟩ e
        ⟨method, path, []⟩ := by
    intro method path contentType e hmem
    rw [haddr]
    exact answered_fixed codecs w srv hhost htoken hempty hmem
  cases c with
  | status | health | scanners | findings | baselines | metrics =>
    obtain ⟨hr, -⟩ := Outcome.perform.inj hrun
    obtain rfl := Action.request.inj hr
    exact ⟨_, _, rfl, hfixed (by simp [fixedPaths])⟩
  | results view =>
    rcases view with _ | (_ | _)
    all_goals
      obtain ⟨hr, -⟩ := Outcome.perform.inj hrun
      obtain rfl := Action.request.inj hr
      exact ⟨_, _, rfl, hfixed (by simp [fixedPaths])⟩
  | trigger plugin =>
    rw [Command.word, runCommand_trigger] at hrun
    split_ifs at hrun with hnone
    obtain ⟨hr, -⟩ := Outcome.perform.inj hrun
    obtain rfl := Action.request.inj hr
    -- the plugin is the one behind the command or the one of the flag
    have hsub : Command.sub (.trigger plugin) = plugin := rfl
    rw [hsub, headD_toList, newClient, Client.doJSON, haddr]
    exact ⟨_, _, rfl, answered_trigger codecs w srv hhost htoken hempty hplain⟩
  | signatures verb =>
    cases verb
    all_goals
      obtain ⟨hr, -⟩ := Outcome.perform.inj hrun
      obtain rfl := Action.request.inj hr
      exact ⟨_, _, rfl, hfixed (by simp [fixedPaths])⟩
  | exports kind =>
    have hformat : ∀ {path e}, ("GET", path, e) ∈ fixedPaths →
        Answered codecs w srv host ⟨"GET", trimRight s.addr '/' ++
          (path ++ ("?format=" ++ toLower s.format)), tokenOf env s, none⟩ e
          ⟨"GET", path, [(bytes "format", bytes (toLower s.format))]⟩ := by
      intro path e hmem
      rw [haddr]
      exact answered_format codecs w srv hhost htoken hempty hmem hplain
    cases kind with
    | results =>
      obtain ⟨hr, -⟩ := Outcome.perform.inj hrun
      obtain rfl := Action.request.inj hr
      have hjoin : "/export/results?format=" = "/export/results" ++ "?format=" := by decide
      rw [newClient, Client.doText, hjoin, String.append_assoc]
      exact ⟨_, _, rfl, hformat (by simp [fixedPaths])⟩
    | baselines =>
      obtain ⟨hr, -⟩ := Outcome.perform.inj hrun
      obtain rfl := Action.request.inj hr
      have hjoin : "/export/baselines?format=" = "/export/baselines" ++ "?format=" := by decide
      rw [newClient, Client.doText, hjoin, String.append_assoc]
      exact ⟨_, _, rfl, hformat (by simp [fixedPaths])⟩
  | validate => cases hrun
  | storageCheck => cases hrun

/-- What a server reads below the path of the trigger: what stands before a query and a
fragment, decoded. -/
lemma path_of_received {method token : String} {contentType : Option String} {req : Go.Request}
    (hhost : Url.plainHost (bytes host) = true)
    (h : received ⟨method, "http://" ++ host ++ ("/scanners/trigger/" ++ name), token,
      contentType⟩ = some (bytes host, req)) :
    let r : Request :=
      ⟨method, "http://" ++ host ++ ("/scanners/trigger/" ++ name), token, contentType⟩
    let before := (Url.cut Url.questionMark (Url.cut Url.hash (bytes name)).1).1
    ∃ decoded, Url.unescape .path before = some decoded ∧
      bytes req.path = bytes "/scanners/trigger/" ++ decoded ∧
      (req.escapedPath = bytes "/scanners/trigger/" ++ before ∨
        req.escapedPath = Url.escape (bytes req.path)) ∧
      (Url.cut Url.hash (bytes name)).1.any Url.isCTL = false ∧
      req.method = method ∧ req.header = headerOf r := by
  intro r before
  have hdir := plainPath_triggerPath
  obtain ⟨u, v, hparse, -, -, hv, -, hmethod, hescaped, hheader, -⟩ := received_eq_some_iff.mp h
  obtain ⟨v', hv', -, hvpath, hvescaped⟩ := Url.parseRequestURI_requestURI hparse
  obtain rfl := Option.some.inj (hv'.symm.trans hv)
  have hroot : (bytes "/scanners/trigger/" ++ bytes name).head? = some Url.slash :=
    root_triggerPath _
  have hscheme : bytes ("http://" ++ host) = Url.scheme ++ bytes host := bytes_append _ _
  dsimp only at hparse
  rw [bytes_append, bytes_append "/scanners/trigger/", hscheme, Url.parse_append hhost hroot,
    Url.cut_append_left fun hmem => (hdir _ hmem).2.2.1 rfl] at hparse
  -- the fragment is cut off first, and then the query
  split_ifs at hparse with hbad
  rw [Url.cutQuery, Url.cut_append_left fun hmem => (hdir _ hmem).2.1 rfl] at hparse
  have hset := Url.escapedPath_of_setPath hparse
  obtain ⟨hdecoded, -⟩ := Url.setPath_eq_some_iff.mp hparse
  dsimp only at hdecoded
  rw [Url.unescape_append fun hmem => (hdir _ hmem).1 rfl] at hdecoded
  obtain ⟨decoded, hname, hu⟩ := Option.map_eq_some_iff.mp hdecoded
  have hne : u.path ≠ [] := by
    rw [← hu]
    intro hnil
    exact absurd (List.append_eq_nil_iff.mp hnil).1 (by decide)
  rw [if_neg (Url.URL.escapedPath_ne_nil hne)] at hvescaped
  have hpath : bytes req.path = u.path := bytes_path_eq (hescaped.trans hvescaped)
  refine ⟨decoded, hname, hpath.trans hu.symm, ?_, ?_, hmethod, hheader⟩
  · rw [hescaped, hvescaped, hpath]
    exact hset
  · rw [List.any_append, not_or] at hbad
    have hname := Bool.not_eq_true _ ▸ hbad.1
    exact (Bool.or_eq_false_iff.mp hname).2

/-- A name that the server reads as it was given stands for itself. -/
lemma arrived_of_name {method token : String} {contentType : Option String} {req : Go.Request}
    (hhost : Url.plainHost (bytes host) = true)
    (h : received ⟨method, "http://" ++ host ++ ("/scanners/trigger/" ++ name), token,
      contentType⟩ = some (bytes host, req))
    (hname : trimPrefix req.path "/scanners/trigger/" = name) :
    PlainPath name ∧
      Arrived ⟨method, "http://" ++ host ++ ("/scanners/trigger/" ++ name), token, contentType⟩
        ("/scanners/trigger/" ++ name) req.query req := by
  obtain ⟨decoded, hdecoded, hpath, hencoded, hctl, hmethod, hheader⟩ := path_of_received hhost h
  have hstarts : triggerPath.toList <+: req.path.toList := by
    rw [Filepath.bytes_eq_flatMap, Filepath.bytes_eq_flatMap] at hpath
    exact Url.prefix_of_bytes (by decide) hpath
  obtain ⟨suffix, hsuffix⟩ := exists_of_prefix hstarts
  obtain rfl : suffix = name := by
    rw [hsuffix] at hname
    rw [← hname]
    exact (trimPrefix_triggerPath suffix).symm
  have hwhole : bytes req.path = bytes "/scanners/trigger/" ++ bytes suffix := by
    rw [hsuffix, bytes_append]
    rfl
  obtain rfl := List.append_cancel_left (hwhole.symm.trans hpath)
  -- what is decoded is as long as the name, so that nothing has been cut off or decoded
  have hlength := (Url.length_unescape hdecoded).1
  have hshorter := (List.takeWhile_prefix (· ≠ Url.questionMark)
    (l := (Url.cut Url.hash (bytes suffix)).1)).length_le
  have hnohash : Url.hash ∉ bytes suffix :=
    Url.notMem_of_length_cut (hlength.trans hshorter)
  rw [Url.cut_of_notMem hnohash] at hdecoded hlength hctl hencoded
  have hnomark : Url.questionMark ∉ bytes suffix := Url.notMem_of_length_cut hlength
  rw [Url.cut_of_notMem hnomark] at hdecoded hencoded
  rw [Url.unescape_path_eq_self_iff] at hdecoded
  refine ⟨fun b hb => ⟨?_, ?_, ?_, ?_⟩, hmethod, hsuffix, ?_, hheader, rfl⟩
  · exact fun h => hdecoded (h ▸ hb)
  · exact fun h => hnomark (h ▸ hb)
  · exact fun h => hnohash (h ▸ hb)
  · exact Bool.not_eq_true _ ▸ List.any_eq_false.mp hctl b hb
  · rw [bytes_append, ← hwhole]
    exact hwhole ▸ hencoded

/-- **Which names of plugins come through**: the multiplexer hands the request to the handler of
the trigger for the plugin that `ctl trigger` names, and for no other, exactly when there is
nothing in the name that means something in an address or in a path. -/
theorem trigger_reaches_iff (hparse : parse ctlFlags flags {} = .ok (s, []))
    (haddr : trimRight s.addr '/' = "http://" ++ host)
    (hhost : Url.plainHost (bytes host) = true) (htoken : Sendable (bytes (tokenOf env s)))
    {plugin : Option String}
    (hrun : runCLI env (flags ++ (Command.trigger plugin).words) =
      .perform (.request r) pretty) :
    (∃ req, received r = some (bytes host, req) ∧
        serveMux apiRoutes req = .handler .trigger ∧
        trimPrefix req.path "/scanners/trigger/" = pluginOf s (plugin.getD "")) ↔
      PlainName (pluginOf s (plugin.getD "")) := by
  rw [runCLI_early hparse, ← List.append_nil (Command.trigger plugin).words, afterFlags_words,
    List.append_nil] at hrun
  split_ifs at hrun with hempty
  rw [Command.word, runCommand_trigger] at hrun
  split_ifs at hrun with hnone
  obtain ⟨hr, -⟩ := Outcome.perform.inj hrun
  obtain rfl := Action.request.inj hr
  have hsub : Command.sub (.trigger plugin) = plugin := rfl
  rw [hsub, headD_toList, newClient, Client.doJSON, haddr]
  generalize pluginOf s (plugin.getD "") = name
  have hpost : "POST" ≠ "CONNECT" := by decide
  constructor
  · rintro ⟨req, hreq, hmux, hname⟩
    obtain ⟨hplain, harrived⟩ := arrived_of_name hhost hreq hname
    exact ⟨hplain, (serveMux_trigger_iff hpost hplain harrived).mp hmux⟩
  · intro h
    obtain ⟨hroot, hpath⟩ := plainPath_trigger h.plain
    obtain ⟨req, hreceived, hreq⟩ := received_path hhost hroot hpath htoken.valid
    refine ⟨req, hreceived, ?_, ?_⟩
    · exact (serveMux_trigger_iff hpost h.plain hreq).mpr h.clean
    · rw [hreq.path]
      exact trimPrefix_triggerPath name

end Answers

/-! ### A plugin by its name -/

lemma plainName_uptime : PlainName "system.uptime" where
  plain := by
    have hbytes : ∀ b ∈ bytes "system.uptime", b ≠ Url.percent ∧ b ≠ Url.questionMark ∧
        b ≠ Url.hash ∧ Url.isCTL b = false := by decide +kernel
    exact hbytes
  clean := cleanComponents_of_isName (by decide) (by decide)

lemma sendable_t : Sendable (bytes (tokenOf "t" {})) := ⟨by decide, by decide⟩

/-- The request of `ctl trigger` with a name. -/
def triggerRequest (name : String) : Request where
  method := "POST"
  url := "http://127.0.0.1:8788/scanners/trigger/" ++ name
  authorization := "t"
  contentType := some "application/json"

/-- The plugin is run, with the token of the environment. -/
theorem ctl_answered_uptime : ∃ e asked,
    (Command.trigger (some "system.uptime")).meant {} = some (e, asked) ∧
      Answered storedCodecs failingRuns plainServer "127.0.0.1:8788"
        (triggerRequest "system.uptime") e asked := by
  have hparse : parse ctlFlags [] ({} : Settings) = .ok ({}, []) := rfl
  have haddr : trimRight ({} : Settings).addr '/' = "http://" ++ "127.0.0.1:8788" := by decide
  have hhost : Url.plainHost (bytes "127.0.0.1:8788") = true := by decide
  have hrun : runCLI "t" ([] ++ (Command.trigger (some "system.uptime")).words) =
      .perform (.request (triggerRequest "system.uptime")) false := by decide
  exact ctl_answered storedCodecs failingRuns plainServer hparse haddr hhost sendable_t
    plainName_uptime hrun

/-- It is not if a question mark follows its name. -/
theorem trigger_reaches_iff_uptime :
    (∃ req, received (triggerRequest "system.uptime") = some (bytes "127.0.0.1:8788", req) ∧
        serveMux apiRoutes req = .handler .trigger ∧
        trimPrefix req.path "/scanners/trigger/" = "system.uptime") ∧
      ¬ ∃ req, received (triggerRequest "system.uptime?") = some (bytes "127.0.0.1:8788", req) ∧
        serveMux apiRoutes req = .handler .trigger ∧
        trimPrefix req.path "/scanners/trigger/" = "system.uptime?" := by
  have hparse : parse ctlFlags [] ({} : Settings) = .ok ({}, []) := rfl
  have haddr : trimRight ({} : Settings).addr '/' = "http://" ++ "127.0.0.1:8788" := by decide
  have hhost : Url.plainHost (bytes "127.0.0.1:8788") = true := by decide
  have hrun : runCLI "t" ([] ++ (Command.trigger (some "system.uptime")).words) =
      .perform (.request (triggerRequest "system.uptime")) false := by decide
  have hrun' : runCLI "t" ([] ++ (Command.trigger (some "system.uptime?")).words) =
      .perform (.request (triggerRequest "system.uptime?")) false := by decide
  constructor
  · exact (trigger_reaches_iff hparse haddr hhost sendable_t hrun).mpr plainName_uptime
  · intro h
    have hplain := (trigger_reaches_iff hparse haddr hhost sendable_t hrun').mp h
    exact (hplain.plain Url.questionMark (by decide)).2.1 rfl

end Arcsent.Cmd
