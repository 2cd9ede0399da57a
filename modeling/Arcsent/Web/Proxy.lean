/-
# What the web interface passes on

The web interface checks the token of a request below `/api/` and passes the request on to the
address of the API, which checks the token again.  A request that does something has passed
both checks, and there is one thing that it can do.
-/
import Arcsent.Servers.ReadOnly

namespace Arcsent.Web

open Arcsent.Go Arcsent.Servers

/-! ## The reverse proxy -/

/-- The header fields that are for one connection only. -/
def hopHeaders : List String :=
  ["Connection", "Proxy-Connection", "Keep-Alive", "Proxy-Authenticate", "Proxy-Authorization",
    "Te", "Trailer", "Transfer-Encoding", "Upgrade"]

/-- The header fields that the request itself declares to be of that kind. -/
def connectionFields (header : List (String × Bytes)) : List Bytes :=
  (header.filter fun e => e.1 = "Connection").flatMap fun e => (e.2.splitOn 0x2C).map trimString

/-- Names of header fields are compared without regard to case. -/
def sameField (name : Bytes) (key : String) : Bool :=
  let lower (c : UInt8) : UInt8 := if 0x41 ≤ c ∧ c ≤ 0x5A then c + 0x20 else c
  name.map lower = (bytes key).map lower

/-- Whether a header field is taken away. -/
def dropped (header : List (String × Bytes)) (key : String) : Bool :=
  (connectionFields header).any (sameField · key) || hopHeaders.contains key

/-- The request that `httputil.ReverseProxy` makes.  The target has no path of its own, so that
the path stays as it is encoded. -/
def forward (req : Request) : Request :=
  { req with header := req.header.filter fun e => !dropped req.header e.1 }

/-! ## The web interface -/

/-- The server of the web interface; it has the URL of the API if the address could be
parsed. -/
structure WebServer where
  cfg : WebUIConfig
  hasURL : Bool

variable {κ V : Type} (codecs : Codecs V) (w : Surroundings)

/-- The method `proxyAPI`.  Where nothing listens the proxy answers by itself. -/
def proxyAPI (web : WebServer) (api : Option (Server κ V)) (req : Request) :
    Response × List Effect :=
  if !web.hasURL then (⟨503, "", none, .empty⟩, [])
  else
    match api with
    | none => (⟨502, "", none, .empty⟩, [])
    | some s => respond codecs w s (forward req)

/-- The response of the web interface, and what the API does.  The page and its files are not
part of the repository. -/
def webRespond (web : WebServer) (api : Option (Server κ V)) (page : Request → Response)
    (req : Request) : Response × List Effect :=
  match serveWeb web.cfg req with
  | .status code => (plainAnswer code, [])
  | .redirect place => (redirect req place, [])
  | .handler .page => (page req, [])
  | .handler .proxy => proxyAPI codecs w web api req

/-! ## The way to the proxy -/

variable {web : WebServer} {api : Option (Server κ V)} {page : Request → Response} {req : Request}

/-- The check of a token lets a request through. -/
def Admits (cfg : ServerConfig) (req : Request) : Prop :=
  ¬ (cfg.authToken ≠ "" ∧ requestToken req ≠ bytes cfg.authToken)

/-- What comes to the proxy is below `/api/`. -/
lemma head?_of_proxy (h : serveMux webRoutes req = .handler .proxy) :
    (segments req.escapedPath).head? = some apiDir := by
  have hroutes : ∀ e ∈ webRoutes, e.2 = .proxy → e.1.segments = [apiDir] := by decide
  obtain ⟨e, he, hmatch, hproxy⟩ := exists_of_handler h
  have hpattern := hroutes e he hproxy
  rw [head?_of_matches (by simp [hpattern]) hmatch, hpattern]
  rfl

/-- No path of a plugin is among them. -/
lemma not_runsPlugin {s : Server κ V} (h : (segments req.escapedPath).head? = some apiDir) :
    ¬ RunsPlugin s req := by
  rintro ⟨e, -, hpath⟩
  rw [hpath] at h
  exact absurd (Option.some.inj h) (by decide)

/-- The segments of the path of an update below `/api/`. -/
def updateBelowAPI : List Bytes := [apiDir, bytes "signatures", bytes "update"]

lemma serveWeb_update (hpath : segments req.escapedPath = updateBelowAPI) :
    serveMux webRoutes req = .handler .proxy := by
  have hparts : (∀ c ∈ updateBelowAPI, Lib.IsName Filepath.dot c) ∧
      ∀ e ∈ webRoutes, [] ∉ e.1.segments ∧ e.1.segments ≠ updateBelowAPI := by decide
  have hne : segments req.escapedPath ≠ [] := hpath ▸ List.cons_ne_nil _ _
  have hclean := cleanPath_of_names hne (hpath ▸ hparts.1)
  have hstays : redirection webRoutes req = none :=
    redirection_of_clean hne hclean (fun e he => (hparts.2 e he).1) fun e he _ =>
      hpath ▸ (hparts.2 e he).2
  rw [serveMux_of_none hstays, hpath]
  decide

/-! ## What a request can do -/

/-- The proxy is reached by requests with the token of the web interface. -/
lemma serveWeb_proxy (h : serveWeb web.cfg req = .handler .proxy) :
    serveMux webRoutes req = .handler .proxy ∧ Admits web.cfg req := by
  rw [serveWeb] at h
  cases hroute : serveMux webRoutes req with
  | status code => rw [hroute] at h; cases h
  | redirect place => rw [hroute] at h; cases h
  | handler e =>
    rw [hroute] at h
    cases e with
    | page => cases h
    | proxy =>
      refine ⟨rfl, fun hbad => ?_⟩
      have hrefused : withAuthHandler web.cfg req (.handler WebHandler.proxy) = .status 401 :=
        if_pos hbad
      rw [hrefused] at h
      cases h

/-- What the API does with a request that may start an update. -/
lemma effects_update {s : Server κ V} (hauth : Authorised s.cfg req) (h : StartsUpdate s req) :
    (respond codecs w s req).2 = [.updateSignatures] := by
  obtain ⟨hpost, hpath, cfg, hcfg, henabled⟩ := h
  rw [respond_of_authorised (serveMux_update hpath) hauth, handle, handleSignaturesUpdate,
    if_neg (not_not.mpr hpost), hcfg]
  dsimp only
  rw [triggerUpdate, henabled, if_neg (by simp)]
  cases w.update <;> rfl

/-- A request with a bad token does nothing. -/
lemma effects_of_refused {s : Server κ V} (h : ¬ Authorised s.cfg req) :
    (respond codecs w s req).2 = [] := by
  cases hserve : serveMux apiRoutes req with
  | status code => rw [respond_of_status hserve]
  | redirect place => rw [respond_of_redirect hserve]
  | handler e => rw [respond_of_refused hserve h]

/-- The one kind of request to the web interface that does something: a POST to the path of an
update, with the token of the web interface, which is passed on with the token of the API. -/
structure UpdatesThroughWeb (web : WebServer) (api : Option (Server κ V)) (req : Request) :
    Prop where
  path : segments req.escapedPath = updateBelowAPI
  post : req.method = "POST"
  web_token : Admits web.cfg req
  url : web.hasURL = true
  reached : ∃ s, api = some s ∧ Admits s.cfg (forward req) ∧
    ∃ cfg, s.sigUpdater = some cfg ∧ cfg.enabled = true

/-- **A request to the web interface starts an update of the signatures or does nothing**: no
plugin is ever run through it, and two tokens have to be passed. -/
theorem webRespond_effects (codecs : Codecs V) (w : Surroundings) (web : WebServer)
    (api : Option (Server κ V)) (page : Request → Response) (req : Request) :
    UpdatesThroughWeb web api req ∧
        (webRespond codecs w web api page req).2 = [.updateSignatures] ∨
      ¬ UpdatesThroughWeb web api req ∧ (webRespond codecs w web api page req).2 = [] := by
  by_cases hupdates : UpdatesThroughWeb web api req
  · refine .inl ⟨hupdates, ?_⟩
    obtain ⟨s, rfl, htoken, hcfg⟩ := hupdates.reached
    have hserve : serveWeb web.cfg req = .handler .proxy := by
      rw [serveWeb, serveWeb_update hupdates.path]
      exact if_neg hupdates.web_token
    -- the request goes on to the API with its path and its method
    have hpath : updateBelowAPI ∈ updatePaths := by decide
    have hstarts : StartsUpdate s (forward req) :=
      ⟨hupdates.post, hupdates.path.symm ▸ hpath, hcfg⟩
    rw [webRespond, hserve, proxyAPI, hupdates.url]
    exact effects_update codecs w htoken hstarts
  · refine .inr ⟨hupdates, ?_⟩
    rw [webRespond]
    split
    · rfl
    · rfl
    · rfl
    · next hserve =>
      obtain ⟨hroute, hweb⟩ := serveWeb_proxy hserve
      have hbelow := head?_of_proxy hroute
      unfold proxyAPI
      split_ifs with hurl
      · rfl
      · cases api with
        | none => rfl
        | some s =>
          -- what the API does below `/api` is an update or nothing
          by_cases hauth : Authorised s.cfg (forward req)
          · refine effects_eq_nil hauth (not_runsPlugin hbelow) fun hstarts => ?_
            obtain ⟨hpost, hpath, hcfg⟩ := hstarts
            have hpaths : ∀ parts ∈ updatePaths, parts.head? = some apiDir →
                parts = updateBelowAPI := by decide
            have hapi := hpaths _ hpath hbelow
            exact hupdates ⟨hapi, hpost, hweb, by simpa using hurl, s, rfl, hauth, hcfg⟩
          · exact effects_of_refused codecs w hauth

end Arcsent.Web
