/-
# The two servers

`internal/api/server.go` and `internal/webui/server.go`: what the servers share, that is how
they start and stop, how they take a new configuration and how they check a token, and the
routes of each.  A server decides once, when it starts, whether it listens; its
configuration may be replaced at any time.
-/
import Arcsent.Config.Validate
import Arcsent.Go.ServeMux

namespace Arcsent.Servers

open Arcsent.Go

/-! ## Starting, stopping, and a new configuration -/

/-- How far a server has come. -/
inductive Phase
  /-- Before `Start`. -/
  | created
  /-- It was disabled when it was started. -/
  | skipped
  | listening
  | closed
deriving DecidableEq

/-- A server. -/
structure Listener where
  cfg : ServerConfig
  phase : Phase

namespace Listener

/-- The function `New`. -/
def new (cfg : ServerConfig) : Listener := ⟨cfg, .created⟩

/-- The method `Start`, up to the time the server listens. -/
def start (l : Listener) : Listener :=
  { l with phase := if !l.cfg.enabled then .skipped else .listening }

/-- The method `UpdateConfig`. -/
def updateConfig (l : Listener) (cfg : ServerConfig) : Listener := { l with cfg := cfg }

/-- The method `Shutdown`, and the end of `Start` when `ListenAndServe` fails. -/
def shutdown (l : Listener) : Listener :=
  { l with phase := if l.phase = .listening then .closed else l.phase }

end Listener

/-! ## The token -/

/-- The token of a request. -/
def requestToken (req : Request) : Bytes :=
  let token := getFirst req.header "Authorization"
  if token = [] then getFirst req.query (bytes "token") else token

variable {η : Type}

/-- The check that both servers put before a handler. -/
def checkToken (cfg : ServerConfig) (req : Request) (next : Answer η) : Answer η :=
  if cfg.authToken ≠ "" ∧ requestToken req ≠ bytes cfg.authToken then .status 401 else next

/-- The method `withAuth` of the API server. -/
def withAuth (cfg : APIConfig) (req : Request) (next : Answer η) : Answer η :=
  checkToken cfg req next

/-- The method `withAuthHandler` of the web interface. -/
def withAuthHandler (cfg : WebUIConfig) (req : Request) (next : Answer η) : Answer η :=
  checkToken cfg req next

/-- The token of the request is missing or is not that of the server. -/
def BadToken (cfg : ServerConfig) (req : Request) : Prop :=
  requestToken req = [] ∨ requestToken req ≠ bytes cfg.authToken

/-- A server that has a token refuses every bad one. -/
lemma checkToken_of_badToken {cfg : ServerConfig} {req : Request} (htoken : cfg.authToken ≠ "")
    (hbad : BadToken cfg req) (next : Answer η) : checkToken cfg req next = .status 401 := by
  rw [checkToken, if_pos]
  refine ⟨htoken, ?_⟩
  rcases hbad with hempty | hdiffers
  · rw [hempty]
    exact fun hnil => htoken (bytes_inj.mp hnil.symm)
  · exact hdiffers

/-- A server without a token lets everything through. -/
lemma checkToken_of_no_token {cfg : ServerConfig} (htoken : cfg.authToken = "") (req : Request)
    (next : Answer η) : checkToken cfg req next = next := by
  rw [checkToken, if_neg fun h => h.1 htoken]

/-! ## The API -/

/-- The handlers of the API. -/
inductive Endpoint
  | health
  | status
  | scanners
  | trigger
  | resultsLatest
  | resultsHistory
  | findings
  | baselines
  | exportResults
  | exportBaselines
  | signaturesStatus
  | signaturesUpdate
  | metrics
deriving DecidableEq

/-- The function `register` of `buildHandler`. -/
def register (path : String) (e : Endpoint) : Routes Endpoint :=
  [(parsePattern path, e), (parsePattern ("/api" ++ path), e)]

/-- The routes of `buildHandler`. -/
def apiRoutes : Routes Endpoint :=
  register "/health" .health ++ register "/status" .status ++ register "/scanners" .scanners ++
    register "/scanners/trigger/" .trigger ++ register "/results/latest" .resultsLatest ++
    register "/results/history" .resultsHistory ++ register "/findings" .findings ++
    register "/baselines" .baselines ++ register "/export/results" .exportResults ++
    register "/export/baselines" .exportBaselines ++
    register "/signatures/status" .signaturesStatus ++
    register "/signatures/update" .signaturesUpdate ++ register "/metrics" .metrics

/-- How the API server answers, when it listens. -/
def serveAPI (cfg : APIConfig) (req : Request) : Answer Endpoint :=
  match serveMux apiRoutes req with
  | .handler e => withAuth cfg req (.handler e)
  | answer => answer

/-! ## The web interface -/

/-- The handlers of the web interface. -/
inductive WebHandler
  /-- The requests that are passed on to the API. -/
  | proxy
  /-- The page and its files. -/
  | page
deriving DecidableEq

def webRoutes : Routes WebHandler := [(parsePattern "/api/", .proxy), (parsePattern "/", .page)]

/-- How the web interface answers, when it listens.  The page is public. -/
def serveWeb (cfg : WebUIConfig) (req : Request) : Answer WebHandler :=
  match serveMux webRoutes req with
  | .handler .proxy => withAuthHandler cfg req (.handler .proxy)
  | answer => answer

/-! ## Guarded servers -/

/-- While the server listens, no request with a bad token reaches a handler of the API, and
those that have come to one are answered 401. -/
def GuardsAPI (l : Listener) : Prop :=
  l.phase = .listening → ∀ req, BadToken l.cfg req →
    (∀ e, serveAPI l.cfg req ≠ .handler e) ∧
    ∀ e, serveMux apiRoutes req = .handler e → serveAPI l.cfg req = .status 401

/-- While the web interface listens, no request with a bad token is passed on to the API,
and those that have come to the proxy are answered 401. -/
def GuardsWeb (l : Listener) : Prop :=
  l.phase = .listening → ∀ req, BadToken l.cfg req →
    serveWeb l.cfg req ≠ .handler .proxy ∧
    (serveMux webRoutes req = .handler .proxy → serveWeb l.cfg req = .status 401)

/-- The API is guarded exactly when it has a token. -/
lemma guardsAPI_iff {l : Listener} :
    GuardsAPI l ↔ (l.phase = .listening → l.cfg.authToken ≠ "") := by
  constructor
  · intro h hlistening hempty
    -- a request for the health of the daemon, without a token
    let req : Request := .plain "GET" "/health" [] (by decide)
    refine (h hlistening req (.inl rfl)).1 .health ?_
    have hroute : serveMux apiRoutes req = .handler .health := by decide
    rw [serveAPI, hroute]
    exact checkToken_of_no_token hempty req _
  · intro h hlistening req hbad
    have htoken := h hlistening
    rw [serveAPI]
    cases hroute : serveMux apiRoutes req with
    | status code => exact ⟨fun _ => nofun, fun _ => nofun⟩
    | redirect place => exact ⟨fun _ => nofun, fun _ => nofun⟩
    | handler e =>
      dsimp only
      rw [withAuth, checkToken_of_badToken htoken hbad]
      exact ⟨fun _ => nofun, fun _ _ => rfl⟩

/-- The web interface is guarded exactly when it has a token. -/
lemma guardsWeb_iff {l : Listener} :
    GuardsWeb l ↔ (l.phase = .listening → l.cfg.authToken ≠ "") := by
  constructor
  · intro h hlistening hempty
    let req : Request := .plain "GET" "/api/health" [] (by decide)
    refine (h hlistening req (.inl rfl)).1 ?_
    have hroute : serveMux webRoutes req = .handler .proxy := by decide
    rw [serveWeb, hroute]
    exact checkToken_of_no_token hempty req _
  · intro h hlistening req hbad
    have htoken := h hlistening
    rw [serveWeb]
    cases hroute : serveMux webRoutes req with
    | status code => exact ⟨nofun, nofun⟩
    | redirect place => exact ⟨nofun, nofun⟩
    | handler e =>
      cases e with
      | proxy =>
        dsimp only
        rw [withAuthHandler, checkToken_of_badToken htoken hbad]
        exact ⟨nofun, fun _ => rfl⟩
      | page => exact ⟨nofun, nofun⟩

end Arcsent.Servers
