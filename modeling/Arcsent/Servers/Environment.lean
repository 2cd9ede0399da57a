/-
# Tokens that come from the environment

A reload may hand a server that listens settings without a token, if they also disable it.
The environment is the same for every reload, though, and it goes before the file: a token
that stands there is never lost, and a server that is turned on or off there is so in every
configuration.  These are the only environments in which no reload can take a token away.
-/
import Arcsent.Config.Environment
import Arcsent.Servers.Reload

namespace Arcsent.Servers

open Arcsent.Go Arcsent.Lib Arcsent.Config

/-- The environment has a token for a server, or decides whether the server is enabled. -/
def Decides (enabled token : Option String) : Prop :=
  token.getD "" ≠ "" ∨ enabled.bind Flag.parseBool ≠ none

/-- Settings of a server that have been accepted after two variables were taken over. -/
structure Suits (enabled token : Option String) (cfg : ServerConfig) : Prop where
  accepted : Accepted cfg
  token : token.getD "" ≠ "" → cfg.authToken = token.getD ""
  enabled : ∀ b, enabled.bind Flag.parseBool = some b → cfg.enabled = b

/-- A server with such settings, which listens only if the environment does not disable it. -/
structure Held (enabled token : Option String) (l : Listener) : Prop where
  suits : Suits enabled token l.cfg
  started : l.phase = .listening → enabled.bind Flag.parseBool ≠ some false

section Server

variable {enabled token : Option String} {cfg : ServerConfig} {l : Listener}

/-- **A server that listens has a token**, if the environment decides. -/
lemma Held.token_ne_empty (h : Held enabled token l) (hdecides : Decides enabled token)
    (hlistening : l.phase = .listening) : l.cfg.authToken ≠ "" := by
  rcases hdecides with htoken | hsaid
  · rw [h.suits.token htoken]
    exact htoken
  · cases hvalue : enabled.bind Flag.parseBool with
    | none => exact absurd hvalue hsaid
    | some b =>
      cases b with
      | false => exact absurd hvalue (h.started hlistening)
      | true => exact h.suits.accepted (h.suits.enabled true hvalue)

lemma Held.start (h : Held enabled token l) : Held enabled token l.start := by
  refine ⟨h.suits, fun hlistening hoff => ?_⟩
  have hdisabled : l.cfg.enabled = false := h.suits.enabled false hoff
  simp [Listener.start, hdisabled] at hlistening

lemma Held.updateConfig (h : Held enabled token l) (hcfg : Suits enabled token cfg) :
    Held enabled token (l.updateConfig cfg) := ⟨hcfg, h.started⟩

lemma Held.shutdown (h : Held enabled token l) : Held enabled token l.shutdown :=
  ⟨h.suits, fun hlistening => absurd hlistening (not_listening_of_shutdown l)⟩

end Server

section Run

variable {lookupEnv : LookupEnv} {euid : ℕ} {c : Config} {d t : Daemon}

def SuitsAPI (lookupEnv : LookupEnv) : ServerConfig → Prop :=
  Suits (lookupEnv "ARCSENT_API_ENABLED") (lookupEnv "ARCSENT_API_TOKEN")

def SuitsWeb (lookupEnv : LookupEnv) : ServerConfig → Prop :=
  Suits (lookupEnv "ARCSENT_WEB_UI_ENABLED") (lookupEnv "ARCSENT_WEB_UI_TOKEN")

lemma suits_overridden {enabled token : Option String} {s : ServerConfig}
    (h : Accepted (s.overridden enabled token)) :
    Suits enabled token (s.overridden enabled token) :=
  ⟨h, token_of_overridden, fun _ => enabled_of_overridden⟩

lemma suits_of_loadable (h : Loadable euid lookupEnv c) :
    SuitsAPI lookupEnv c.api ∧ SuitsWeb lookupEnv c.webUI := by
  obtain ⟨hvalid, cfg, rfl⟩ := loadable_iff.mp h
  exact ⟨suits_overridden (Config.api_token_ne_empty hvalid),
    suits_overridden (Config.webUI_token_ne_empty hvalid)⟩

/-- What holds of the daemon in an environment. -/
structure InEnvironment (lookupEnv : LookupEnv) (d : Daemon) : Prop where
  api : Held (lookupEnv "ARCSENT_API_ENABLED") (lookupEnv "ARCSENT_API_TOKEN") d.api
  web : Held (lookupEnv "ARCSENT_WEB_UI_ENABLED") (lookupEnv "ARCSENT_WEB_UI_TOKEN") d.web
  pending : ∀ cfg ∈ d.pending, SuitsWeb lookupEnv cfg

/-- The configurations of the reloads are loaded in the environment. -/
def Loads (euid : ℕ) (lookupEnv : LookupEnv) : Event → Prop
  | .reload c => Loadable euid lookupEnv c
  | _ => True

lemma inEnvironment_init (h : Loadable euid lookupEnv c) :
    InEnvironment lookupEnv (.init c) :=
  ⟨⟨(suits_of_loadable h).1, nofun⟩, ⟨(suits_of_loadable h).2, nofun⟩, nofun⟩

/-- A step keeps that. -/
lemma inEnvironment_step {e : Event} (h : InEnvironment lookupEnv d)
    (hloads : Loads euid lookupEnv e) (hstep : step euid d e = some t) :
    InEnvironment lookupEnv t := by
  cases e with
  | startAPI =>
    obtain ⟨-, hsome⟩ := Option.ite_none_right_eq_some.mp hstep
    obtain rfl := Option.some.inj hsome
    exact ⟨h.api.start, h.web, h.pending⟩
  | startWeb =>
    obtain ⟨-, hsome⟩ := Option.ite_none_right_eq_some.mp hstep
    obtain rfl := Option.some.inj hsome
    exact ⟨h.api, h.web.start, h.pending⟩
  | apiFails =>
    obtain rfl := Option.some.inj hstep
    exact ⟨h.api.shutdown, h.web, h.pending⟩
  | webFails =>
    obtain rfl := Option.some.inj hstep
    exact ⟨h.api, h.web.shutdown, h.pending⟩
  | shutdown =>
    obtain rfl := Option.some.inj hstep
    exact ⟨h.api.shutdown, h.web.shutdown, h.pending⟩
  | reload c =>
    obtain ⟨hapi, hweb⟩ := suits_of_loadable hloads
    obtain ⟨-, ⟨-, rfl⟩ | ⟨-, rfl⟩⟩ := step_reload hstep
    · exact h
    · refine ⟨h.api.updateConfig hapi, h.web, fun cfg hcfg => ?_⟩
      obtain rfl := Option.some.inj hcfg
      exact hweb
  | reloadWeb =>
    obtain ⟨cfg, hcfg, rfl⟩ := Option.map_eq_some_iff.mp hstep
    exact ⟨h.api, h.web.updateConfig (h.pending cfg hcfg), nofun⟩

end Run

/-! ## Files that take a token away -/

/-- The default configuration with other settings of the servers. -/
def withServers (api webUI : ServerConfig) : Config :=
  { Config.default with api := api, webUI := webUI }

def enabledServer : ServerConfig :=
  { enabled := true, bindAddr := "127.0.0.1:8788", readOnly := true, authToken := "change-me" }

def disabledServer : ServerConfig :=
  { enabled := false, bindAddr := "127.0.0.1:8788", readOnly := true, authToken := "" }

section Files

variable {lookupEnv : LookupEnv} {euid : ℕ} {enabled token : Option String}
  {api webUI : ServerConfig}

/-- Whatever the environment says of the signatures, the rest of the file is accepted. -/
lemma loadable_file
    (hapi : (applyEnvOverrides lookupEnv (withServers api webUI)).api.errors "api" = [])
    (hweb : (applyEnvOverrides lookupEnv (withServers api webUI)).webUI.errors "web_ui" = []) :
    Loadable euid lookupEnv (applyEnvOverrides lookupEnv (withServers api webUI)) := by
  refine loadable_iff.mpr ⟨validate_eq_ok.mpr ?_, _, rfl⟩
  have hdaemon : Config.default.daemon.errors euid = [] := by
    have hzero : Config.default.daemon.errors 0 = [] := by decide
    exact hzero
  have hsignatures : ∀ b, SignaturesConfig.errors
      { Config.default.signatures with enabled := b } = [] := by decide
  have hstorage : Config.default.storage.errors = [] := by decide
  have hrest : (Config.default.scanners.mapIdx ScannerConfig.errors).flatten ++
      Config.default.detection.errors ++ Config.default.alerting.errors ++
      Config.default.security.errors = [] := by decide
  simp only [List.append_eq_nil_iff] at hrest
  obtain ⟨⟨⟨hscanners, hdetection⟩, halerting⟩, hsecurity⟩ := hrest
  simp only [validateErrors, List.append_eq_nil_iff]
  exact ⟨⟨⟨⟨⟨⟨⟨⟨hdaemon, hstorage⟩, hsignatures _⟩, hweb⟩, hapi⟩, hscanners⟩, hdetection⟩,
    halerting⟩, hsecurity⟩

/-- Settings with a token are accepted in every environment. -/
lemma errors_enabledServer (field : String) :
    (enabledServer.overridden enabled token).errors field = [] := by
  have htoken : (enabledServer.overridden enabled token).authToken ≠ "" := by
    by_cases hempty : token.getD "" = ""
    · rw [token_overridden_of_empty hempty]
      decide
    · rw [token_of_overridden hempty]
      exact hempty
  have hbind : (enabledServer.overridden enabled token).bindAddr ≠ "" := by
    have haddr : enabledServer.bindAddr ≠ "" := by decide
    exact haddr
  simp [ServerConfig.errors, htoken, hbind]

/-- Where the environment decides nothing, the settings are those of the file. -/
lemma overridden_of_not_decides (h : ¬ Decides enabled token) (s : ServerConfig) :
    s.overridden enabled token = s := by
  obtain ⟨htoken, henabled⟩ := not_or.mp h
  have hon : (s.overridden enabled token).enabled = s.enabled :=
    enabled_overridden_of_none (not_not.mp henabled)
  have hkept : (s.overridden enabled token).authToken = s.authToken :=
    token_overridden_of_empty (not_not.mp htoken)
  have hparts : s.overridden enabled token = { s with
    enabled := (s.overridden enabled token).enabled
    authToken := (s.overridden enabled token).authToken } := rfl
  rw [hparts, hon, hkept]

/-- A server that is disabled needs no token. -/
lemma errors_disabledServer (h : ¬ Decides enabled token) (field : String) :
    (disabledServer.overridden enabled token).errors field = [] := by
  rw [overridden_of_not_decides h]
  rfl

/-- A reload can take the token away from the API server, and that server listens on. -/
lemma exists_unguarded_api (euid : ℕ)
    (h : ¬ Decides (lookupEnv "ARCSENT_API_ENABLED") (lookupEnv "ARCSENT_API_TOKEN")) :
    ∃ c c', Loadable euid lookupEnv c ∧ Loadable euid lookupEnv c' ∧
      ¬ Always (step euid) Guarded (.init c) [.startAPI, .reload c'] := by
  have hsame := overridden_of_not_decides h
  have hc : Loadable euid lookupEnv (applyEnvOverrides lookupEnv (withServers enabledServer
      enabledServer)) := loadable_file (errors_enabledServer _) (errors_enabledServer _)
  have hc' : Loadable euid lookupEnv (applyEnvOverrides lookupEnv (withServers disabledServer
      enabledServer)) :=
    loadable_file (errors_disabledServer h _) (errors_enabledServer _)
  refine ⟨_, _, hc, hc', fun halways => ?_⟩
  set c := applyEnvOverrides lookupEnv (withServers enabledServer enabledServer)
  set c' := applyEnvOverrides lookupEnv (withServers disabledServer enabledServer)
  have hapi : c.api = enabledServer := hsame _
  have hapi' : c'.api = disabledServer := hsame _
  have hstart : step euid (.init c) .startAPI =
      some ⟨⟨c.api, .listening⟩, .new c.webUI, none⟩ := by
    simp [step, Daemon.init, Listener.new, Listener.start, hapi, enabledServer]
  have hreload : step euid ⟨⟨c.api, .listening⟩, .new c.webUI, none⟩ (.reload c') =
      some ⟨⟨c'.api, .listening⟩, .new c.webUI, some c'.webUI⟩ := by
    simp [step, (loadable_iff.mp hc').1, Listener.updateConfig]
  have hguarded := (halways.2 _ hstart).2 _ hreload
  refine (guarded_iff.mp hguarded).1 rfl ?_
  dsimp only
  rw [hapi', disabledServer]

/-- The same for the web interface. -/
lemma exists_unguarded_web (euid : ℕ)
    (h : ¬ Decides (lookupEnv "ARCSENT_WEB_UI_ENABLED") (lookupEnv "ARCSENT_WEB_UI_TOKEN")) :
    ∃ c c', Loadable euid lookupEnv c ∧ Loadable euid lookupEnv c' ∧
      ¬ Always (step euid) Guarded (.init c) [.startWeb, .reload c', .reloadWeb] := by
  have hsame := overridden_of_not_decides h
  have hc : Loadable euid lookupEnv (applyEnvOverrides lookupEnv (withServers enabledServer
      enabledServer)) := loadable_file (errors_enabledServer _) (errors_enabledServer _)
  have hc' : Loadable euid lookupEnv (applyEnvOverrides lookupEnv (withServers enabledServer
      disabledServer)) :=
    loadable_file (errors_enabledServer _) (errors_disabledServer h _)
  refine ⟨_, _, hc, hc', fun halways => ?_⟩
  set c := applyEnvOverrides lookupEnv (withServers enabledServer enabledServer)
  set c' := applyEnvOverrides lookupEnv (withServers enabledServer disabledServer)
  have hweb : c.webUI = enabledServer := hsame _
  have hweb' : c'.webUI = disabledServer := hsame _
  have hstart : step euid (.init c) .startWeb =
      some ⟨.new c.api, ⟨c.webUI, .listening⟩, none⟩ := by
    simp [step, Daemon.init, Listener.new, Listener.start, hweb, enabledServer]
  have hreload : step euid ⟨.new c.api, ⟨c.webUI, .listening⟩, none⟩ (.reload c') =
      some ⟨.new c'.api, ⟨c.webUI, .listening⟩, some c'.webUI⟩ := by
    simp [step, (loadable_iff.mp hc').1, Listener.updateConfig, Listener.new]
  have hhanded : step euid ⟨.new c'.api, ⟨c.webUI, .listening⟩, some c'.webUI⟩ .reloadWeb =
      some ⟨.new c'.api, ⟨c'.webUI, .listening⟩, none⟩ := rfl
  have hguarded := ((halways.2 _ hstart).2 _ hreload).2 _ hhanded
  refine (guarded_iff.mp hguarded).2 rfl ?_
  dsimp only
  rw [hweb', disabledServer]

end Files

/-! ## Which environments keep the servers guarded -/

/-- **The environments in which every run is guarded**, whatever the files say and however
often they are loaded again: exactly those that have a token for each server or decide
whether it is enabled. -/
theorem guarded_in_environment_iff (euid : ℕ) (lookupEnv : LookupEnv) :
    (∀ c es, Loadable euid lookupEnv c → (∀ e ∈ es, Loads euid lookupEnv e) →
        Always (step euid) Guarded (.init c) es) ↔
      Decides (lookupEnv "ARCSENT_API_ENABLED") (lookupEnv "ARCSENT_API_TOKEN") ∧
        Decides (lookupEnv "ARCSENT_WEB_UI_ENABLED") (lookupEnv "ARCSENT_WEB_UI_TOKEN") := by
  constructor
  · intro h
    constructor
    · by_contra hnot
      obtain ⟨c, c', hc, hc', hbad⟩ := exists_unguarded_api euid hnot
      exact hbad (h c _ hc (by simpa [Loads] using hc'))
    · by_contra hnot
      obtain ⟨c, c', hc, hc', hbad⟩ := exists_unguarded_web euid hnot
      exact hbad (h c _ hc (by simpa [Loads] using hc'))
  · rintro ⟨hapi, hweb⟩ c es hc hes
    refine always_of_meets (I := InEnvironment lookupEnv) (C := fun _ e => Loads euid lookupEnv e)
      (fun _ _ _ h hloads hstep => inEnvironment_step h hloads hstep) ?_
      (inEnvironment_init hc) (meets_of_forall_mem hes)
    intro d h
    exact guarded_iff.mpr
      ⟨fun hlistening => h.api.token_ne_empty hapi hlistening,
        fun hlistening => h.web.token_ne_empty hweb hlistening⟩

end Arcsent.Servers
