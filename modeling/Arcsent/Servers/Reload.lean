/-
# The token across reloads

The reload closure of `internal/daemon/runner.go` hands the new configuration to both
servers, one after the other.  `Validate` asks for the token of an enabled server only, and
a server that listens goes on listening when it is disabled by a reload.
-/
import Arcsent.Lib.Runs
import Arcsent.Servers.Listener

namespace Arcsent.Servers

open Arcsent.Go Arcsent.Lib

/-- The servers of the daemon, with the settings that a reload has yet to hand to the web
interface. -/
structure Daemon where
  api : Listener
  web : Listener
  pending : Option WebUIConfig

/-- A step of the daemon.  The goroutines that start the servers may come to run at any
time. -/
inductive Event
  | startAPI
  | startWeb
  | apiFails
  | webFails
  /-- A reload reads a configuration and hands it to the API server. -/
  | reload (c : Config)
  /-- It hands it to the web interface. -/
  | reloadWeb
  | shutdown

/-- The daemon with a configuration, before its servers have been started. -/
def Daemon.init (c : Config) : Daemon := ⟨.new c.api, .new c.webUI, none⟩

/-- A step of the daemon, run by the user `euid`.  A configuration that is not accepted is
dropped, and a reload waits for the one before it. -/
def step (euid : ℕ) (d : Daemon) : Event → Option Daemon
  | .startAPI => if d.api.phase = .created then some { d with api := d.api.start } else none
  | .startWeb => if d.web.phase = .created then some { d with web := d.web.start } else none
  | .apiFails => some { d with api := d.api.shutdown }
  | .webFails => some { d with web := d.web.shutdown }
  | .reload c =>
    match d.pending with
    | some _ => none
    | none =>
      match c.validate euid with
      | .error _ => some d
      | .ok () => some { d with api := d.api.updateConfig c.api, pending := some c.webUI }
  | .reloadWeb => d.pending.map fun cfg =>
      { d with web := d.web.updateConfig cfg, pending := none }
  | .shutdown => some { d with api := d.api.shutdown, web := d.web.shutdown }

/-- Both servers are guarded. -/
def Guarded (d : Daemon) : Prop := GuardsAPI d.api ∧ GuardsWeb d.web

/-- A server that listens is handed settings with a token only. -/
def KeepsToken (euid : ℕ) (d : Daemon) : Event → Prop
  | .reload c => d.pending = none → c.validate euid = .ok () → d.api.phase = .listening →
      c.api.authToken ≠ ""
  | .reloadWeb => ∀ cfg ∈ d.pending, d.web.phase = .listening → cfg.authToken ≠ ""
  | _ => True

instance (euid : ℕ) (d : Daemon) : ∀ e, Decidable (KeepsToken euid d e)
  | .reload c => inferInstanceAs (Decidable (d.pending = none → c.validate euid = .ok () →
      d.api.phase = .listening → c.api.authToken ≠ ""))
  | .reloadWeb => inferInstanceAs (Decidable (∀ cfg ∈ d.pending, _))
  | .startAPI => isTrue trivial
  | .startWeb => isTrue trivial
  | .apiFails => isTrue trivial
  | .webFails => isTrue trivial
  | .shutdown => isTrue trivial

/-! ## The settings that have been accepted -/

/-- The settings are such as `Validate` accepts them. -/
def Accepted (cfg : ServerConfig) : Prop := cfg.enabled = true → cfg.authToken ≠ ""

/-- All settings in use have been accepted. -/
structure Settled (d : Daemon) : Prop where
  api : Accepted d.api.cfg
  web : Accepted d.web.cfg
  pending : ∀ cfg ∈ d.pending, Accepted cfg

lemma settled_init {euid : ℕ} {c : Config} (h : c.validate euid = .ok ()) :
    Settled (.init c) :=
  ⟨Config.api_token_ne_empty h, Config.webUI_token_ne_empty h, fun _ hcfg => by cases hcfg⟩

variable {euid : ℕ} {d t : Daemon}

/-- A reload hands over a configuration that is accepted, and drops any other. -/
lemma step_reload {c : Config} (hstep : step euid d (.reload c) = some t) :
    d.pending = none ∧ (c.validate euid ≠ .ok () ∧ t = d ∨ c.validate euid = .ok () ∧
      t = { d with api := d.api.updateConfig c.api, pending := some c.webUI }) := by
  rw [step] at hstep
  split at hstep
  · cases hstep
  · next hpending =>
    refine ⟨hpending, ?_⟩
    split at hstep
    · next err herr =>
      exact .inl ⟨by rw [herr]; exact nofun, (Option.some.inj hstep).symm⟩
    · next hok => exact .inr ⟨hok, (Option.some.inj hstep).symm⟩

lemma settled_step {e : Event} (h : Settled d) (hstep : step euid d e = some t) : Settled t := by
  cases e with
  | startAPI =>
    obtain ⟨-, hsome⟩ := Option.ite_none_right_eq_some.mp hstep
    obtain rfl := Option.some.inj hsome
    exact ⟨h.api, h.web, h.pending⟩
  | startWeb =>
    obtain ⟨-, hsome⟩ := Option.ite_none_right_eq_some.mp hstep
    obtain rfl := Option.some.inj hsome
    exact ⟨h.api, h.web, h.pending⟩
  | reload c =>
    obtain ⟨-, ⟨-, rfl⟩ | ⟨hok, rfl⟩⟩ := step_reload hstep
    · exact h
    · refine ⟨Config.api_token_ne_empty hok, h.web, fun cfg hcfg => ?_⟩
      obtain rfl := Option.some.inj hcfg
      exact Config.webUI_token_ne_empty hok
  | reloadWeb =>
    obtain ⟨cfg, hcfg, rfl⟩ := Option.map_eq_some_iff.mp hstep
    exact ⟨h.api, h.pending cfg hcfg, fun _ hnone => by cases hnone⟩
  | apiFails | webFails | shutdown =>
    obtain rfl := Option.some.inj hstep
    exact ⟨h.api, h.web, h.pending⟩

/-! ## What a step does to the guards -/

lemma guarded_iff : Guarded d ↔ (d.api.phase = .listening → d.api.cfg.authToken ≠ "") ∧
    (d.web.phase = .listening → d.web.cfg.authToken ≠ "") :=
  and_congr guardsAPI_iff guardsWeb_iff

/-- A server that starts has settings that were accepted, so it has a token if it listens. -/
lemma token_of_start {l : Listener} (h : Accepted l.cfg) (hlistening : l.start.phase = .listening) :
    l.start.cfg.authToken ≠ "" := by
  rw [Listener.start] at hlistening
  refine h ?_
  by_contra hoff
  simp [hoff] at hlistening

lemma not_listening_of_shutdown (l : Listener) : l.shutdown.phase ≠ .listening := by
  rw [Listener.shutdown]
  split_ifs with h
  · exact nofun
  · exact h

/-- A step keeps the servers guarded exactly when it meets the condition. -/
lemma guarded_step_iff {e : Event} (h : Settled d) (hguarded : Guarded d)
    (hstep : step euid d e = some t) : Guarded t ↔ KeepsToken euid d e := by
  obtain ⟨hapi, hweb⟩ := guarded_iff.mp hguarded
  rw [guarded_iff]
  cases e with
  | startAPI =>
    obtain ⟨-, hsome⟩ := Option.ite_none_right_eq_some.mp hstep
    obtain rfl := Option.some.inj hsome
    exact ⟨fun _ => trivial, fun _ => ⟨token_of_start h.api, hweb⟩⟩
  | startWeb =>
    obtain ⟨-, hsome⟩ := Option.ite_none_right_eq_some.mp hstep
    obtain rfl := Option.some.inj hsome
    exact ⟨fun _ => trivial, fun _ => ⟨hapi, token_of_start h.web⟩⟩
  | apiFails =>
    obtain rfl := Option.some.inj hstep
    exact ⟨fun _ => trivial, fun _ => ⟨fun hl => absurd hl (not_listening_of_shutdown _), hweb⟩⟩
  | webFails =>
    obtain rfl := Option.some.inj hstep
    exact ⟨fun _ => trivial, fun _ => ⟨hapi, fun hl => absurd hl (not_listening_of_shutdown _)⟩⟩
  | shutdown =>
    obtain rfl := Option.some.inj hstep
    exact ⟨fun _ => trivial, fun _ => ⟨fun hl => absurd hl (not_listening_of_shutdown _),
      fun hl => absurd hl (not_listening_of_shutdown _)⟩⟩
  | reload c =>
    obtain ⟨hpending, ⟨hbad, rfl⟩ | ⟨hok, rfl⟩⟩ := step_reload hstep
    · exact ⟨fun _ _ hok => absurd hok hbad, fun _ => ⟨hapi, hweb⟩⟩
    · exact ⟨fun hboth _ _ => hboth.1, fun hkeeps => ⟨hkeeps hpending hok, hweb⟩⟩
  | reloadWeb =>
    obtain ⟨cfg, hcfg, rfl⟩ := Option.map_eq_some_iff.mp hstep
    constructor
    · intro hboth cfg' hcfg'
      obtain rfl : cfg = cfg' := Option.some.inj (hcfg.symm.trans hcfg')
      exact hboth.2
    · exact fun hkeeps => ⟨hapi, hkeeps cfg hcfg⟩

/-! ## All sequences of reloads -/

/-- **The servers are guarded** in every state of a run that starts with an accepted
configuration exactly when every reload that finds a server listening hands it settings with
a token. -/
theorem guarded_iff_keepsToken (euid : ℕ) (c : Config) (hvalid : c.validate euid = .ok ())
    (es : List Event) :
    Always (step euid) Guarded (.init c) es ↔ Meets (step euid) (KeepsToken euid) (.init c) es := by
  refine always_iff_meets (I := Settled) (fun _ _ _ h _ hstep _ => settled_step h hstep)
    (fun _ _ _ h hP hstep => guarded_step_iff h hP hstep) ?_ (settled_init hvalid) ?_ es
  · intro d e _ hdead
    cases e with
    | reload c =>
      intro hpending hok
      rw [step, hpending] at hdead
      dsimp only at hdead
      rw [hok] at hdead
      cases hdead
    | reloadWeb =>
      intro cfg hcfg
      rw [step, Option.mem_def.mp hcfg] at hdead
      cases hdead
    | _ => trivial
  · rw [guarded_iff]
    exact ⟨nofun, nofun⟩

/-! ### A server that is disabled while it listens -/

/-- The default configuration with the API enabled. -/
def withAPI : Config :=
  { Config.default with
    api := { Config.default.api with enabled := true, authToken := "change-me" } }

/-- A reload that changes the token. -/
def newToken : Config := { withAPI with api := { withAPI.api with authToken := "changed" } }

/-- The API is guarded across a reload that gives it another token. -/
theorem guarded_newToken : Always (step 1000) Guarded (.init withAPI)
    [.startAPI, .reload newToken, .reloadWeb] :=
  (guarded_iff_keepsToken 1000 withAPI (by decide +kernel) _).mpr (by decide +kernel)

/-- After a reload with the default configuration, which disables the API and has no token,
the API listens on and answers everyone. -/
theorem unguarded_when_disabled :
    ¬ ∀ (euid : ℕ) (c : Config) (es : List Event), c.validate euid = .ok () →
      Always (step euid) Guarded (.init c) es := by
  intro hclaim
  have hrun : ∃ d ∈ run (step 1000) (.init withAPI) [.startAPI, .reload Config.default],
      d.api.phase = .listening ∧ d.api.cfg.authToken = "" := by decide +kernel
  obtain ⟨d, hd, hlistening, hempty⟩ := hrun
  have hguarded := (hclaim 1000 withAPI _ (by decide +kernel)).last hd
  exact (guarded_iff.mp hguarded).1 hlistening hempty

end Arcsent.Servers
