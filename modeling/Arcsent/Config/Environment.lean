/-
# The configuration that is loaded

`Load` of `internal/config/config.go`: a file is read over the defaults, a few settings are
taken from the environment, and the result is checked.  The environment has the last word on
whether the servers are enabled and on their tokens; a value that is no boolean and a token
that is empty are passed over.
-/
import Arcsent.Config.Validate
import Arcsent.Go.Flag

namespace Arcsent

open Go

namespace Config

/-- The variables of a process and their values, as far as they are texts. -/
abbrev LookupEnv := String → Option String

/-- A setting that a variable turns on or off. -/
def enabledOr (value : Option String) (enabled : Bool) : Bool :=
  (value.bind Flag.parseBool).getD enabled

/-- A token that a variable replaces. -/
def tokenOr (value : Option String) (token : String) : String :=
  match value with
  | some v => if v ≠ "" then v else token
  | none => token

end Config

open Config

/-- The settings of a server, with two variables taken over. -/
def ServerConfig.overridden (enabled token : Option String) (s : ServerConfig) : ServerConfig :=
  { s with enabled := enabledOr enabled s.enabled, authToken := tokenOr token s.authToken }

namespace Config

/-- The function `applyEnvOverrides`. -/
def applyEnvOverrides (lookupEnv : LookupEnv) (cfg : Config) : Config :=
  { cfg with
    webUI := cfg.webUI.overridden (lookupEnv "ARCSENT_WEB_UI_ENABLED")
      (lookupEnv "ARCSENT_WEB_UI_TOKEN")
    signatures := { cfg.signatures with
      enabled := enabledOr (lookupEnv "ARCSENT_SIGNATURES_ENABLED") cfg.signatures.enabled }
    api := cfg.api.overridden (lookupEnv "ARCSENT_API_ENABLED") (lookupEnv "ARCSENT_API_TOKEN") }

/-- The constant `DefaultConfigPath`. -/
def defaultConfigPath : String := "configs/config.json"

/-- The function `Load`, run by the user `euid`; `unmarshal` reads a file over a configuration,
as `json.Unmarshal` does. -/
def load (euid : ℕ) (lookupEnv : LookupEnv) (readFile : String → Except String Bytes)
    (unmarshal : Bytes → Config → Except String Config) (path : String) :
    Except String Config :=
  match readFile (if path = "" then defaultConfigPath else path) with
  | .error err => .error ("read config: " ++ err)
  | .ok raw =>
    match unmarshal raw Config.default with
    | .error err => .error ("parse config: " ++ err)
    | .ok cfg =>
      match (applyEnvOverrides lookupEnv cfg).validate euid with
      | .error err => .error err
      | .ok () => .ok (applyEnvOverrides lookupEnv cfg)

/-- A configuration that some file makes `Load` return. -/
def Loadable (euid : ℕ) (lookupEnv : LookupEnv) (c : Config) : Prop :=
  ∃ readFile unmarshal path, load euid lookupEnv readFile unmarshal path = .ok c

/-- What is loaded is accepted, and is what some configuration becomes in the environment. -/
lemma loadable_iff {euid : ℕ} {lookupEnv : LookupEnv} {c : Config} :
    Loadable euid lookupEnv c ↔
      c.validate euid = .ok () ∧ ∃ cfg, c = applyEnvOverrides lookupEnv cfg := by
  constructor
  · rintro ⟨readFile, unmarshal, path, h⟩
    rw [load] at h
    split at h
    · cases h
    · split at h
      · cases h
      · next cfg _ =>
        split at h
        · cases h
        · next hvalid =>
          obtain rfl := Except.ok.inj h
          exact ⟨hvalid, cfg, rfl⟩
  · rintro ⟨hvalid, cfg, rfl⟩
    refine ⟨fun _ => .ok [], fun _ _ => .ok cfg, "", ?_⟩
    rw [load]
    dsimp only
    rw [hvalid]

end Config

/-! ## The servers in an environment -/

section Server

variable {enabled token : Option String} {s : ServerConfig}

/-- A token in the environment is the token. -/
lemma token_of_overridden (h : token.getD "" ≠ "") :
    (s.overridden enabled token).authToken = token.getD "" := by
  cases token with
  | none => exact absurd rfl h
  | some v => exact if_pos h

/-- The environment decides whether a server is enabled, if it says so. -/
lemma enabled_of_overridden {b : Bool} (h : enabled.bind Flag.parseBool = some b) :
    (s.overridden enabled token).enabled = b := by
  rw [ServerConfig.overridden, enabledOr, h, Option.getD_some]

lemma enabled_overridden_of_none (h : enabled.bind Flag.parseBool = none) :
    (s.overridden enabled token).enabled = s.enabled := by
  rw [ServerConfig.overridden, enabledOr, h, Option.getD_none]

lemma token_overridden_of_empty (h : token.getD "" = "") :
    (s.overridden enabled token).authToken = s.authToken := by
  cases token with
  | none => rfl
  | some v => exact if_neg (not_not.mpr h)

end Server

end Arcsent
