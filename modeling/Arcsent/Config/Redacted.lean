/-
# The configuration without its secrets

`Redacted` makes the copy of the configuration that the daemon logs when it starts.  It
covers the two tokens and the URLs of the signature sources, but neither the key of the
storage nor the passwords of the mail channels.
-/
import Arcsent.Config.Validate
import Arcsent.Logging.Logger

namespace Arcsent

open Go

/-! ## The startup line -/

/-- A token that is set is covered. -/
def ServerConfig.redacted (s : ServerConfig) : ServerConfig :=
  if s.authToken ≠ "" then { s with authToken := "REDACTED" } else s

/-- The keys of a map with all values covered. -/
def redactedValues (m : StringMap String) : StringMap String where
  entries := m.entries.map fun (key, _) => (key, "REDACTED")
  nodup := by
    rw [List.map_map]
    exact m.nodup

/-- The method `Redacted`. -/
def Config.redacted (c : Config) : Config :=
  { c with
    webUI := c.webUI.redacted
    api := c.api.redacted
    signatures := { c.signatures with sourceURLs := redactedValues c.signatures.sourceURLs } }

/-- The line that `main` logs with the configuration it has loaded. -/
def startupLine (enc : Logging.Encodings Config) (ts again : String) (c : Config) : List Char :=
  Logging.write enc c.daemon.logFormat
    ⟨ts, again, "info", "arcsent starting", [⟨"config", c.redacted⟩]⟩

/-! ## What the line hides -/

/-- Two values of a secret field, neither of them empty unless both are. -/
def SecretAlike (secret secret' : String) : Prop := secret = "" ↔ secret' = ""

/-- Two configurations that differ only in the values of secret fields that are not empty:
the tokens, the key of the storage, the URLs of the sources and the passwords of channels. -/
structure SameButSecrets (c c' : Config) : Prop where
  daemon : c'.daemon = c.daemon
  storage : { c'.storage with encryptionKeyBase64 := c.storage.encryptionKeyBase64 } = c.storage
  key : SecretAlike c.storage.encryptionKeyBase64 c'.storage.encryptionKeyBase64
  signatures : { c'.signatures with sourceURLs := c.signatures.sourceURLs } = c.signatures
  urls : List.Forall₂ (fun e e' => e'.1 = e.1 ∧ SecretAlike e.2 e'.2)
    c.signatures.sourceURLs.entries c'.signatures.sourceURLs.entries
  api : { c'.api with authToken := c.api.authToken } = c.api
  apiToken : SecretAlike c.api.authToken c'.api.authToken
  webUI : { c'.webUI with authToken := c.webUI.authToken } = c.webUI
  webToken : SecretAlike c.webUI.authToken c'.webUI.authToken
  scanners : c'.scanners = c.scanners
  detection : c'.detection = c.detection
  alerting : { c'.alerting with channels := c.alerting.channels } = c.alerting
  channels : List.Forall₂
    (fun ch ch' : AlertChannelConfig =>
      { ch' with smtpPass := ch.smtpPass } = ch ∧ SecretAlike ch.smtpPass ch'.smtpPass)
    c.alerting.channels c'.alerting.channels
  security : c'.security = c.security

/-- The two configurations have the same copy, and the daemon logs the same line for them
at the same time, whatever the encodings of the standard library. -/
structure Hidden (c c' : Config) : Prop where
  redacted : c'.redacted = c.redacted
  line : ∀ (enc : Logging.Encodings Config) (ts again : String),
    startupLine enc ts again c' = startupLine enc ts again c

/-- The two configurations have the same key for the storage and the same passwords. -/
structure SameUncovered (c c' : Config) : Prop where
  key : c'.storage.encryptionKeyBase64 = c.storage.encryptionKeyBase64
  passwords : c'.alerting.channels.map AlertChannelConfig.smtpPass
    = c.alerting.channels.map AlertChannelConfig.smtpPass

lemma redacted_server_eq {s s' : ServerConfig}
    (hrest : { s' with authToken := s.authToken } = s)
    (htoken : SecretAlike s.authToken s'.authToken) : s'.redacted = s.redacted := by
  obtain ⟨enabled, bindAddr, readOnly, token⟩ := s
  obtain ⟨enabled', bindAddr', readOnly', token'⟩ := s'
  obtain ⟨rfl, rfl, rfl⟩ : enabled' = enabled ∧ bindAddr' = bindAddr ∧ readOnly' = readOnly := by
    simpa using hrest
  rw [ServerConfig.redacted, ServerConfig.redacted]
  by_cases hempty : token = ""
  · have hempty' : token' = "" := htoken.mp hempty
    simp [hempty, hempty']
  · have hempty' : token' ≠ "" := fun h => hempty (htoken.mpr h)
    simp [hempty, hempty']

/-- Of the entries only the keys are left. -/
lemma redacted_entries_eq {es es' : List (String × String)}
    (h : List.Forall₂ (fun e e' => e'.1 = e.1 ∧ SecretAlike e.2 e'.2) es es') :
    es'.map (fun e => (e.1, "REDACTED")) = es.map fun e => (e.1, "REDACTED") := by
  induction h with
  | nil => rfl
  | cons he _ ih => rw [List.map_cons, List.map_cons, ih, he.1]

lemma redactedValues_eq {m m' : StringMap String}
    (h : List.Forall₂ (fun e e' => e'.1 = e.1 ∧ SecretAlike e.2 e'.2) m.entries m'.entries) :
    redactedValues m' = redactedValues m := by
  simpa [redactedValues] using redacted_entries_eq h

/-- Channels with the same settings and the same passwords are the same. -/
lemma channels_eq {chs chs' : List AlertChannelConfig}
    (h : List.Forall₂
      (fun ch ch' : AlertChannelConfig =>
        { ch' with smtpPass := ch.smtpPass } = ch ∧ SecretAlike ch.smtpPass ch'.smtpPass)
      chs chs')
    (hpass : chs'.map AlertChannelConfig.smtpPass = chs.map AlertChannelConfig.smtpPass) :
    chs' = chs := by
  induction h with
  | nil => rfl
  | cons hch _ ih =>
    obtain ⟨hhead, htail⟩ := List.cons.inj hpass
    rw [ih htail, ← hch.1, ← hhead]

/-- **The startup line hides the secrets** of configurations that differ in nothing else
exactly when they do not differ in the key of the storage or a password of a channel. -/
theorem hidden_iff_sameUncovered {c c' : Config} (h : SameButSecrets c c') :
    Hidden c c' ↔ SameUncovered c c' := by
  constructor
  · rintro ⟨hredacted, -⟩
    -- the copy has the storage and the alerting as they are
    have hstorage : c'.redacted.storage = c.redacted.storage := by rw [hredacted]
    have halerting : c'.redacted.alerting = c.redacted.alerting := by rw [hredacted]
    exact ⟨congrArg StorageConfig.encryptionKeyBase64 hstorage,
      congrArg (fun a => a.channels.map AlertChannelConfig.smtpPass) halerting⟩
  · rintro ⟨hkey, hpass⟩
    have hstorage : c'.storage = c.storage := by
      rw [← h.storage, ← hkey]
    have halerting : c'.alerting = c.alerting := by
      rw [← h.alerting, ← channels_eq h.channels hpass]
    have hsignatures : { c'.signatures with sourceURLs := redactedValues c'.signatures.sourceURLs }
        = { c.signatures with sourceURLs := redactedValues c.signatures.sourceURLs } := by
      rw [redactedValues_eq h.urls, ← h.signatures]
    have hredacted : c'.redacted = c.redacted := by
      simp only [Config.redacted, h.daemon, hstorage, hsignatures, h.scanners, h.detection,
        halerting, h.security, redacted_server_eq h.api h.apiToken,
        redacted_server_eq h.webUI h.webToken]
    refine ⟨hredacted, fun enc ts again => ?_⟩
    rw [startupLine, startupLine, hredacted, h.daemon]

/-- The default configuration with a token for the API and a key for the storage. -/
def secretConfig (token key : String) : Config :=
  { Config.default with
    api := { Config.default.api with enabled := true, authToken := token }
    storage := { Config.default.storage with encryptionKeyBase64 := key } }

lemma sameButSecrets_secretConfig {token token' key key' : String}
    (htoken : SecretAlike token token') (hkey : SecretAlike key key') :
    SameButSecrets (secretConfig token key) (secretConfig token' key') where
  daemon := rfl
  storage := rfl
  key := hkey
  signatures := rfl
  urls := .nil
  api := rfl
  apiToken := htoken
  webUI := rfl
  webToken := Iff.rfl
  scanners := rfl
  detection := rfl
  alerting := rfl
  channels := .cons ⟨rfl, Iff.rfl⟩ .nil
  security := rfl

/-- The token of the API is hidden. -/
theorem hidden_token : Hidden (secretConfig "left" "") (secretConfig "right" "") :=
  (hidden_iff_sameUncovered (sameButSecrets_secretConfig (by simp [SecretAlike]) Iff.rfl)).mpr
    ⟨rfl, rfl⟩

def leftKey : String := "AAAAAAAAAAAAAAAAAAAAAAAAAAAAAAAAAAAAAAAAAAA="

def rightKey : String := "BAAAAAAAAAAAAAAAAAAAAAAAAAAAAAAAAAAAAAAAAAA="

/-- The key of the storage is not. -/
theorem storage_key_shown :
    ¬ ∀ c c' : Config, c.validate 1000 = .ok () → c'.validate 1000 = .ok () →
      SameButSecrets c c' → c'.redacted = c.redacted := by
  intro hclaim
  have hsame := hclaim (secretConfig "token" leftKey) (secretConfig "token" rightKey)
    (by decide +kernel) (by decide +kernel)
    (sameButSecrets_secretConfig Iff.rfl (by simp [SecretAlike, leftKey, rightKey]))
  have hstorage : (secretConfig "token" rightKey).redacted.storage
      = (secretConfig "token" leftKey).redacted.storage := by rw [hsame]
  exact absurd (congrArg StorageConfig.encryptionKeyBase64 hstorage) (by decide)

end Arcsent
