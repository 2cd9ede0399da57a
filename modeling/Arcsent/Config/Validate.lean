/-
# Checking a configuration

`Validate` collects a message for every check that fails, in the order of the source, and
returns them as one error.  `validateErrors` is that list; a configuration is accepted when
it is empty.
-/
import Arcsent.Config.Types
import Arcsent.Go.Case

namespace Arcsent

open Go Signatures

namespace Config

/-- A message, when a check fails. -/
def failing (bad : Bool) (message : String) : List String := if bad then [message] else []

@[simp] lemma failing_eq_nil {bad : Bool} {message : String} :
    failing bad message = [] ↔ bad = false := by
  cases bad <;> simp [failing]

/-- A duration that is written down but cannot be parsed. -/
def badDuration (s : String) : Bool := s ≠ "" && (parseDuration s).isNone

/-- The function `filepath.IsAbs`. -/
def isAbs (path : String) : Bool := hasPrefix path "/"

/-- A path that has to be there and to be absolute. -/
def absErrors (field path required absolute : String) : List String :=
  if path = "" then [field ++ required] else failing (!isAbs path) (field ++ absolute)

/-- The message of an element of a list. -/
def indexed (field : String) (i : ℕ) (rest : String) : String :=
  field ++ "[" ++ toString i ++ "]" ++ rest

end Config

open Config

def DaemonConfig.errors (d : DaemonConfig) (euid : ℕ) : List String :=
  failing (!(["debug", "info", "warn", "error"].contains (toLower d.logLevel)))
    "daemon.log_level must be one of: debug, info, warn, error" ++
  failing (!(["json", "text"].contains (toLower d.logFormat)))
    "daemon.log_format must be one of: json, text" ++
  failing (badDuration d.shutdownTimeout)
    "daemon.shutdown_timeout must be a valid duration (e.g. 10s)" ++
  failing (d.dropPrivileges && euid = 0 && (d.user = "" || d.group = ""))
    "daemon.user and daemon.group are required when drop_privileges is true"

def StorageConfig.errors (s : StorageConfig) : List String :=
  absErrors "storage.db_path" s.dbPath " is required" " must be an absolute path" ++
  failing (s.retentionDays < 0) "storage.retention_days must be >= 0" ++
  if s.encryptionKeyBase64 = "" then []
  else
    match base64Decode s.encryptionKeyBase64 with
    | none => ["storage.encryption_key_base64 must be valid base64"]
    | some decoded =>
      failing (decoded.length ≠ 32) "storage.encryption_key_base64 must decode to 32 bytes"

/-- A source that is neither built in nor custom. -/
def unknownSource (src : String) : Bool := !isKnownSource src && !hasPrefix src "custom:"

def SignaturesConfig.errors (s : SignaturesConfig) : List String :=
  (if s.enabled then
    (if s.updateInterval = "" then ["signatures.update_interval is required when enabled"]
      else failing (parseDuration s.updateInterval).isNone
        "signatures.update_interval must be a valid duration (e.g. 24h)") ++
    failing (s.sources = []) "signatures.sources must include at least one source when enabled" ++
    s.sources.flatMap (fun src =>
      failing (unknownSource src) ("signatures.sources contains unknown source: " ++ src)) ++
    s.sourceURLs.entries.flatMap (fun (src, url) =>
      failing (unknownSource src) ("signatures.source_urls contains unknown source: " ++ src) ++
      failing (trimSpace url = "") ("signatures.source_urls contains empty URL for " ++ src)) ++
    absErrors "signatures.cache_dir" s.cacheDir " is required when enabled"
      " must be an absolute path"
  else []) ++
  failing (s.airgapImportPath ≠ "" && !isAbs s.airgapImportPath)
    "signatures.airgap_import_path must be an absolute path if set"

/-- The checks on the settings of a server, `field` being `api` or `web_ui`. -/
def ServerConfig.errors (s : ServerConfig) (field : String) : List String :=
  failing (s.enabled && s.bindAddr = "") (field ++ ".bind_addr is required when enabled") ++
  failing (s.enabled && s.authToken = "") (field ++ ".auth_token is required when enabled")

def ScannerConfig.errors (i : ℕ) (sc : ScannerConfig) : List String :=
  failing (sc.name = "") (indexed "scanners" i ".name is required") ++
  failing (sc.plugin = "") (indexed "scanners" i ".plugin is required") ++
  failing (sc.enabled && sc.schedule = "")
    (indexed "scanners" i ".schedule is required when enabled") ++
  failing (badDuration sc.timeout) (indexed "scanners" i ".timeout must be a valid duration") ++
  failing (badDuration sc.retryBackoff)
    (indexed "scanners" i ".retry_backoff must be a valid duration") ++
  failing (badDuration sc.retryMax) (indexed "scanners" i ".retry_max must be a valid duration")

def RuleConfig.errors (i : ℕ) (rule : RuleConfig) : List String :=
  failing (rule.name = "") (indexed "detection.rules" i ".name is required") ++
  failing (rule.scanner = "") (indexed "detection.rules" i ".scanner is required") ++
  failing (rule.metric = "") (indexed "detection.rules" i ".metric is required") ++
  failing (!(["gt", "gte", "lt", "lte", "eq"].contains (toLower rule.operator)))
    (indexed "detection.rules" i ".operator must be one of gt,gte,lt,lte,eq")

def DetectionConfig.errors (d : DetectionConfig) : List String :=
  failing (badDuration d.correlationWindow)
    "detection.correlation_window must be a valid duration" ++
  failing (badDuration d.correlationCooldown)
    "detection.correlation_cooldown must be a valid duration" ++
  failing (d.correlationMinScanners < 1) "detection.correlation_min_scanners must be >= 1" ++
  failing (d.driftConsecutive < 1) "detection.drift_consecutive must be >= 1" ++
  (d.rules.mapIdx RuleConfig.errors).flatten

def AlertingConfig.errors (a : AlertingConfig) : List String :=
  failing (badDuration a.dedupWindow) "alerting.dedup_window must be a valid duration" ++
  failing (badDuration a.retryBackoff) "alerting.retry_backoff must be a valid duration" ++
  failing (a.retryMax < 0) "alerting.retry_max must be >= 0" ++
  (a.channels.mapIdx fun i ch =>
    failing (ch.type = "") (indexed "alerting.channels" i ".type is required")).flatten

def SecurityConfig.errors (s : SecurityConfig) : List String :=
  failing (s.selfIntegrity && s.expectedSHA256 = "")
    "security.expected_sha256 is required when self_integrity is enabled"

namespace Config

/-- The messages of all checks that fail. -/
def validateErrors (euid : ℕ) (c : Config) : List String :=
  c.daemon.errors euid ++ c.storage.errors ++ c.signatures.errors ++ c.webUI.errors "web_ui" ++
    c.api.errors "api" ++ (c.scanners.mapIdx ScannerConfig.errors).flatten ++
    c.detection.errors ++ c.alerting.errors ++ c.security.errors

/-- The method `Validate`, run by the user `euid`. -/
def validate (euid : ℕ) (c : Config) : Except String Unit :=
  match c.validateErrors euid with
  | [] => .ok ()
  | errs => .error (join "; " errs)

lemma validate_eq_ok {euid : ℕ} {c : Config} :
    c.validate euid = .ok () ↔ c.validateErrors euid = [] := by
  rw [validate]
  split <;> simp_all

/-- The defaults are accepted, whoever runs the daemon. -/
theorem validate_default (euid : ℕ) : validate euid default = .ok () := by
  rw [validate_eq_ok]
  have hdaemon : default.daemon.errors euid = [] := by
    simp [DaemonConfig.errors, default]
    decide
  have hrest : default.storage.errors ++ default.signatures.errors ++
      default.webUI.errors "web_ui" ++ default.api.errors "api" ++
      (default.scanners.mapIdx ScannerConfig.errors).flatten ++ default.detection.errors ++
      default.alerting.errors ++ default.security.errors = [] := by decide
  simp only [validateErrors, hdaemon, List.nil_append]
  exact hrest

end Config

/-- An enabled server has a token. -/
lemma ServerConfig.token_ne_empty {s : ServerConfig} {field : String} (h : s.errors field = [])
    (he : s.enabled = true) : s.authToken ≠ "" := by
  rw [errors, List.append_eq_nil_iff, failing_eq_nil, failing_eq_nil] at h
  simpa [he] using h.2

lemma Config.api_token_ne_empty {euid : ℕ} {c : Config} (h : c.validate euid = .ok ())
    (he : c.api.enabled = true) : c.api.authToken ≠ "" := by
  rw [validate_eq_ok] at h
  simp only [validateErrors, List.append_eq_nil_iff] at h
  exact ServerConfig.token_ne_empty h.1.1.1.1.2 he

lemma Config.webUI_token_ne_empty {euid : ℕ} {c : Config} (h : c.validate euid = .ok ())
    (he : c.webUI.enabled = true) : c.webUI.authToken ≠ "" := by
  rw [validate_eq_ok] at h
  simp only [validateErrors, List.append_eq_nil_iff] at h
  exact ServerConfig.token_ne_empty h.1.1.1.1.1.2 he

end Arcsent
