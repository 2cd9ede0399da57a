/-
# The configuration

The records of `internal/config/config.go` and their defaults.
-/
import Arcsent.Go.Parse
import Arcsent.Signatures.Registry

namespace Arcsent

open Go Signatures

structure DaemonConfig where
  logLevel : String
  logFormat : String
  user : String
  group : String
  shutdownTimeout : String
  dropPrivileges : Bool
deriving DecidableEq

structure StorageConfig where
  dbPath : String
  retentionDays : ℤ
  encryptionKeyBase64 : String
deriving DecidableEq

structure SignaturesConfig where
  enabled : Bool
  updateInterval : String
  sources : List String
  cacheDir : String
  airgapImportPath : String
  sourceURLs : StringMap String
deriving DecidableEq

/-- The settings of a server: those of the API and those of the web interface have the
same fields. -/
structure ServerConfig where
  enabled : Bool
  bindAddr : String
  readOnly : Bool
  authToken : String
deriving DecidableEq

abbrev WebUIConfig := ServerConfig
abbrev APIConfig := ServerConfig

/-- A scanner entry.  A missing `config` and an empty one are the same map here, as every
reader treats them. -/
structure ScannerConfig where
  name : String
  plugin : String
  enabled : Bool
  schedule : String
  timeout : String
  maxRetries : ℤ
  retryBackoff : String
  retryMax : String
  allowOverlap : Bool
  runOnStart : Bool
  config : StringMap Value
deriving DecidableEq

structure RuleConfig where
  name : String
  scanner : String
  metric : String
  operator : String
  threshold : ℚ
  severity : String
  description : String
deriving DecidableEq

structure DetectionConfig where
  correlationWindow : String
  correlationMinScanners : ℤ
  correlationCooldown : String
  driftConsecutive : ℤ
  rules : List RuleConfig
deriving DecidableEq

/-- A channel for alerts. -/
structure AlertChannelConfig where
  type : String
  enabled : Bool
  severity : List String := []
  url : String := ""
  syslogNetwork : String := ""
  syslogAddress : String := ""
  syslogTag : String := ""
  smtpServer : String := ""
  smtpUser : String := ""
  smtpPass : String := ""
  «from» : String := ""
  «to» : List String := []
  subject : String := ""
deriving DecidableEq

structure AlertingConfig where
  enabled : Bool
  dedupWindow : String
  retryMax : ℤ
  retryBackoff : String
  channels : List AlertChannelConfig
deriving DecidableEq

structure SecurityConfig where
  selfIntegrity : Bool
  expectedSHA256 : String
deriving DecidableEq

/-- The whole configuration. -/
structure Config where
  daemon : DaemonConfig
  storage : StorageConfig
  signatures : SignaturesConfig
  api : APIConfig
  webUI : WebUIConfig
  scanners : List ScannerConfig
  detection : DetectionConfig
  alerting : AlertingConfig
  security : SecurityConfig
deriving DecidableEq

/-- The function `Default`. -/
def Config.default : Config where
  daemon :=
    { logLevel := "info", logFormat := "json", user := "", group := "",
      shutdownTimeout := "10s", dropPrivileges := false }
  storage :=
    { dbPath := "/var/lib/arcsent/badger", retentionDays := 30, encryptionKeyBase64 := "" }
  signatures :=
    { enabled := false, updateInterval := "24h", sources := defaultSources,
      cacheDir := "/var/lib/arcsent/signatures", airgapImportPath := "", sourceURLs := .empty }
  api := { enabled := false, bindAddr := "127.0.0.1:8788", readOnly := true, authToken := "" }
  webUI := { enabled := false, bindAddr := "127.0.0.1:8787", readOnly := true, authToken := "" }
  scanners := []
  detection :=
    { correlationWindow := "5m", correlationMinScanners := 2, correlationCooldown := "5m",
      driftConsecutive := 3, rules := [] }
  alerting :=
    { enabled := false, dedupWindow := "5m", retryMax := 3, retryBackoff := "2s",
      channels := [{ type := "log", enabled := true }] }
  security := { selfIntegrity := false, expectedSHA256 := "" }

/-! ## Durations of the configuration -/

def ScannerConfig.timeoutDuration (s : ScannerConfig) : Duration := durationOr s.timeout 0

def ScannerConfig.retryBackoffDuration (s : ScannerConfig) : Duration :=
  durationOr s.retryBackoff 0

def ScannerConfig.retryMaxDuration (s : ScannerConfig) : Duration := durationOr s.retryMax 0

def DetectionConfig.correlationWindowDuration (d : DetectionConfig) : Duration :=
  durationOr d.correlationWindow 0

def DetectionConfig.correlationCooldownDuration (d : DetectionConfig) : Duration :=
  durationOr d.correlationCooldown 0

def SignaturesConfig.updateIntervalDuration (s : SignaturesConfig) : Duration :=
  durationOr s.updateInterval 0

end Arcsent
