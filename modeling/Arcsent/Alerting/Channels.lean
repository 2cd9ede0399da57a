/-
# The channels for alerts

`internal/alerting/factory.go` and the four channels: `BuildChannels` makes a channel for each
entry of the configuration that is enabled, and returns an error for the first one that it
cannot make.  The daemon then goes on with the log alone.
-/
import Mathlib.Data.List.Forall2
import Arcsent.Alerting.Engine
import Arcsent.Config.Validate

namespace Arcsent.Alerting

open Arcsent.Go Arcsent.Scanner

/-! ## Severities -/

def parseSeverity (value : String) : Severity :=
  match toLower value with
  | "low" => .low
  | "medium" => .medium
  | "high" => .high
  | "critical" => .critical
  | _ => .info

def severityAllowed (allow : List String) (sev : Severity) : Bool :=
  allow = [] || allow.any fun v => parseSeverity v = sev

/-! ## The channels -/

/-- A connection to the system log. -/
structure SyslogWriter where
  network : String
  address : String
  tag : String
deriving DecidableEq

structure EmailConfig where
  smtpServer : String
  smtpUser : String
  smtpPass : String
  «from» : String
  «to» : List String
  subject : String
deriving DecidableEq

/-- A channel that `BuildChannels` has made.  The writer of a system log is missing when the
connection could not be made. -/
inductive BuiltChannel
  | log
  | webhook (url : String) (severity : List String)
  | syslog (writer : Option SyslogWriter) (severity : List String)
  | email (cfg : EmailConfig) (severity : List String)
deriving DecidableEq

/-- The method `Name`. -/
def BuiltChannel.name : BuiltChannel → String
  | log => "log"
  | webhook .. => "webhook"
  | syslog .. => "syslog"
  | email .. => "email"

/-- The function `NewSyslogChannel`, `dial` saying whether `syslog.Dial` can connect. -/
def newSyslogChannel (dial : SyslogWriter → Bool) (network address tag : String)
    (severity : List String) : BuiltChannel :=
  let writer : SyslogWriter :=
    { network := if network = "" then "unixgram" else network
      address := if address = "" then "/dev/log" else address
      tag := if tag = "" then "arcsent" else tag }
  .syslog (if dial writer then some writer else none) severity

/-- The body of the loop of `BuildChannels`. -/
def buildChannel (dial : SyslogWriter → Bool) (ch : AlertChannelConfig) :
    Except String BuiltChannel :=
  if ch.type = "log" then .ok .log
  else if ch.type = "webhook" then
    if ch.url = "" then .error "webhook url required" else .ok (.webhook ch.url ch.severity)
  else if ch.type = "syslog" then
    .ok (newSyslogChannel dial ch.syslogNetwork ch.syslogAddress ch.syslogTag ch.severity)
  else if ch.type = "email" then
    .ok (.email
      { smtpServer := ch.smtpServer, smtpUser := ch.smtpUser, smtpPass := ch.smtpPass,
        «from» := ch.from, «to» := ch.to, subject := ch.subject } ch.severity)
  else .error ("unknown alert channel type: " ++ ch.type)

/-- The loop over the entries. -/
def buildEach (dial : SyslogWriter → Bool) :
    List AlertChannelConfig → Except String (List BuiltChannel)
  | [] => .ok []
  | ch :: chs =>
    if ¬ ch.enabled then buildEach dial chs
    else
      match buildChannel dial ch with
      | .error err => .error err
      | .ok built =>
        match buildEach dial chs with
        | .error err => .error err
        | .ok channels => .ok (built :: channels)

/-- The function `BuildChannels`. -/
def buildChannels (dial : SyslogWriter → Bool) (cfg : AlertingConfig) :
    Except String (List BuiltChannel) :=
  match buildEach dial cfg.channels with
  | .error err => .error err
  | .ok channels => .ok (if channels = [] then [.log] else channels)

/-- The channels that `Run` and a reload go on with, and the error they log. -/
def setupChannels (dial : SyslogWriter → Bool) (cfg : AlertingConfig) :
    List BuiltChannel × Option String :=
  match buildChannels dial cfg with
  | .error err => ([.log], some err)
  | .ok channels => (channels, none)

/-! ## The entries that can be made -/

variable {dial : SyslogWriter → Bool} {ch : AlertChannelConfig} {chs : List AlertChannelConfig}

/-- The entries that are enabled. -/
def enabledEntries (chs : List AlertChannelConfig) : List AlertChannelConfig :=
  chs.filter (·.enabled)

/-- An entry has one of the four types, and a URL if it is for a webhook. -/
structure Buildable (ch : AlertChannelConfig) : Prop where
  known : ch.type ∈ ["log", "webhook", "syslog", "email"]
  url : ch.type = "webhook" → ch.url ≠ ""

/-- What a channel is made of is what its entry says. -/
inductive MadeFrom (dial : SyslogWriter → Bool) (ch : AlertChannelConfig) : BuiltChannel → Prop
  | log (h : ch.type = "log") : MadeFrom dial ch .log
  | webhook (h : ch.type = "webhook") (hurl : ch.url ≠ "") :
    MadeFrom dial ch (.webhook ch.url ch.severity)
  | syslog (h : ch.type = "syslog") : MadeFrom dial ch
      (newSyslogChannel dial ch.syslogNetwork ch.syslogAddress ch.syslogTag ch.severity)
  | email (h : ch.type = "email") : MadeFrom dial ch
      (.email ⟨ch.smtpServer, ch.smtpUser, ch.smtpPass, ch.from, ch.to, ch.subject⟩ ch.severity)

lemma MadeFrom.name_eq {built : BuiltChannel} (h : MadeFrom dial ch built) :
    built.name = ch.type := by
  cases h with
  | log h => exact h.symm
  | webhook h => exact h.symm
  | syslog h => exact h.symm
  | email h => exact h.symm

lemma MadeFrom.buildable {built : BuiltChannel} (h : MadeFrom dial ch built) : Buildable ch := by
  cases h with
  | log h => exact ⟨by simp [h], fun hw => absurd (h.symm.trans hw) (by decide)⟩
  | webhook h hurl => exact ⟨by simp [h], fun _ => hurl⟩
  | syslog h => exact ⟨by simp [h], fun hw => absurd (h.symm.trans hw) (by decide)⟩
  | email h => exact ⟨by simp [h], fun hw => absurd (h.symm.trans hw) (by decide)⟩

/-- The channel that is made of an entry. -/
lemma buildChannel_eq_ok_iff {built : BuiltChannel} :
    buildChannel dial ch = .ok built ↔ MadeFrom dial ch built := by
  rw [buildChannel]
  constructor
  · intro h
    split_ifs at h with hlog hwebhook hurl hsyslog hemail
    · rw [← Except.ok.inj h]
      exact .log hlog
    · rw [← Except.ok.inj h]
      exact .webhook hwebhook hurl
    · rw [← Except.ok.inj h]
      exact .syslog hsyslog
    · rw [← Except.ok.inj h]
      exact .email hemail
  · intro h
    cases h with
    | log h => rw [if_pos h]
    | webhook h hurl => rw [if_neg (by simp [h]), if_pos h, if_neg hurl]
    | syslog h => rw [if_neg (by simp [h]), if_neg (by simp [h]), if_pos h]
    | email h =>
      rw [if_neg (by simp [h]), if_neg (by simp [h]), if_neg (by simp [h]), if_pos h]

lemma exists_madeFrom (dial : SyslogWriter → Bool) (h : Buildable ch) :
    ∃ built, MadeFrom dial ch built := by
  have hknown := h.known
  simp only [List.mem_cons, List.not_mem_nil, or_false] at hknown
  rcases hknown with htype | htype | htype | htype
  · exact ⟨_, .log htype⟩
  · exact ⟨_, .webhook htype (h.url htype)⟩
  · exact ⟨_, .syslog htype⟩
  · exact ⟨_, .email htype⟩

/-- The loop makes a channel for each entry that is enabled, in their order. -/
lemma buildEach_eq_ok_iff {channels : List BuiltChannel} :
    buildEach dial chs = .ok channels ↔
      List.Forall₂ (MadeFrom dial) (enabledEntries chs) channels := by
  induction chs generalizing channels with
  | nil =>
    rw [buildEach, enabledEntries, List.filter_nil, List.forall₂_nil_left_iff]
    exact ⟨fun h => (Except.ok.inj h).symm, fun h => by rw [h]⟩
  | cons ch chs ih =>
    rw [buildEach, enabledEntries]
    by_cases henabled : ch.enabled = true
    · rw [if_neg (not_not.mpr henabled), List.filter_cons_of_pos henabled,
        List.forall₂_cons_left_iff]
      constructor
      · intro h
        split at h
        · cases h
        · next built hbuilt =>
          split at h
          · cases h
          · next rest hrest =>
            rw [← Except.ok.inj h]
            exact ⟨built, rest, buildChannel_eq_ok_iff.mp hbuilt, ih.mp hrest, rfl⟩
      · rintro ⟨built, rest, hbuilt, hrest, rfl⟩
        rw [buildChannel_eq_ok_iff.mpr hbuilt]
        dsimp only
        rw [ih.mpr hrest]
    · rw [if_pos henabled, List.filter_cons_of_neg henabled]
      exact ih

/-- The loop works out when every entry that is enabled can be made. -/
lemma exists_buildEach_iff (dial : SyslogWriter → Bool) (chs : List AlertChannelConfig) :
    (∃ channels, buildEach dial chs = .ok channels) ↔ ∀ ch ∈ enabledEntries chs, Buildable ch := by
  simp only [buildEach_eq_ok_iff]
  generalize enabledEntries chs = entries
  constructor
  · rintro ⟨channels, h⟩
    induction h with
    | nil => exact fun ch hch => absurd hch List.not_mem_nil
    | cons hbuilt _ ih => exact List.forall_mem_cons.mpr ⟨hbuilt.buildable, ih⟩
  · intro h
    induction entries with
    | nil => exact ⟨[], .nil⟩
    | cons ch entries ih =>
      obtain ⟨built, hbuilt⟩ := exists_madeFrom dial (h ch List.mem_cons_self)
      obtain ⟨channels, hchannels⟩ := ih fun d hd => h d (List.mem_cons_of_mem _ hd)
      exact ⟨built :: channels, .cons hbuilt hchannels⟩

/-- The channel at a place is made from the entry at that place. -/
lemma madeFrom_of_buildChannels {cfg : AlertingConfig} {channels : List BuiltChannel} {i : ℕ}
    {built : BuiltChannel} (h : buildChannels dial cfg = .ok channels)
    (hentry : (enabledEntries cfg.channels)[i]? = some ch) (hbuilt : channels[i]? = some built) :
    MadeFrom dial ch built := by
  rw [buildChannels] at h
  split at h
  · cases h
  · next each heach =>
    have hforall := buildEach_eq_ok_iff.mp heach
    have hne : each ≠ [] := by
      rintro rfl
      rw [List.forall₂_nil_right_iff.mp hforall] at hentry
      cases hentry
    rw [if_neg hne] at h
    obtain rfl := Except.ok.inj h
    clear h heach hne
    generalize enabledEntries cfg.channels = entries at hentry hforall
    induction hforall generalizing i with
    | nil => cases hentry
    | cons hmade _ ih =>
      cases i with
      | zero =>
        rw [← Option.some.inj hentry, ← Option.some.inj hbuilt]
        exact hmade
      | succ i => exact ih hbuilt hentry

/-! ## Accepted configurations -/

/-- One channel for each entry that is enabled, in their order, or the log when there is
none; the daemon goes on with these channels and logs no error. -/
structure FullyBuilt (dial : SyslogWriter → Bool) (cfg : AlertingConfig)
    (channels : List BuiltChannel) : Prop where
  built : buildChannels dial cfg = .ok channels
  log : enabledEntries cfg.channels = [] → channels = [.log]
  each : enabledEntries cfg.channels ≠ [] →
    List.Forall₂ (MadeFrom dial) (enabledEntries cfg.channels) channels ∧
      channels.map BuiltChannel.name = (enabledEntries cfg.channels).map (·.type)
  setup : setupChannels dial cfg = (channels, none)

lemma map_name_of_forall₂ {channels : List BuiltChannel} {entries : List AlertChannelConfig}
    (h : List.Forall₂ (MadeFrom dial) entries channels) :
    channels.map BuiltChannel.name = entries.map (·.type) := by
  induction h with
  | nil => rfl
  | cons hbuilt _ ih => rw [List.map_cons, List.map_cons, hbuilt.name_eq, ih]

/-- The channels of a configuration whose entries can all be made. -/
lemma exists_fullyBuilt_iff (dial : SyslogWriter → Bool) (cfg : AlertingConfig) :
    (∃ channels, FullyBuilt dial cfg channels) ↔
      ∀ ch ∈ enabledEntries cfg.channels, Buildable ch := by
  rw [← exists_buildEach_iff dial]
  constructor
  · rintro ⟨channels, h⟩
    have hbuilt := h.built
    rw [buildChannels] at hbuilt
    split at hbuilt
    · cases hbuilt
    · next each heach => exact ⟨each, heach⟩
  · rintro ⟨channels, heach⟩
    have hforall := buildEach_eq_ok_iff.mp heach
    have hbuilt : buildChannels dial cfg = .ok (if channels = [] then [.log] else channels) := by
      rw [buildChannels, heach]
    refine ⟨_, hbuilt, fun hnone => ?_, fun hsome => ?_, by rw [setupChannels, hbuilt]⟩
    · rw [hnone, List.forall₂_nil_left_iff] at hforall
      rw [if_pos hforall]
    · have hne : channels ≠ [] := by
        rintro rfl
        exact hsome (List.forall₂_nil_right_iff.mp hforall)
      rw [if_neg hne]
      exact ⟨hforall, map_name_of_forall₂ hforall⟩

/-- **What `Validate` leaves to `BuildChannels`.**  An accepted configuration gets a channel
for each of its entries exactly when these have a known type, and a URL for a webhook. -/
theorem fullyBuilt_iff (dial : SyslogWriter → Bool) (euid : ℕ) (c : Config) :
    (c.validate euid = .ok () → ∃ channels, FullyBuilt dial c.alerting channels) ↔
      (c.validate euid = .ok () →
        ∀ ch ∈ c.alerting.channels, ch.enabled = true → Buildable ch) := by
  rw [exists_fullyBuilt_iff]
  refine imp_congr_right fun _ => ?_
  simp only [enabledEntries, List.mem_filter, and_imp]

/-- The defaults with some channels. -/
def withChannels (chs : List AlertChannelConfig) : Config :=
  { Config.default with
    alerting := { Config.default.alerting with enabled := true, channels := chs } }

/-- A webhook without a URL takes the channel for mail with it, and so does a type in capitals. -/
theorem not_fullyBuilt :
    (¬ ∀ (dial : SyslogWriter → Bool) (euid : ℕ) (c : Config), c.validate euid = .ok () →
      ∃ channels, FullyBuilt dial c.alerting channels) ∧
    setupChannels (fun _ => true) (withChannels
        [{ type := "email", enabled := true }, { type := "webhook", enabled := true }]).alerting =
      ([.log], some "webhook url required") ∧
    setupChannels (fun _ => true) (withChannels
        [{ type := "email", enabled := true }, { type := "Syslog", enabled := true }]).alerting =
      ([.log], some "unknown alert channel type: Syslog") := by
  refine ⟨fun h => ?_, by decide +kernel, by decide +kernel⟩
  obtain ⟨channels, hbuilt⟩ := h (fun _ => true) 0 (withChannels
    [{ type := "email", enabled := true }, { type := "webhook", enabled := true }])
    (by decide +kernel)
  have hsetup : setupChannels (fun _ => true) (withChannels
      [{ type := "email", enabled := true }, { type := "webhook", enabled := true }]).alerting =
    ([.log], some "webhook url required") := by decide +kernel
  rw [hbuilt.setup] at hsetup
  cases hsetup

end Arcsent.Alerting
