/-
# The severities that a channel lets pass

The method `Send` of the four channels: what leaves the daemon for an alert, and the error
that is returned.  Three of the channels look at the list of severities of their entry first;
the parser that they read it with takes every word that it does not know for `info`.
-/
import Arcsent.Alerting.Channels

namespace Arcsent.Alerting

open Arcsent.Go Arcsent.Scanner

/-! ## Sending -/

/-- The priority of a message in the system log. -/
inductive Priority
  | err
  | warning
  | info
deriving DecidableEq

/-- What leaves the daemon. -/
inductive Emission
  /-- A line of the log, with its fields. -/
  | line (fields : List (String × String))
  /-- A request with a body. -/
  | request (url : String) (payload : Bytes)
  | message (writer : SyslogWriter) (priority : Priority) (msg : String)
  /-- A mail, with the user, the password and the host to log in with, if there are any. -/
  | mail (server : String) (auth : Option (String × String × String)) («from» : String)
    («to» : List String) (msg : String)
deriving DecidableEq

/-- What the standard library makes of the addresses of channels. -/
structure Transport extends HTTPClient where
  /-- The error of `smtp.SendMail` for a server that no connection can be opened to, as for one
  without a port. -/
  noServer : String → Option String

/-- What the calls of one `Send` return. -/
structure Replies where
  marshal : Except String Bytes
  /-- The status of the response. -/
  response : Except String ℕ
  write : Option String
  sendMail : Option String

variable (net : Transport)

/-- The method `Send` of `LogChannel`. -/
def sendLog (alert : Alert) : Option Emission × Option String :=
  (some (.line [("id", alert.id), ("severity", alert.severity.text),
    ("scanner", alert.scannerName), ("finding", alert.finding.description),
    ("reason", alert.reason)]), none)

/-- The method `Send` of `WebhookChannel`. -/
def sendWebhook (r : Replies) (url : String) (severity : List String) (alert : Alert) :
    Option Emission × Option String :=
  if ¬ severityAllowed severity alert.severity then (none, none)
  else
    match r.marshal with
    | .error err => (none, some err)
    | .ok payload =>
      match net.newRequest url with
      | some err => (none, some err)
      | none =>
        match net.unsent url with
        | some err => (none, some err)
        | none =>
          (some (.request url payload),
            match r.response with
            | .error err => some err
            | .ok status =>
              if status ≥ 300 then some ("webhook status " ++ toString status) else none)

/-- The priority that `Send` of `SyslogChannel` writes with. -/
def priorityOf : Severity → Priority
  | .critical | .high => .err
  | .medium => .warning
  | _ => .info

/-- The method `Send` of `SyslogChannel`. -/
def sendSyslog (r : Replies) (writer : Option SyslogWriter) (severity : List String)
    (alert : Alert) : Option Emission × Option String :=
  if ¬ severityAllowed severity alert.severity then (none, none)
  else
    match writer with
    | none => (none, some "syslog writer not available")
    | some writer =>
      let msg := "[" ++ alert.severity.text ++ "] " ++ alert.scannerName ++ " - " ++
        alert.finding.description
      (some (.message writer (priorityOf alert.severity) msg), r.write)

/-- The first piece of a text that is split at a character. -/
def firstPiece (sep : Char) (s : String) : String := String.ofList (s.toList.takeWhile (· ≠ sep))

/-- The method `Send` of `EmailChannel`. -/
def sendEmail (r : Replies) (cfg : EmailConfig) (severity : List String) (alert : Alert) :
    Option Emission × Option String :=
  if ¬ severityAllowed severity alert.severity then (none, none)
  else if cfg.smtpServer = "" ∨ cfg.from = "" ∨ cfg.to = [] then
    (none, some "email channel not configured")
  else
    let subject := if cfg.subject = "" then "ArCsent Alert" else cfg.subject
    let body := "Severity: " ++ alert.severity.text ++ "\nScanner: " ++ alert.scannerName ++
      "\nDescription: " ++ alert.finding.description ++ "\n"
    let msg := join "\r\n" ["From: " ++ cfg.from, "To: " ++ join "," cfg.to,
      "Subject: " ++ subject, "", body]
    let auth :=
      if cfg.smtpUser ≠ "" ∧ cfg.smtpPass ≠ "" then
        some (cfg.smtpUser, cfg.smtpPass, firstPiece ':' cfg.smtpServer)
      else none
    match net.noServer cfg.smtpServer with
    | some err => (none, some err)
    | none => (some (.mail cfg.smtpServer auth cfg.from cfg.to msg), r.sendMail)

/-- The method `Send`: what it emits, and the error it returns. -/
def BuiltChannel.send (r : Replies) (alert : Alert) :
    BuiltChannel → Option Emission × Option String
  | log => sendLog alert
  | webhook url severity => sendWebhook net r url severity alert
  | syslog writer severity => sendSyslog r writer severity alert
  | email cfg severity => sendEmail net r cfg severity alert

/-! ## The filter -/

/-- A list of words lets a severity pass: it is empty, or one of them names it. -/
def Admits (allow : List String) (sev : Severity) : Prop :=
  allow = [] ∨ ∃ v ∈ allow, toLower v = sev.text

instance (allow : List String) (sev : Severity) : Decidable (Admits allow sev) :=
  inferInstanceAs (Decidable (_ ∨ _))

/-- A word names one of the severities. -/
def IsSeverity (v : String) : Prop := ∃ sev : Severity, toLower v = sev.text

/-- A word that is not known is read as `info`. -/
lemma parseSeverity_eq_iff {v : String} {sev : Severity} :
    parseSeverity v = sev ↔ toLower v = sev.text ∨ sev = .info ∧ ¬ IsSeverity v := by
  rw [parseSeverity, IsSeverity]
  generalize toLower v = word
  constructor
  · intro h
    split at h
    · exact .inl (by rw [← h]; rfl)
    · exact .inl (by rw [← h]; rfl)
    · exact .inl (by rw [← h]; rfl)
    · exact .inl (by rw [← h]; rfl)
    · next hlow hmedium hhigh hcritical =>
      -- the default branch is taken for "info" and for every other word
      rw [← h]
      by_cases hinfo : word = "info"
      · exact .inl hinfo
      · refine .inr ⟨rfl, fun ⟨sev, hsev⟩ => ?_⟩
        cases sev with
        | info => exact hinfo hsev
        | low => exact hlow hsev
        | medium => exact hmedium hsev
        | high => exact hhigh hsev
        | critical => exact hcritical hsev
  · rintro (rfl | ⟨rfl, hno⟩)
    · cases sev <;> rfl
    · split
      · exact absurd ⟨.low, rfl⟩ hno
      · exact absurd ⟨.medium, rfl⟩ hno
      · exact absurd ⟨.high, rfl⟩ hno
      · exact absurd ⟨.critical, rfl⟩ hno
      · rfl

/-- The filter of the code: it lets pass what the list does, and the least severity when there
is a word that is not known. -/
lemma severityAllowed_iff {allow : List String} {sev : Severity} :
    severityAllowed allow sev = true ↔
      Admits allow sev ∨ sev = .info ∧ ∃ v ∈ allow, ¬ IsSeverity v := by
  rw [severityAllowed, Bool.or_eq_true, decide_eq_true_eq, List.any_eq_true, Admits]
  simp only [decide_eq_true_eq, parseSeverity_eq_iff]
  constructor
  · rintro (hempty | ⟨v, hv, hname | ⟨hinfo, hno⟩⟩)
    · exact .inl (.inl hempty)
    · exact .inl (.inr ⟨v, hv, hname⟩)
    · exact .inr ⟨hinfo, v, hv, hno⟩
  · rintro ((hempty | ⟨v, hv, hname⟩) | ⟨hinfo, v, hv, hno⟩)
    · exact .inl hempty
    · exact .inr ⟨v, hv, .inl hname⟩
    · exact .inr ⟨v, hv, .inr ⟨hinfo, hno⟩⟩

/-! ## What is emitted -/

/-- The writer for an entry, with the defaults filled in. -/
def writerOf (ch : AlertChannelConfig) : SyslogWriter where
  network := if ch.syslogNetwork = "" then "unixgram" else ch.syslogNetwork
  address := if ch.syslogAddress = "" then "/dev/log" else ch.syslogAddress
  tag := if ch.syslogTag = "" then "arcsent" else ch.syslogTag

/-- An entry for which nothing can leave the daemon, whatever the alert: the system log cannot
be reached, the client sends nothing to the address, or the mail is not configured or has a
server that no connection can be opened to. -/
def Silent (dial : SyslogWriter → Bool) (ch : AlertChannelConfig) : Prop :=
  (ch.type = "syslog" ∧ dial (writerOf ch) = false) ∨
    (ch.type = "webhook" ∧ ¬ net.Takes ch.url) ∨
    (ch.type = "email" ∧ (ch.smtpServer = "" ∨ ch.from = "" ∨ ch.to = [] ∨
      net.noServer ch.smtpServer ≠ none))

/-- Replies of calls that all work out. -/
def Replies.fine : Replies := ⟨.ok [], .ok 200, none, none⟩

/-- An alert is emitted, for some replies of the calls. -/
def Emits (built : BuiltChannel) (alert : Alert) : Prop :=
  ∃ r : Replies, (built.send net r alert).1.isSome = true

variable {net}

/-- What a webhook takes to emit something. -/
lemma isSome_sendWebhook {r : Replies} {url : String} {severity : List String} {alert : Alert}
    (hallowed : severityAllowed severity alert.severity = true) {payload : Bytes}
    (hmarshal : r.marshal = .ok payload) :
    (sendWebhook net r url severity alert).1.isSome = true ↔ net.Takes url := by
  rw [sendWebhook, if_neg (not_not.mpr hallowed), hmarshal]
  dsimp only
  cases hrequest : net.newRequest url with
  | some err => exact iff_of_false (by simp) fun htakes => by simp [htakes.request] at hrequest
  | none =>
    cases hsent : net.unsent url with
    | some err => exact iff_of_false (by simp) fun htakes => by simp [htakes.sent] at hsent
    | none => exact iff_of_true rfl ⟨hrequest, hsent⟩

lemma emits_webhook_iff {url : String} {severity : List String} {alert : Alert} :
    Emits net (.webhook url severity) alert ↔
      net.Takes url ∧ severityAllowed severity alert.severity = true := by
  constructor
  · rintro ⟨r, h⟩
    rw [BuiltChannel.send] at h
    by_cases hallowed : severityAllowed severity alert.severity = true
    · cases hmarshal : r.marshal with
      | error err =>
        rw [sendWebhook, if_neg (not_not.mpr hallowed), hmarshal] at h
        cases h
      | ok payload => exact ⟨(isSome_sendWebhook hallowed hmarshal).mp h, hallowed⟩
    · rw [sendWebhook, if_pos hallowed] at h
      cases h
  · rintro ⟨htakes, hallowed⟩
    exact ⟨.fine, (isSome_sendWebhook hallowed rfl).mpr htakes⟩

lemma emits_syslog_iff {writer : Option SyslogWriter} {severity : List String} {alert : Alert} :
    Emits net (.syslog writer severity) alert ↔
      writer ≠ none ∧ severityAllowed severity alert.severity = true := by
  constructor
  · rintro ⟨r, h⟩
    rw [BuiltChannel.send] at h
    unfold sendSyslog at h
    by_cases hallowed : severityAllowed severity alert.severity = true
    · refine ⟨?_, hallowed⟩
      rintro rfl
      rw [if_neg (not_not.mpr hallowed)] at h
      cases h
    · rw [if_pos hallowed] at h
      cases h
  · rintro ⟨hwriter, hallowed⟩
    obtain ⟨w, rfl⟩ := Option.ne_none_iff_exists'.mp hwriter
    refine ⟨.fine, ?_⟩
    rw [BuiltChannel.send]
    unfold sendSyslog
    rw [if_neg (not_not.mpr hallowed)]
    rfl

lemma emits_email_iff {cfg : EmailConfig} {severity : List String} {alert : Alert} :
    Emits net (.email cfg severity) alert ↔
      ¬ (cfg.smtpServer = "" ∨ cfg.from = "" ∨ cfg.to = [] ∨ net.noServer cfg.smtpServer ≠ none) ∧
        severityAllowed severity alert.severity = true := by
  constructor
  · rintro ⟨r, h⟩
    rw [BuiltChannel.send, sendEmail] at h
    by_cases hallowed : severityAllowed severity alert.severity = true
    · rw [if_neg (not_not.mpr hallowed)] at h
      refine ⟨?_, hallowed⟩
      by_cases hmissing : cfg.smtpServer = "" ∨ cfg.from = "" ∨ cfg.to = []
      · rw [if_pos hmissing] at h
        cases h
      · rw [if_neg hmissing] at h
        cases hserver : net.noServer cfg.smtpServer with
        | some err => simp [hserver] at h
        | none => simpa using hmissing
    · rw [if_pos hallowed] at h
      cases h
  · rintro ⟨hcfg, hallowed⟩
    simp only [not_or, not_not] at hcfg
    obtain ⟨hserver, hfrom, hto, hopen⟩ := hcfg
    refine ⟨.fine, ?_⟩
    rw [BuiltChannel.send, sendEmail, if_neg (not_not.mpr hallowed),
      if_neg (by simp [hserver, hfrom, hto])]
    simp only [hopen]
    rfl

/-- What the channel of an entry emits. -/
lemma emits_iff {dial : SyslogWriter → Bool} {ch : AlertChannelConfig} {built : BuiltChannel}
    (h : MadeFrom dial ch built) (alert : Alert) :
    Emits net built alert ↔ ¬ Silent net dial ch ∧
      (ch.type = "log" ∨ severityAllowed ch.severity alert.severity = true) := by
  rw [Silent]
  cases h with
  | log h =>
    refine iff_of_true ⟨.fine, rfl⟩ ⟨?_, .inl h⟩
    simp [h]
  | webhook h hurl =>
    rw [emits_webhook_iff]
    simp [h]
  | syslog h =>
    rw [newSyslogChannel, ← writerOf, emits_syslog_iff]
    simp [h]
  | email h =>
    rw [emits_email_iff]
    simp [h]

variable (net) in
/-- The channel of an entry respects the list of severities, for an alert. -/
def Respects (built : BuiltChannel) (ch : AlertChannelConfig) (alert : Alert) : Prop :=
  ∀ r : Replies, (built.send net r alert).1.isSome = true → Admits ch.severity alert.severity

lemma respects_iff_of_emits {built : BuiltChannel} {ch : AlertChannelConfig} {alert : Alert} :
    Respects net built ch alert ↔ (Emits net built alert → Admits ch.severity alert.severity) :=
  ⟨fun h ⟨r, hr⟩ => h r hr, fun h r hr => h ⟨r, hr⟩⟩

/-- **Which channels respect the severities of their entries.**  The channel made of an entry
emits an alert only if the list lets it pass, unless the entry is for the log, or the alert is
of the least severity and the list has a word that is not known. -/
theorem respects_iff (net : Transport) {dial : SyslogWriter → Bool} {cfg : AlertingConfig}
    {channels : List BuiltChannel} (hbuilt : buildChannels dial cfg = .ok channels) {i : ℕ}
    {ch : AlertChannelConfig} {built : BuiltChannel}
    (hentry : (enabledEntries cfg.channels)[i]? = some ch) (hchannel : channels[i]? = some built)
    (alert : Alert) :
    Respects net built ch alert ↔ Admits ch.severity alert.severity ∨ Silent net dial ch ∨
      (ch.type ≠ "log" ∧
        (alert.severity = .info → ∀ v ∈ ch.severity, IsSeverity v)) := by
  have hmade := madeFrom_of_buildChannels hbuilt hentry hchannel
  rw [respects_iff_of_emits, emits_iff hmade, severityAllowed_iff]
  constructor
  · intro h
    by_cases hadmits : Admits ch.severity alert.severity
    · exact .inl hadmits
    by_cases hsilent : Silent net dial ch
    · exact .inr (.inl hsilent)
    refine .inr (.inr ⟨fun hlog => hadmits (h ⟨hsilent, .inl hlog⟩), fun hinfo v hv => ?_⟩)
    by_contra hunknown
    exact hadmits (h ⟨hsilent, .inr (.inr ⟨hinfo, v, hv, hunknown⟩)⟩)
  · rintro (hadmits | hsilent | ⟨hlog, hknown⟩)
    · exact fun _ => hadmits
    · exact fun h => absurd hsilent h.1
    · rintro ⟨-, htype | hadmits | ⟨hinfo, v, hv, hunknown⟩⟩
      · exact absurd htype hlog
      · exact hadmits
      · exact absurd (hknown hinfo v hv) hunknown

/-- A webhook for what is serious. -/
def pager : AlertChannelConfig where
  type := "webhook"
  enabled := true
  severity := ["HIGH", "critical"]
  url := "https://pager.example/hook"

/-- An alert of a severity. -/
def alertWith (severity : Severity) : Alert where
  id := "a"
  timestamp := 0
  severity := severity
  scannerName := "system.auth_log"
  finding := ⟨"auth_failed", severity, "auth", "Authentication failure detected", [], ""⟩
  reason := "finding_detected"

/-- Every address can be reached. -/
def openNet : Transport := ⟨.any, fun _ => none⟩

/-- Nothing is posted for an alert of the least severity. -/
theorem respects_pager :
    Respects openNet (.webhook "https://pager.example/hook" ["HIGH", "critical"]) pager
      (alertWith .info) := by
  have hbuilt : buildChannels (fun _ => true) (withChannels [pager]).alerting =
      .ok [.webhook "https://pager.example/hook" ["HIGH", "critical"]] := by decide +kernel
  refine (@respects_iff openNet _ _ _ hbuilt 0 pager _ rfl rfl (alertWith .info)).mpr
    (.inr (.inr ⟨by decide, fun _ v hv => ?_⟩))
  rcases List.mem_pair.mp hv with rfl | rfl
  · exact ⟨.high, by decide⟩
  · exact ⟨.critical, by decide⟩

/-- The log takes every alert, and a webhook for warnings those of the least severity. -/
theorem not_respects :
    (¬ ∀ (dial : SyslogWriter → Bool) (cfg : AlertingConfig) (channels : List BuiltChannel),
      buildChannels dial cfg = .ok channels → ∀ (i : ℕ) (ch : AlertChannelConfig)
        (built : BuiltChannel), (enabledEntries cfg.channels)[i]? = some ch →
        channels[i]? = some built → ∀ alert, Respects openNet built ch alert) ∧
    (BuiltChannel.log.send openNet .fine (alertWith .low)).1.isSome = true ∧
    ¬ Admits ["critical"] .low ∧
    ((BuiltChannel.webhook "https://pager.example/hook" ["warning"]).send openNet .fine
      (alertWith .info)).1.isSome = true ∧
    ¬ Admits ["warning"] .info := by
  refine ⟨fun h => ?_, rfl, by decide, rfl, by decide⟩
  have hrespects := h (fun _ => true)
    (withChannels [{ type := "log", enabled := true, severity := ["critical"] }]).alerting [.log]
    (by decide +kernel) 0 _ _ rfl rfl (alertWith .low)
  exact absurd (hrespects .fine rfl) (by decide)

end Arcsent.Alerting
