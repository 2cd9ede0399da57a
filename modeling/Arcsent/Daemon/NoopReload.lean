/-
# Reloads that change nothing

A reload builds the rules, the correlator and the alert engine anew, also when the new
configuration says the same about them.  What the old ones remembered is lost with them:
the events of the correlator and the time of its last finding, and the identities and the
queue of the alert engine.
-/
import Arcsent.Daemon.DriftAlerts
import Arcsent.Detection.CorrelatorRuns
import Arcsent.Lib.Runs

namespace Arcsent

open Go Scanner Detection Lib

/-! ## The parts that forget -/

namespace Detection.Correlator

/-- Two correlators that answer alike from a time on. -/
structure Alike (now : Time) (c c' : Correlator) : Prop where
  window : c.window = c'.window
  minScan : c.minScan = c'.minScan
  cooldown : c.cooldown = c'.cooldown
  events : ∀ t, now ≤ t → c.events.filter (fun ev => t - c.window < ev.time) =
    c'.events.filter fun ev => t - c.window < ev.time
  triggered : c.lastTriggered = c'.lastTriggered ∨
    c.cooldown ≤ now - c.lastTriggered ∧ c.cooldown ≤ now - c'.lastTriggered

variable {now t : Time} {c c' : Correlator}

lemma alike_refl (now : Time) (c : Correlator) : Alike now c c :=
  ⟨rfl, rfl, rfl, fun _ _ => rfl, .inl rfl⟩

lemma Alike.mono (h : Alike now c c') (hle : now ≤ t) : Alike t c c' := by
  refine ⟨h.window, h.minScan, h.cooldown, fun u hu => h.events u (hle.trans hu), ?_⟩
  rcases h.triggered with heq | ⟨hcool, hcool'⟩
  · exact .inl heq
  · have hlater : now - c.lastTriggered ≤ t - c.lastTriggered := sub_le_sub_right hle _
    have hlater' : now - c'.lastTriggered ≤ t - c'.lastTriggered := sub_le_sub_right hle _
    exact .inr ⟨hcool.trans hlater, hcool'.trans hlater'⟩

lemma Alike.fresh_eq (h : Alike now c c') (result : Result) :
    c.fresh now result = c'.fresh now result := by
  rw [fresh, fresh, List.filter_append, List.filter_append, h.events now le_rfl, h.window]

lemma Alike.ripe_iff (h : Alike now c c') (result : Result) :
    c.Ripe now result ↔ c'.Ripe now result := by
  rw [Ripe, Ripe, h.fresh_eq, h.minScan, ← h.cooldown]
  rcases h.triggered with heq | ⟨hcool, hcool'⟩
  · rw [heq]
  · simp only [hcool, hcool', and_true]

/-- They answer alike, and stay alike. -/
lemma Alike.add (h : Alike now c c') (result : Result) :
    (c.add now result).2 = (c'.add now result).2 ∧
      Alike now (c.add now result).1 (c'.add now result).1 := by
  by_cases hempty : result.findings = []
  · rw [c.add_of_no_findings now hempty, c'.add_of_no_findings now hempty]
    exact ⟨rfl, h⟩
  · have hfresh := h.fresh_eq result
    have hripe := h.ripe_iff result
    rcases c.add_cases now hempty with ⟨hyes, hadd, hfound⟩ | ⟨hno, hadd⟩
    · rcases c'.add_cases now hempty with ⟨-, hadd', hfound'⟩ | ⟨hno', -⟩
      · rw [hadd, hadd', hfound, hfound', hfresh]
        refine ⟨by rw [finding, finding, h.window], ⟨h.window, h.minScan, h.cooldown, ?_, .inl rfl⟩⟩
        exact fun _ _ => rfl
      · exact absurd (hripe.mp hyes) hno'
    · rcases c'.add_cases now hempty with ⟨hyes', -, -⟩ | ⟨-, hadd'⟩
      · exact absurd (hripe.mpr hyes') hno
      · rw [hadd, hadd', hfresh]
        exact ⟨rfl, ⟨h.window, h.minScan, h.cooldown, fun _ _ => rfl, h.triggered⟩⟩

/-- The settings of a correlator, the bounds aside that it changes itself. -/
structure SameSettings (c c' : Correlator) : Prop where
  window : c.window = c'.window
  minScan : c.minScan = c'.minScan
  cooldown : c.cooldown = c'.cooldown

lemma SameSettings.symm (h : SameSettings c c') : SameSettings c' c :=
  ⟨h.window.symm, h.minScan.symm, h.cooldown.symm⟩

lemma SameSettings.trans {c₁ c₂ c₃ : Correlator} (h : SameSettings c₁ c₂)
    (h' : SameSettings c₂ c₃) : SameSettings c₁ c₃ :=
  ⟨h.window.trans h'.window, h.minScan.trans h'.minScan, h.cooldown.trans h'.cooldown⟩

lemma sameSettings_add (c : Correlator) (now : Time) (result : Result) :
    SameSettings (c.add now result).1 c ∧
      ((c.add now result).1.lastTriggered = c.lastTriggered ∨
        (c.add now result).1.lastTriggered = now) := by
  by_cases hempty : result.findings = []
  · rw [c.add_of_no_findings now hempty]
    exact ⟨⟨rfl, rfl, rfl⟩, .inl rfl⟩
  · rcases c.add_cases now hempty with ⟨-, hadd, -⟩ | ⟨-, hadd⟩
    · rw [hadd]
      exact ⟨⟨rfl, rfl, rfl⟩, .inr rfl⟩
    · rw [hadd]
      exact ⟨⟨rfl, rfl, rfl⟩, .inl rfl⟩

lemma mem_events_add (c : Correlator) (now : Time) (result : Result) {ev : CorrelationEvent}
    (h : ev ∈ (c.add now result).1.events) : ev ∈ c.events ∨ ev.time = now := by
  by_cases hempty : result.findings = []
  · rw [c.add_of_no_findings now hempty] at h
    exact .inl h
  · have hfresh : ev ∈ c.fresh now result := by
      rcases c.add_cases now hempty with ⟨-, hadd, -⟩ | ⟨-, hadd⟩
      · rwa [hadd] at h
      · rwa [hadd] at h
    rcases List.mem_append.mp (List.mem_filter.mp hfresh).1 with hold | hnew
    · exact .inl hold
    · exact .inr (List.mem_singleton.mp hnew ▸ rfl)

/-- A correlator that has nothing to forget is like a new one. -/
lemma Alike.renew (h : Alike now c c') {new : Correlator} (hsettings : SameSettings new c)
    (hevents : new.events = []) (htriggered : new.lastTriggered = 0)
    (hquiet : ∀ ev ∈ c.events, ev.time ≤ now - c.window)
    (hcool : c.lastTriggered = 0 ∨ c.cooldown ≤ now - c.lastTriggered)
    (hpos : 0 ≤ c'.lastTriggered) : Alike now new c' := by
  refine ⟨hsettings.window.trans h.window, hsettings.minScan.trans h.minScan,
    hsettings.cooldown.trans h.cooldown, ?_, ?_⟩
  · intro t ht
    rw [hevents, hsettings.window, ← h.events t ht, List.filter_nil, eq_comm,
      List.filter_eq_nil_iff]
    intro ev hev
    have hold := (hquiet ev hev).trans (sub_le_sub_right ht c.window)
    simpa using hold
  · rw [hsettings.cooldown, htriggered]
    -- the later of the two cooldowns ends by now
    have hlater (hend : c.cooldown ≤ now - c'.lastTriggered) :
        0 = c'.lastTriggered ∨ c.cooldown ≤ now - 0 ∧ c.cooldown ≤ now - c'.lastTriggered :=
      .inr ⟨hend.trans (sub_le_sub_left hpos now), hend⟩
    rcases h.triggered with heq | ⟨-, hend⟩
    · rcases hcool with hzero | hend
      · exact .inl (hzero.symm.trans heq)
      · exact hlater (heq ▸ hend)
    · exact hlater hend

end Detection.Correlator

namespace Alerting

lemma Queue.eq_empty {q : Queue} (h : q.alerts = []) : q = .empty := by
  obtain ⟨alerts, hbounded⟩ := q
  cases h
  rfl

end Alerting

namespace Alerting.Engine

/-- An identity was seen by neither of two engines within the window. -/
def PastWindow (e : Engine) (now : Time) (id : String) : Prop :=
  ∀ last ∈ e.lastSeen id, e.throttle ≤ now - last

/-- Two engines that treat alerts alike from a time on. -/
structure Alike (now : Time) (e e' : Engine) : Prop where
  throttle : e.throttle = e'.throttle
  enabled : e.enabled = e'.enabled
  queue : e.queue = e'.queue
  seen : ∀ id, e.lastSeen id = e'.lastSeen id ∨ e.PastWindow now id ∧ e'.PastWindow now id

variable {now t : Time} {e e' : Engine}

lemma alike_refl (now : Time) (e : Engine) : Alike now e e :=
  ⟨rfl, rfl, rfl, fun _ => .inl rfl⟩

lemma PastWindow.mono {id : String} (h : e.PastWindow now id) (hle : now ≤ t) :
    e.PastWindow t id :=
  fun last hlast => (h last hlast).trans (sub_le_sub_right hle last)

lemma Alike.mono (h : Alike now e e') (hle : now ≤ t) : Alike t e e' := by
  refine ⟨h.throttle, h.enabled, h.queue, ?_⟩
  intro id
  rcases h.seen id with heq | ⟨hpast, hpast'⟩
  · exact .inl heq
  · exact .inr ⟨hpast.mono hle, hpast'.mono hle⟩

lemma not_seenWithin_iff {id : String} : ¬ e.SeenWithin now id ↔ e.PastWindow now id := by
  simp only [SeenWithin, PastWindow, not_exists, not_and, not_lt, Option.mem_def]

lemma Alike.seenWithin_iff (h : Alike now e e') (id : String) :
    e.SeenWithin now id ↔ e'.SeenWithin now id := by
  rcases h.seen id with heq | ⟨hpast, hpast'⟩
  · rw [SeenWithin, SeenWithin, heq, h.throttle]
  · exact iff_of_false (not_seenWithin_iff.mpr hpast) (not_seenWithin_iff.mpr hpast')

variable (sha256 : String → String)

lemma send_of_seen (henabled : e.enabled = true) {alert : Alert}
    (hseen : e.SeenWithin now (alert.complete sha256 now).id) :
    e.send sha256 now alert = (e, .throttled (alert.complete sha256 now).id) := by
  rw [send, if_neg (by simp [henabled])]
  dsimp only
  rw [isThrottled_of_seen hseen]

lemma send_of_not_seen (henabled : e.enabled = true) {alert : Alert}
    (hnot : ¬ e.SeenWithin now (alert.complete sha256 now).id) :
    e.send sha256 now alert =
      let a := alert.complete sha256 now
      let e := { e with lastSeen := Function.update e.lastSeen a.id (some now) }
      match e.queue.push a with
      | some queue => ({ e with queue := queue }, .queued)
      | none => (e, .dropped a.id) := by
  rw [send, if_neg (by simp [henabled])]
  dsimp only
  rewrite [isThrottled_of_not_seen hnot]
  rfl

/-- An identity that both engines see now is seen alike. -/
lemma Alike.update (h : Alike now e e') (id : String) {queue queue' : Queue}
    (hqueue : queue = queue') :
    Alike now { e with lastSeen := Function.update e.lastSeen id (some now), queue := queue }
      { e' with lastSeen := Function.update e'.lastSeen id (some now), queue := queue' } := by
  refine ⟨h.throttle, h.enabled, hqueue, ?_⟩
  intro other
  by_cases hother : other = id
  · subst hother
    left
    simp
  · have hseen := h.seen other
    simp only [PastWindow, Function.update_of_ne hother] at hseen ⊢
    exact hseen

/-- An alert meets the same fate in both, and they stay alike. -/
lemma Alike.send (h : Alike now e e') (alert : Alert) :
    (e.send sha256 now alert).2 = (e'.send sha256 now alert).2 ∧
      Alike now (e.send sha256 now alert).1 (e'.send sha256 now alert).1 := by
  cases henabled : e.enabled with
  | false =>
    have hoff : e.send sha256 now alert = (e, .disabled) := by rw [Engine.send, if_pos henabled]
    have hoff' : e'.send sha256 now alert = (e', .disabled) := by
      rw [Engine.send, if_pos (h.enabled ▸ henabled)]
    rw [hoff, hoff']
    exact ⟨rfl, h⟩
  | true =>
    have henabled' : e'.enabled = true := h.enabled ▸ henabled
    have hiff := h.seenWithin_iff (alert.complete sha256 now).id
    by_cases hseen : e.SeenWithin now (alert.complete sha256 now).id
    · rw [send_of_seen sha256 henabled hseen, send_of_seen sha256 henabled' (hiff.mp hseen)]
      exact ⟨rfl, h⟩
    · rw [send_of_not_seen sha256 henabled hseen,
        send_of_not_seen sha256 henabled' (mt hiff.mpr hseen)]
      have hpush : e'.queue.push (alert.complete sha256 now) =
          e.queue.push (alert.complete sha256 now) := by rw [h.queue]
      dsimp only
      rw [hpush]
      cases e.queue.push (alert.complete sha256 now) with
      | some queue => exact ⟨rfl, h.update _ rfl⟩
      | none => exact ⟨rfl, h.update _ h.queue⟩

/-- The settings of an engine that its answers depend on. -/
structure SameSettings (e e' : Engine) : Prop where
  throttle : e.throttle = e'.throttle
  enabled : e.enabled = e'.enabled

lemma SameSettings.symm (h : SameSettings e e') : SameSettings e' e :=
  ⟨h.throttle.symm, h.enabled.symm⟩

lemma SameSettings.trans {e₁ e₂ e₃ : Engine} (h : SameSettings e₁ e₂) (h' : SameSettings e₂ e₃) :
    SameSettings e₁ e₃ :=
  ⟨h.throttle.trans h'.throttle, h.enabled.trans h'.enabled⟩

lemma sameSettings_send (e : Engine) (now : Time) (alert : Alert) :
    SameSettings (e.send sha256 now alert).1 e := by
  cases henabled : e.enabled with
  | false =>
    rw [send, if_pos henabled]
    exact ⟨rfl, rfl⟩
  | true =>
    rcases send_cases sha256 henabled now alert with ⟨-, hsend⟩ | ⟨-, outcome, queue, hsend, -⟩
    · rw [hsend]
      exact ⟨rfl, rfl⟩
    · rw [hsend]
      exact ⟨rfl, rfl⟩

lemma sameSettings_sendAll (e : Engine) (clock : ℕ → Time) (alerts : List Alert) :
    SameSettings (e.sendAll sha256 clock alerts) e := by
  induction alerts generalizing e clock with
  | nil => exact ⟨rfl, rfl⟩
  | cons alert alerts ih =>
    have hfirst := sameSettings_send sha256 e (clock 0) alert
    have hrest := ih (e.send sha256 (clock 0) alert).1 fun i => clock (i + 1)
    exact hrest.trans hfirst

/-- What an engine has seen after a send it had seen before, or sees now. -/
lemma lastSeen_send (e : Engine) (now : Time) (alert : Alert) {id : String} {last : Time}
    (h : last ∈ (e.send sha256 now alert).1.lastSeen id) : last ∈ e.lastSeen id ∨ last = now := by
  cases henabled : e.enabled with
  | false =>
    rw [send, if_pos henabled] at h
    exact .inl h
  | true =>
    rcases send_cases sha256 henabled now alert with ⟨-, hsend⟩ | ⟨-, outcome, queue, hsend, -⟩
    · rw [hsend] at h
      exact .inl h
    · rw [hsend] at h
      dsimp only at h
      by_cases hid : id = (alert.complete sha256 now).id
      · rw [hid, Function.update_self] at h
        exact .inr (Option.some.inj h).symm
      · rw [Function.update_of_ne hid] at h
        exact .inl h

lemma lastSeen_sendAll (e : Engine) (clock : ℕ → Time) (alerts : List Alert) {id : String}
    {last : Time} (h : last ∈ (e.sendAll sha256 clock alerts).lastSeen id) :
    last ∈ e.lastSeen id ∨ ∃ i < alerts.length, last = clock i := by
  induction alerts generalizing e clock with
  | nil => exact .inl h
  | cons alert alerts ih =>
    rcases ih (e.send sha256 (clock 0) alert).1 (fun i => clock (i + 1)) h with
      hsent | ⟨i, hi, hnow⟩
    · rcases lastSeen_send sha256 e (clock 0) alert hsent with hold | hfirst
      · exact .inl hold
      · exact .inr ⟨0, Nat.succ_pos _, hfirst⟩
    · exact .inr ⟨i + 1, Nat.succ_lt_succ hi, hnow⟩

/-- An engine that has nothing to forget is like a new one. -/
lemma Alike.renew (h : Alike now e e') {new : Engine} (hsettings : SameSettings new e)
    (hseen : ∀ id, new.lastSeen id = none) (hempty : new.queue = .empty)
    (hquiet : ∀ id, ¬ e.SeenWithin now id) (hqueue : e.queue.alerts = []) :
    Alike now new e' := by
  have hnothing : e.queue = .empty := Queue.eq_empty hqueue
  refine ⟨hsettings.throttle.trans h.throttle, hsettings.enabled.trans h.enabled,
    hempty.trans (hnothing.symm.trans h.queue), ?_⟩
  intro id
  right
  refine ⟨?_, ?_⟩
  · intro last hlast
    rw [hseen] at hlast
    cases hlast
  · exact not_seenWithin_iff.mp (mt (h.seenWithin_iff id).mpr (hquiet id))

/-- The alerts of a batch that are put in the queue. -/
def queuedOf (e : Engine) (clock : ℕ → Time) : List Alert → List Alert
  | [] => []
  | alert :: alerts =>
    let (e, outcome) := e.send sha256 (clock 0) alert
    (if outcome = .queued then [alert.complete sha256 (clock 0)] else []) ++
      queuedOf e (fun i => clock (i + 1)) alerts

/-- A batch that is sent while the clock goes on. -/
lemma Alike.sendAll (h : Alike now e e') {clock : ℕ → Time} (hnow : now ≤ clock 0)
    (hmono : Monotone clock) (alerts : List Alert) :
    e.queuedOf sha256 clock alerts = e'.queuedOf sha256 clock alerts ∧
      Alike (clock alerts.length) (e.sendAll sha256 clock alerts)
        (e'.sendAll sha256 clock alerts) := by
  induction alerts generalizing e e' now clock with
  | nil => exact ⟨rfl, h.mono hnow⟩
  | cons alert alerts ih =>
    obtain ⟨houtcome, hnext⟩ := (h.mono hnow).send sha256 alert
    have hlater : Monotone fun i => clock (i + 1) := fun i j hij =>
      hmono (Nat.add_le_add_right hij 1)
    have hnow' : clock 0 ≤ clock (0 + 1) := hmono (Nat.zero_le 1)
    obtain ⟨hqueued, hlast⟩ := ih hnext hnow' hlater
    refine ⟨?_, hlast⟩
    rw [queuedOf, queuedOf]
    dsimp only
    rw [houtcome, hqueued]

/-- What the worker takes changes the queue only. -/
lemma sameSettings_take (e : Engine) :
    SameSettings ((e.take).elim e Prod.snd) e := by
  rw [Engine.take]
  cases e.queue.pop with
  | none => exact ⟨rfl, rfl⟩
  | some r => exact ⟨rfl, rfl⟩

lemma lastSeen_take (e : Engine) : ((e.take).elim e Prod.snd).lastSeen = e.lastSeen := by
  rw [Engine.take]
  cases e.queue.pop with
  | none => rfl
  | some r => rfl

lemma Alike.take (h : Alike now e e') :
    Alike now ((e.take).elim e Prod.snd) ((e'.take).elim e' Prod.snd) := by
  rw [Engine.take, Engine.take, ← h.queue]
  cases e.queue.pop with
  | none => exact h
  | some r => exact ⟨h.throttle, h.enabled, rfl, h.seen⟩

end Alerting.Engine

namespace Daemon

open Storage Alerting State

variable {V : Type}

/-! ## The pipeline -/

def parseSeverity (value : String) : Severity :=
  match toLower value with
  | "low" => .low
  | "medium" => .medium
  | "high" => .high
  | "critical" => .critical
  | _ => .info

def buildRules (rules : List RuleConfig) : List Rule :=
  rules.map fun rule =>
    { name := rule.name
      scanner := rule.scanner
      metric := rule.metric
      operator := rule.operator
      threshold := rule.threshold
      severity := parseSeverity rule.severity
      description := rule.description }

/-- The correlator of a configuration. -/
def correlatorOf (d : DetectionConfig) : Correlator :=
  .new d.correlationWindowDuration d.correlationMinScanners d.correlationCooldownDuration

/-- What `Run` makes before the first result comes. -/
def Hook.init (cfg : Config) (store : BadgerStore V) : Hook V where
  store := store
  rules := buildRules cfg.detection.rules
  correlator := correlatorOf cfg.detection
  cache := .new 50
  engine := .new cfg.alerting

/-- What the reload function makes anew. -/
def Hook.reload (cfg : Config) (h : Hook V) : Hook V :=
  { h with
    rules := buildRules cfg.detection.rules
    correlator := correlatorOf cfg.detection
    engine := .new cfg.alerting }

/-- The daemon between its scanners and its channels.  The results as they leave the hook and
the alerts that are put in a queue are kept for the record only. -/
structure Pipeline (V : Type) where
  cfg : Config
  clock : Time
  hook : Hook V
  processed : List Result
  queued : List Alert

/-- The readings of a clock that does not go back while a result is looked at. -/
structure Readings extends Clocks where
  forward : correlate ≤ send 0
  mono : Monotone send

/-- All readings at one time. -/
def Readings.at (now : Time) : Readings := ⟨.at now, le_rfl, monotone_const⟩

inductive PipelineEvent
  /-- A scanner returns a result; the others are the readings of the clock, the random suffix
  of its key and the order of its metadata. -/
  | result (readings : Readings) (suffix : String) (order : List (String × Value))
    (result : Result)
  /-- The worker of the engine takes an alert, if there is one. -/
  | take
  /-- The signal for a reload, and the configuration that is loaded then, if it can be. -/
  | reload (now : Time) (loaded : Option Config)

def PipelineEvent.isReload : PipelineEvent → Bool
  | reload _ _ => true
  | _ => false

section Definitions

variable (codec : Codec Baseline V) (results : ResultCodec V) (sha256 : String → String)

def Pipeline.init (cfg : Config) (store : BadgerStore V) (clock : Time) : Pipeline V :=
  ⟨cfg, clock, .init cfg store, [], []⟩

/-- What the hook makes of a result. -/
def Pipeline.process (s : Pipeline V) (readings : Readings) (order : List (String × Value))
    (result : Result) : Result :=
  (Daemon.process codec s.cfg.detection.driftConsecutive readings.toClocks order s.hook
    result).2.2

/-- A step of the pipeline; the clock does not go back. -/
def pipelineStep (s : Pipeline V) : PipelineEvent → Option (Pipeline V)
  | .result readings suffix order result =>
    if readings.correlate < s.clock then none
    else
      let processed := s.process codec readings order result
      let alerts := processed.findings.map (alertFor processed.scannerName)
      some
        { s with
          clock := readings.send processed.findings.length
          hook := onResult codec results sha256 s.cfg.detection.driftConsecutive readings.toClocks
            suffix order s.hook result
          processed := s.processed ++ [processed]
          queued := s.queued ++ s.hook.engine.queuedOf sha256 readings.send alerts }
  | .take =>
    let engine := (s.hook.engine.take).elim s.hook.engine Prod.snd
    some { s with hook := { s.hook with engine := engine } }
  | .reload now loaded =>
    if now < s.clock then none
    else
      match loaded with
      | none => some { s with clock := now }
      | some cfg => some { s with cfg := cfg, clock := now, hook := s.hook.reload cfg }

end Definitions

/-- The configuration that is loaded says the same about detection and alerting. -/
def ChangesNothing (s : Pipeline V) : PipelineEvent → Prop
  | .reload _ (some cfg) =>
    cfg.detection = s.cfg.detection ∧ cfg.alerting = s.cfg.alerting
  | _ => True

/-- There is nothing to forget: no event is in the window of the correlator and no cooldown
is on, and the alert engine has seen no identity within its window and has an empty queue. -/
structure Quiet (h : Hook V) (now : Time) : Prop where
  events : ∀ ev ∈ h.correlator.events, ev.time ≤ now - h.correlator.window
  cooldown : h.correlator.lastTriggered = 0 ∨
    h.correlator.cooldown ≤ now - h.correlator.lastTriggered
  seen : ∀ id, ¬ h.engine.SeenWithin now id
  queue : h.engine.queue.alerts = []

/-- Reloads come when there is nothing to forget. -/
def ReloadsQuietly (s : Pipeline V) : PipelineEvent → Prop
  | .reload now (some _) => Quiet s.hook now
  | _ => True

/-! ## Two runs side by side -/

variable {codec : Codec Baseline V} {results : ResultCodec V} {sha256 : String → String}

/-- The parts that a reload makes anew have the settings of the configuration, and no time is
negative. -/
structure Made (s : Pipeline V) : Prop where
  rules : s.hook.rules = buildRules s.cfg.detection.rules
  correlator : Correlator.SameSettings s.hook.correlator (correlatorOf s.cfg.detection)
  engine : Engine.SameSettings s.hook.engine (.new s.cfg.alerting)
  clock : 0 ≤ s.clock
  triggered : 0 ≤ s.hook.correlator.lastTriggered

/-- Two pipelines that have given the same answers and will go on to. -/
structure Together (s s' : Pipeline V) : Prop where
  detection : s.cfg.detection = s'.cfg.detection
  alerting : s.cfg.alerting = s'.cfg.alerting
  clock : s'.clock ≤ s.clock
  store : s.hook.store = s'.hook.store
  rules : s.hook.rules = s'.hook.rules
  cache : s.hook.cache = s'.hook.cache
  correlator : Correlator.Alike s.clock s.hook.correlator s'.hook.correlator
  engine : Engine.Alike s.clock s.hook.engine s'.hook.engine
  processed : s.processed = s'.processed
  queued : s.queued = s'.queued

lemma made_init (cfg : Config) (store : BadgerStore V) {clock : Time} (h : 0 ≤ clock) :
    Made (.init cfg store clock) :=
  ⟨rfl, ⟨rfl, rfl, rfl⟩, ⟨rfl, rfl⟩, h, le_rfl⟩

lemma together_refl (s : Pipeline V) : Together s s :=
  ⟨rfl, rfl, le_rfl, rfl, rfl, rfl, Correlator.alike_refl _ _, Engine.alike_refl _ _, rfl, rfl⟩

/-- The correlator is given one result, with the findings of the rules and the drifts in it. -/
lemma exists_added (codec : Codec Baseline V) (results : ResultCodec V) (sha256 : String → String)
    (h : Hook V) (clocks : Clocks) (result : Result) (suffix : String)
    (order : List (String × Value)) (consecutive : ℤ) :
    ∃ r, (onResult codec results sha256 consecutive clocks suffix order h result).correlator =
      (h.correlator.add clocks.correlate r).1 := ⟨_, rfl⟩

section Steps

variable {s s' t : Pipeline V} {now : Time} {readings : Readings} {suffix : String}
  {order : List (String × Value)} {result : Result}

/-- The findings that are looked at by the correlator. -/
lemma process_alike (codec : Codec Baseline V) {clocks : Clocks} {h h' : Hook V}
    (hstore : h.store = h'.store) (hrules : h.rules = h'.rules)
    (hcorrelator : Correlator.Alike clocks.correlate h.correlator h'.correlator)
    (consecutive : ℤ) (order : List (String × Value)) (result : Result) :
    (process codec consecutive clocks order h result).1 =
        (process codec consecutive clocks order h' result).1 ∧
      Correlator.Alike clocks.correlate (process codec consecutive clocks order h result).2.1
        (process codec consecutive clocks order h' result).2.1 ∧
      (process codec consecutive clocks order h result).2.2 =
        (process codec consecutive clocks order h' result).2.2 := by
  simp only [process, hstore, hrules]
  have hadd (r : Result) := hcorrelator.add r
  refine ⟨trivial, (hadd _).2, ?_⟩
  rw [(hadd _).1]

lemma step_result (h : pipelineStep codec results sha256 s (.result readings suffix order result) =
    some t) : s.clock ≤ readings.correlate ∧
      t = { s with
        clock := readings.send (s.process codec readings order result).findings.length
        hook := onResult codec results sha256 s.cfg.detection.driftConsecutive readings.toClocks
          suffix order s.hook result
        processed := s.processed ++ [s.process codec readings order result]
        queued := s.queued ++ s.hook.engine.queuedOf sha256 readings.send
          ((s.process codec readings order result).findings.map
            (alertFor (s.process codec readings order result).scannerName)) } := by
  rw [pipelineStep] at h
  split_ifs at h with hearly
  exact ⟨not_lt.mp hearly, (Option.some.inj h).symm⟩

/-- The clock has not gone back when all alerts have been sent. -/
lemma Readings.correlate_le (readings : Readings) (n : ℕ) :
    readings.correlate ≤ readings.send n :=
  readings.forward.trans (readings.mono (Nat.zero_le n))

/-- A signal with which no configuration can be loaded changes nothing but the time. -/
lemma step_reload_none (h : pipelineStep codec results sha256 s (.reload now none) = some t) :
    s.clock ≤ now ∧ t = { s with clock := now } := by
  rw [pipelineStep] at h
  split_ifs at h with hearly
  exact ⟨not_lt.mp hearly, (Option.some.inj h).symm⟩

lemma step_reload_some {cfg : Config}
    (h : pipelineStep codec results sha256 s (.reload now (some cfg)) = some t) :
    s.clock ≤ now ∧ t = { s with cfg := cfg, clock := now, hook := s.hook.reload cfg } := by
  rw [pipelineStep] at h
  split_ifs at h with hearly
  exact ⟨not_lt.mp hearly, (Option.some.inj h).symm⟩

lemma made_step {e : PipelineEvent} (h : Made s)
    (hstep : pipelineStep codec results sha256 s e = some t) : Made t := by
  cases e with
  | result readings suffix order result =>
    obtain ⟨hclock, rfl⟩ := step_result hstep
    have hnow := h.clock.trans hclock
    obtain ⟨r, hadded⟩ := exists_added codec results sha256 s.hook readings.toClocks result suffix
      order s.cfg.detection.driftConsecutive
    obtain ⟨hkept, htriggered⟩ :=
      Correlator.sameSettings_add s.hook.correlator readings.correlate r
    refine ⟨h.rules, ?_, ?_, hnow.trans (readings.correlate_le _), ?_⟩
    · dsimp only
      rw [hadded]
      exact hkept.trans h.correlator
    · have hsent := Engine.sameSettings_sendAll sha256 s.hook.engine readings.send
        ((s.process codec readings order result).findings.map (alertFor result.scannerName))
      exact hsent.trans h.engine
    · dsimp only
      rw [hadded]
      -- it has triggered before or with this result
      rcases htriggered with hlast | hlast
      · rw [hlast]
        exact h.triggered
      · rw [hlast]
        exact hnow
  | take =>
    obtain rfl := Option.some.inj hstep
    have htaken := Engine.sameSettings_take s.hook.engine
    exact ⟨h.rules, h.correlator, htaken.trans h.engine, h.clock, h.triggered⟩
  | reload now loaded =>
    cases loaded with
    | none =>
      obtain ⟨hlater, rfl⟩ := step_reload_none hstep
      exact ⟨h.rules, h.correlator, h.engine, h.clock.trans hlater, h.triggered⟩
    | some cfg =>
      obtain ⟨hlater, rfl⟩ := step_reload_some hstep
      exact ⟨rfl, ⟨rfl, rfl, rfl⟩, ⟨rfl, rfl⟩, h.clock.trans hlater, le_rfl⟩

/-- A step that both can make keeps them together. -/
lemma together_step {e : PipelineEvent} (h : Together s s') (hkeep : e.isReload = false)
    (hstep : pipelineStep codec results sha256 s e = some t) :
    ∃ t', pipelineStep codec results sha256 s' e = some t' ∧ Together t t' := by
  cases e with
  | result readings suffix order result =>
    obtain ⟨hclock, rfl⟩ := step_result hstep
    have hclock' : ¬ readings.correlate < s'.clock := not_lt.mpr (h.clock.trans hclock)
    refine ⟨_, by rw [pipelineStep, if_neg hclock'], ?_⟩
    obtain ⟨hstore, hcorrelator, hprocessed⟩ := process_alike codec h.store h.rules
      (h.correlator.mono hclock) s.cfg.detection.driftConsecutive order result
    have hresult : s.process codec readings order result =
        s'.process codec readings order result := by
      rw [Pipeline.process, Pipeline.process, hprocessed, h.detection]
    obtain ⟨hqueued, hengine⟩ := (h.engine.mono hclock).sendAll sha256 readings.forward
      readings.mono ((s.process codec readings order result).findings.map
        (alertFor (s.process codec readings order result).scannerName))
    have hboth := h.detection
    -- the same result is processed, so that the same is stored, cached and alerted
    refine ⟨h.detection, h.alerting, ?_, ?_, h.rules, ?_, ?_, ?_, ?_, ?_⟩
    · show readings.send (s'.process codec readings order result).findings.length ≤
        readings.send (s.process codec readings order result).findings.length
      rw [hresult]
    · show (ResultsStore.save results _ readings.save suffix
          (s.process codec readings order result)).toOption.getD _ =
        (ResultsStore.save results _ readings.save suffix
          (s'.process codec readings order result)).toOption.getD _
      rw [hresult, hboth, h.store]
    · show s.hook.cache.add (s.process codec readings order result) =
        s'.hook.cache.add (s'.process codec readings order result)
      rw [h.cache, hresult]
    · show Correlator.Alike _
        (process codec s.cfg.detection.driftConsecutive readings.toClocks order s.hook
          result).2.1
        (process codec s'.cfg.detection.driftConsecutive readings.toClocks order s'.hook
          result).2.1
      rw [← hboth]
      exact hcorrelator.mono (readings.correlate_le _)
    · show Engine.Alike (readings.send (s.process codec readings order result).findings.length)
        (s.hook.engine.sendAll sha256 readings.send
          ((s.process codec readings order result).findings.map
            (alertFor (s.process codec readings order result).scannerName)))
        (s'.hook.engine.sendAll sha256 readings.send
          ((s'.process codec readings order result).findings.map
            (alertFor (s'.process codec readings order result).scannerName)))
      rw [← hresult]
      rwa [List.length_map] at hengine
    · show s.processed ++ [s.process codec readings order result] = _
      rw [h.processed, hresult]
    · show s.queued ++ _ = s'.queued ++ _
      rw [h.queued, hqueued, hresult]
  | take =>
    obtain rfl := Option.some.inj hstep
    refine ⟨_, rfl, ?_⟩
    exact ⟨h.detection, h.alerting, h.clock, h.store, h.rules, h.cache, h.correlator,
      h.engine.take, h.processed, h.queued⟩
  | reload now loaded => cases hkeep

/-- A reload that comes when there is nothing to forget does not get them apart. -/
lemma together_reload {e : PipelineEvent} (hmade : Made s) (hmade' : Made s') (h : Together s s')
    (hreload : e.isReload = true) (hsame : ChangesNothing s e) (hquiet : ReloadsQuietly s e)
    (hstep : pipelineStep codec results sha256 s e = some t) : Together t s' := by
  cases e with
  | reload now loaded =>
    cases loaded with
    | none =>
      obtain ⟨hlater, rfl⟩ := step_reload_none hstep
      exact ⟨h.detection, h.alerting, h.clock.trans hlater, h.store, h.rules, h.cache,
        h.correlator.mono hlater, h.engine.mono hlater, h.processed, h.queued⟩
    | some cfg =>
      obtain ⟨hlater, rfl⟩ := step_reload_some hstep
      obtain ⟨hdetection, halerting⟩ : cfg.detection = s.cfg.detection ∧
        cfg.alerting = s.cfg.alerting := hsame
      have hnothing : Quiet s.hook now := hquiet
      -- what is made anew has the settings of what it replaces, which has nothing to forget
      refine ⟨hdetection.trans h.detection, halerting.trans h.alerting, h.clock.trans hlater,
        h.store, ?_, h.cache, ?_, ?_, h.processed, h.queued⟩
      · show buildRules cfg.detection.rules = s'.hook.rules
        rw [hdetection, ← hmade.rules, h.rules]
      · show Correlator.Alike now (correlatorOf cfg.detection) s'.hook.correlator
        rw [hdetection]
        exact (h.correlator.mono hlater).renew hmade.correlator.symm rfl rfl hnothing.events
          hnothing.cooldown hmade'.triggered
      · show Engine.Alike now (.new cfg.alerting) s'.hook.engine
        rw [halerting]
        exact (h.engine.mono hlater).renew hmade.engine.symm (fun _ => rfl) rfl hnothing.seen
          hnothing.queue
  | _ => cases hreload

end Steps

/-! ## All runs -/

/-- **A reload that changes nothing is not seen** in the results and in the alerts that are
queued, in a run whose reloads come when there is nothing to forget. -/
theorem reloads_unseen (codec : Codec Baseline V) (results : ResultCodec V)
    (sha256 : String → String) (cfg : Config) (store : BadgerStore V) (clock : ℕ)
    {es : List PipelineEvent} {s : Pipeline V}
    (hrun : run (pipelineStep codec results sha256) (.init cfg store clock) es = some s)
    (hsame : Meets (pipelineStep codec results sha256) ChangesNothing (.init cfg store clock) es)
    (hquiet : Meets (pipelineStep codec results sha256) ReloadsQuietly (.init cfg store clock) es) :
    ∃ t, run (pipelineStep codec results sha256) (.init cfg store clock)
        (es.filter fun e => !e.isReload) = some t ∧
      s.processed = t.processed ∧ s.queued = t.queued := by
  have hmade : Made (.init cfg store (clock : ℤ)) := made_init cfg store (Int.natCast_nonneg clock)
  have hkept (s s' : Pipeline V) (e : PipelineEvent) (t : Pipeline V)
      (hR : Made s ∧ Made s' ∧ Together s s') (hp : (!e.isReload) = true)
      (_ : ChangesNothing s e ∧ ReloadsQuietly s e)
      (hstep : pipelineStep codec results sha256 s e = some t) :
      ∃ t', pipelineStep codec results sha256 s' e = some t' ∧
        Made t ∧ Made t' ∧ Together t t' := by
    have hkeep : e.isReload = false := by simpa using hp
    obtain ⟨t', ht', htogether⟩ := together_step hR.2.2 hkeep hstep
    exact ⟨t', ht', made_step hR.1 hstep, made_step hR.2.1 ht', htogether⟩
  have hleft (s s' : Pipeline V) (e : PipelineEvent) (t : Pipeline V)
      (hR : Made s ∧ Made s' ∧ Together s s') (hp : (!e.isReload) = false)
      (hC : ChangesNothing s e ∧ ReloadsQuietly s e)
      (hstep : pipelineStep codec results sha256 s e = some t) :
      Made t ∧ Made s' ∧ Together t s' := by
    have hreload : e.isReload = true := by simpa using hp
    exact ⟨made_step hR.1 hstep, hR.2.1,
      together_reload hR.1 hR.2.1 hR.2.2 hreload hC.1 hC.2 hstep⟩
  obtain ⟨t, ht, -, -, htogether⟩ := exists_run_filter hkept hleft
    ⟨hmade, hmade, together_refl _⟩ (meets_and hsame hquiet) hrun
  exact ⟨t, ht, htogether.processed, htogether.queued⟩

/-! ## Reloads after a while -/

/-- What is remembered is of the past. -/
structure Past (s : Pipeline V) : Prop where
  events : ∀ ev ∈ s.hook.correlator.events, ev.time ≤ s.clock
  triggered : s.hook.correlator.lastTriggered ≤ s.clock
  seen : ∀ id, ∀ last ∈ s.hook.engine.lastSeen id, last ≤ s.clock

lemma past_init (cfg : Config) (store : BadgerStore V) {clock : Time} (h : 0 ≤ clock) :
    Past (.init cfg store clock) := by
  refine ⟨?_, h, ?_⟩
  · intro ev hev
    exact absurd hev List.not_mem_nil
  · intro id last hlast
    cases hlast

lemma past_step {s t : Pipeline V} {e : PipelineEvent} (hmade : Made s) (h : Past s)
    (hstep : pipelineStep codec results sha256 s e = some t) : Past t := by
  cases e with
  | result readings suffix order result =>
    obtain ⟨hclock, rfl⟩ := step_result hstep
    obtain ⟨r, hadded⟩ := exists_added codec results sha256 s.hook readings.toClocks result suffix
      order s.cfg.detection.driftConsecutive
    have hlate := readings.correlate_le (s.process codec readings order result).findings.length
    refine ⟨?_, ?_, ?_⟩
    · dsimp only
      rw [hadded]
      intro ev hev
      rcases Correlator.mem_events_add s.hook.correlator readings.correlate r hev with hold | hnew
      · exact ((h.events ev hold).trans hclock).trans hlate
      · exact hnew.le.trans hlate
    · dsimp only
      rw [hadded]
      rcases (Correlator.sameSettings_add s.hook.correlator readings.correlate r).2 with
        hlast | hlast
      · rw [hlast]
        exact (h.triggered.trans hclock).trans hlate
      · exact hlast.le.trans hlate
    · intro id last hlast
      rcases Engine.lastSeen_sendAll sha256 s.hook.engine readings.send _ hlast with
        hold | ⟨i, hi, rfl⟩
      · exact ((h.seen id last hold).trans hclock).trans hlate
      · rw [List.length_map] at hi
        exact readings.mono hi.le
  | take =>
    obtain rfl := Option.some.inj hstep
    refine ⟨h.events, h.triggered, ?_⟩
    intro id last hlast
    rw [Engine.lastSeen_take] at hlast
    exact h.seen id last hlast
  | reload now loaded =>
    cases loaded with
    | none =>
      obtain ⟨hlater, rfl⟩ := step_reload_none hstep
      exact ⟨fun ev hev => (h.events ev hev).trans hlater, h.triggered.trans hlater,
        fun id last hlast => (h.seen id last hlast).trans hlater⟩
    | some cfg =>
      obtain ⟨hlater, rfl⟩ := step_reload_some hstep
      -- the parts that are made anew remember nothing
      have hnew := past_init cfg s.hook.store (hmade.clock.trans hlater)
      exact ⟨hnew.events, hnew.triggered, hnew.seen⟩

/-- Reloads come when all windows have passed and all alerts have been taken. -/
def ReloadsLate (s : Pipeline V) : PipelineEvent → Prop
  | .reload now (some _) =>
    s.clock + s.hook.correlator.window ≤ now ∧ s.clock + s.hook.correlator.cooldown ≤ now ∧
      s.clock + s.hook.engine.throttle ≤ now ∧ s.hook.engine.queue.alerts = []
  | _ => True

/-- Then there is nothing to forget. -/
lemma quiet_of_late {s : Pipeline V} {e : PipelineEvent} (h : Past s) (hlate : ReloadsLate s e) :
    ReloadsQuietly s e := by
  cases e with
  | reload now loaded =>
    cases loaded with
    | none => trivial
    | some cfg =>
      obtain ⟨hwindow, hcooldown, hthrottle, hqueue⟩ := hlate
      refine ⟨?_, .inr ?_, ?_, hqueue⟩
      · intro ev hev
        have hpast := h.events ev hev
        linarith
      · have hpast := h.triggered
        linarith
      · intro id
        rw [Engine.not_seenWithin_iff]
        intro last hlast
        have hpast := h.seen id last hlast
        linarith
  | _ => trivial

/-- Reloads that come late enough are quiet ones. -/
theorem quiet_of_meets_late (codec : Codec Baseline V) (results : ResultCodec V)
    (sha256 : String → String) (cfg : Config) (store : BadgerStore V) (clock : ℕ)
    {es : List PipelineEvent}
    (h : Meets (pipelineStep codec results sha256) ReloadsLate (.init cfg store clock) es) :
    Meets (pipelineStep codec results sha256) ReloadsQuietly (.init cfg store clock) es := by
  have hclock : 0 ≤ (clock : ℤ) := Int.natCast_nonneg clock
  exact meets_of_meets (I := fun s => Made s ∧ Past s)
    (fun _ _ _ hs _ hstep => ⟨made_step hs.1 hstep, past_step hs.1 hs.2 hstep⟩)
    (fun _ _ hs hlate => quiet_of_late hs.2 hlate) ⟨made_init cfg store hclock,
      past_init cfg store hclock⟩ h

/-- Alerting is on. -/
def alertingConfig : Config :=
  { Config.default with alerting := { Config.default.alerting with enabled := true } }

/-- The same finding before a reload and after it. -/
def aroundReload (wait : Duration) : List PipelineEvent :=
  [.result (.at unixEpoch) "aa" [] (Correlator.oneFinding "cpu"), .take,
    .reload (unixEpoch + wait) (some alertingConfig),
    .result (.at (unixEpoch + wait)) "bb" [] (Correlator.oneFinding "cpu")]

instance (s : Pipeline V) : ∀ e, Decidable (ChangesNothing s e)
  | .reload _ (some _) => inferInstanceAs (Decidable (_ ∧ _))
  | .reload _ none => isTrue trivial
  | .take => isTrue trivial
  | .result _ _ _ _ => isTrue trivial

instance (s : Pipeline V) : ∀ e, Decidable (ReloadsLate s e)
  | .reload _ (some _) => inferInstanceAs (Decidable (_ ∧ _ ∧ _ ∧ _))
  | .reload _ none => isTrue trivial
  | .take => isTrue trivial
  | .result _ _ _ _ => isTrue trivial

/-- Six minutes later all windows have passed, and the finding is alerted again anyway. -/
theorem reloads_unseen_late :
    ∃ s ∈ run (pipelineStep baselineCodec resultCodec id)
        (.init alertingConfig .empty (0 : ℕ)) (aroundReload (6 * minute)),
      ∃ t ∈ run (pipelineStep baselineCodec resultCodec id)
          (.init alertingConfig .empty (0 : ℕ))
          ((aroundReload (6 * minute)).filter fun e => !e.isReload),
        s.processed = t.processed ∧ s.queued = t.queued ∧ s.queued.length = 2 := by
  obtain ⟨s, hs, hlength⟩ : ∃ s ∈ run (pipelineStep baselineCodec resultCodec id)
      (.init alertingConfig .empty (0 : ℕ)) (aroundReload (6 * minute)), s.queued.length = 2 := by
    decide +kernel
  obtain ⟨t, ht, hprocessed, hqueued⟩ :=
    reloads_unseen baselineCodec resultCodec id alertingConfig .empty 0 hs (by decide +kernel)
      (quiet_of_meets_late baselineCodec resultCodec id alertingConfig .empty 0 (by decide +kernel))
  exact ⟨s, hs, t, ht, hprocessed, hqueued, hlength⟩

/-- The finding is alerted again a second later, which it is not without the reload. -/
theorem reload_seen :
    Meets (pipelineStep baselineCodec resultCodec id) ChangesNothing
        (.init alertingConfig .empty 0) (aroundReload second) ∧
      ∃ s ∈ run (pipelineStep baselineCodec resultCodec id) (.init alertingConfig .empty 0)
          (aroundReload second),
        ∃ t ∈ run (pipelineStep baselineCodec resultCodec id) (.init alertingConfig .empty 0)
            ((aroundReload second).filter fun e => !e.isReload),
          s.queued ≠ t.queued := by
  decide +kernel

end Daemon

end Arcsent
