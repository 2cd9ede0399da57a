/-
# Which alerts are suppressed

The engine remembers an identity when it has passed the duplicate check, which is before
it is known whether the queue has room.  Along any run of sends and of the worker taking
alerts off the queue, suppression is therefore duplicate suppression exactly until an
alert comes within the window of one that was dropped.
-/
import Arcsent.Alerting.Engine
import Arcsent.Lib.Runs
import Mathlib.Tactic.Linarith

namespace Arcsent.Alerting

open Arcsent.Go Arcsent.Scanner Arcsent.Lib

/-! ## Traffic -/

/-- A step of the system. -/
inductive Event
  /-- A call of `Send` at a time. -/
  | send (now : Time) (alert : Alert)
  /-- The worker takes an alert off the queue. -/
  | take

/-- The engine with the time of the last call and, for the record only, the identities
that were put in the queue and those that were dropped, with their times. -/
structure Traffic where
  engine : Engine
  clock : Time
  queued : List (String × Time)
  dropped : List (String × Time)

/-- An engine that has just been made. -/
def Traffic.init (cfg : AlertingConfig) (start : Time) : Traffic := ⟨.new cfg, start, [], []⟩

variable (sha256 : String → String)

def step (st : Traffic) : Event → Option Traffic
  | .send now alert =>
    if now < st.clock then none
    else
      let id := (alert.complete sha256 now).id
      match st.engine.send sha256 now alert with
      | (e, .queued) => some ⟨e, now, (id, now) :: st.queued, st.dropped⟩
      | (e, .dropped _) => some ⟨e, now, st.queued, (id, now) :: st.dropped⟩
      | (e, _) => some ⟨e, now, st.queued, st.dropped⟩
  | .take => (st.engine.take).map fun (_, e) => { st with engine := e }

/-- An identity was put in the queue within the window. -/
def QueuedWithin (st : Traffic) (now : Time) (id : String) : Prop :=
  ∃ q ∈ st.queued, q.1 = id ∧ now - q.2 < st.engine.throttle

/-- A send puts its alert in the queue if and only if there is room and no alert with the
same identity was put there within the window; and it is reported as a duplicate only if
there was one. -/
def SuppressesDuplicates (st : Traffic) : Event → Prop
  | .send now alert =>
    st.clock ≤ now →
      let a := alert.complete sha256 now
      ((st.engine.send sha256 now alert).1.queue.alerts = st.engine.queue.alerts ++ [a] ↔
        st.engine.queue.Free ∧ ¬ QueuedWithin st now a.id) ∧
      ((st.engine.send sha256 now alert).2 = .throttled a.id → QueuedWithin st now a.id)
  | .take => True

/-- A send does not come within the window after one of the same identity was dropped. -/
def NotAfterDrop (st : Traffic) : Event → Prop
  | .send now alert =>
    st.clock ≤ now →
      ∀ d ∈ st.dropped, d.1 = (alert.complete sha256 now).id → st.engine.throttle ≤ now - d.2
  | .take => True

instance (st : Traffic) : ∀ ev, Decidable (NotAfterDrop sha256 st ev)
  | .send now alert => inferInstanceAs (Decidable (st.clock ≤ now →
      ∀ d ∈ st.dropped, d.1 = (alert.complete sha256 now).id → st.engine.throttle ≤ now - d.2))
  | .take => inferInstanceAs (Decidable True)

/-! ## The invariant -/

/-- What `lastSeen` has to do with the identities queued and dropped. -/
structure Recorded (st : Traffic) : Prop where
  enabled : st.engine.enabled = true
  /-- It is the time of a send that was queued or dropped, -/
  seen : ∀ id s, st.engine.lastSeen id = some s →
    s ≤ st.clock ∧ ((id, s) ∈ st.queued ∨ (id, s) ∈ st.dropped)
  /-- the last one, the others being a window apart, -/
  last : ∀ id s, (id, s) ∈ st.queued ∨ (id, s) ∈ st.dropped →
    ∃ l, st.engine.lastSeen id = some l ∧ (s = l ∨ s ≤ l ∧ s + st.engine.throttle ≤ l)
  /-- and no send is both. -/
  apart : ∀ id s, 0 < st.engine.throttle → (id, s) ∈ st.queued → (id, s) ∉ st.dropped

lemma Recorded.init {cfg : AlertingConfig} (h : cfg.enabled = true) (start : Time) :
    Recorded (.init cfg start) :=
  ⟨h, fun _ _ hs => by simp [Traffic.init, Engine.new] at hs,
    fun _ _ hs => by simp [Traffic.init] at hs, fun _ _ _ hs => by simp [Traffic.init] at hs⟩

variable {sha256}

/-- The record of a send that passed the duplicate check, whichever list it is added to. -/
lemma Recorded.passed {st : Traffic} (h : Recorded st) {now : Time} {id : String}
    (hnow : st.clock ≤ now) (hnot : ¬ st.engine.SeenWithin now id) (queue : Queue)
    {queued dropped : List (String × Time)}
    (hpass : (queued = (id, now) :: st.queued ∧ dropped = st.dropped) ∨
      (queued = st.queued ∧ dropped = (id, now) :: st.dropped)) :
    Recorded ⟨{ st.engine with
      lastSeen := Function.update st.engine.lastSeen id (some now)
      queue := queue }, now, queued, dropped⟩ := by
  -- what was recorded before is recorded still, and the send is the only thing new
  have hmem : ∀ x, (x ∈ queued ∨ x ∈ dropped) ↔
      x = (id, now) ∨ x ∈ st.queued ∨ x ∈ st.dropped := by
    rintro x
    rcases hpass with ⟨rfl, rfl⟩ | ⟨rfl, rfl⟩
    · rw [List.mem_cons, or_assoc]
    · rw [List.mem_cons, or_left_comm]
  -- an earlier send of the same identity is a window away
  have hold : ∀ s, (id, s) ∈ st.queued ∨ (id, s) ∈ st.dropped →
      s ≤ now ∧ s + st.engine.throttle ≤ now := by
    intro s hs
    obtain ⟨l, hl, hle⟩ := h.last id s hs
    have hclock := (h.seen id l hl).1
    have hgap : ¬ now - l < st.engine.throttle := fun hlt => hnot ⟨l, hl, hlt⟩
    rcases hle with rfl | ⟨hle, hgap'⟩ <;> constructor <;> linarith
  refine ⟨h.enabled, fun id' s hs => ?_, fun id' s hs => ?_, fun id' s hpos hq hd => ?_⟩
  · dsimp only at hs
    by_cases hid : id' = id
    · subst hid
      obtain rfl : now = s := by simpa using hs
      exact ⟨le_rfl, (hmem _).mpr (.inl rfl)⟩
    · rw [Function.update_of_ne hid] at hs
      obtain ⟨hle, hin⟩ := h.seen id' s hs
      exact ⟨hle.trans hnow, (hmem _).mpr (.inr hin)⟩
  · dsimp only
    rcases (hmem _).mp hs with heq | hin
    · obtain ⟨rfl, rfl⟩ := Prod.mk.inj heq
      exact ⟨s, by simp, .inl rfl⟩
    · by_cases hid : id' = id
      · subst hid
        exact ⟨now, by simp, .inr (hold s hin)⟩
      · rw [Function.update_of_ne hid]
        exact h.last id' s hin
  · dsimp only at hpos
    rcases hpass with ⟨rfl, rfl⟩ | ⟨rfl, rfl⟩
    · rcases List.mem_cons.mp hq with heq | hq
      · obtain ⟨rfl, rfl⟩ := Prod.mk.inj heq
        have hgap := (hold s (.inr hd)).2
        linarith
      · exact h.apart id' s hpos hq hd
    · rcases List.mem_cons.mp hd with heq | hd
      · obtain ⟨rfl, rfl⟩ := Prod.mk.inj heq
        have hgap := (hold s (.inl hq)).2
        linarith
      · exact h.apart id' s hpos hq hd

lemma Recorded.step {st t : Traffic} {ev : Event} (h : Recorded st)
    (hstep : step sha256 st ev = some t) : Recorded t := by
  cases ev with
  | take =>
    obtain ⟨⟨a, e⟩, htake, rfl⟩ := Option.map_eq_some_iff.mp hstep
    obtain ⟨⟨a', queue⟩, -, heq⟩ := Option.map_eq_some_iff.mp htake
    obtain ⟨-, rfl⟩ := Prod.mk.inj heq
    exact ⟨h.enabled, h.seen, h.last, h.apart⟩
  | send now alert =>
    rw [Alerting.step] at hstep
    split_ifs at hstep with hlt
    have hnow : st.clock ≤ now := not_lt.mp hlt
    rcases Engine.send_cases sha256 h.enabled now alert with
      ⟨-, hsend⟩ | ⟨hnot, outcome, queue, hsend, hfate⟩
    · rw [hsend] at hstep
      obtain rfl := Option.some.inj hstep
      refine ⟨h.enabled, fun id s hs => ?_, h.last, h.apart⟩
      exact ⟨(h.seen id s hs).1.trans hnow, (h.seen id s hs).2⟩
    · rw [hsend] at hstep
      rcases hfate with ⟨-, rfl, -⟩ | ⟨-, rfl, -⟩
      · obtain rfl := Option.some.inj hstep
        exact h.passed hnow hnot queue (.inl ⟨rfl, rfl⟩)
      · obtain rfl := Option.some.inj hstep
        exact h.passed hnow hnot queue (.inr ⟨rfl, rfl⟩)

/-! ## When suppression is exact -/

/-- An identity dropped within the window is the one last seen, and was not queued. -/
lemma Recorded.not_queuedWithin {st : Traffic} (h : Recorded st) {now s : Time} {id : String}
    (hnow : st.clock ≤ now) (hs : (id, s) ∈ st.dropped) (hlt : now - s < st.engine.throttle) :
    st.engine.SeenWithin now id ∧ ¬ QueuedWithin st now id := by
  obtain ⟨l, hl, hle⟩ := h.last id s (.inr hs)
  have hclock := (h.seen id l hl).1
  obtain rfl : s = l := hle.resolve_right fun hle => by linarith [hle.2]
  refine ⟨⟨s, hl, hlt⟩, ?_⟩
  rintro ⟨⟨_, q⟩, hq, rfl, hqlt⟩
  obtain ⟨l', hl', hle'⟩ := h.last _ q (.inl hq)
  obtain rfl : s = l' := Option.some.inj (hl.symm.trans hl')
  obtain rfl : q = s := hle'.resolve_right fun hle' => by linarith [hle'.2]
  exact h.apart _ q (by linarith) hq hs

/-- When nothing was dropped within the window, what was seen within it was queued. -/
lemma Recorded.seenWithin_iff {st : Traffic} (h : Recorded st) {now : Time} {id : String}
    (hnot : ∀ d ∈ st.dropped, d.1 = id → st.engine.throttle ≤ now - d.2) :
    st.engine.SeenWithin now id ↔ QueuedWithin st now id := by
  constructor
  · rintro ⟨l, hl, hlt⟩
    rcases (h.seen id l hl).2 with hq | hd
    · exact ⟨(id, l), hq, rfl, hlt⟩
    · exact absurd (hnot (id, l) hd rfl) (not_le.mpr hlt)
  · rintro ⟨⟨id, s⟩, hq, rfl, hlt⟩
    obtain ⟨l, hl, hle⟩ := h.last id s (.inl hq)
    exact ⟨l, hl, by rcases hle with rfl | hle <;> linarith⟩

/-- One send suppresses exactly the duplicates if and only if it does not follow a drop. -/
lemma Recorded.holds_next_iff {st : Traffic} (h : Recorded st) (ev : Event) :
    SuppressesDuplicates sha256 st ev ↔ NotAfterDrop sha256 st ev := by
  cases ev with
  | take => exact Iff.rfl
  | send now alert =>
    refine forall_congr' fun hnow => ?_
    dsimp only
    generalize hid : alert.complete sha256 now = a
    rcases Engine.send_cases sha256 h.enabled now alert with
      ⟨hseen, hsend⟩ | ⟨hnot, outcome, queue, hsend, hfate⟩
    · rw [hid] at hseen hsend
      rw [hsend]
      constructor
      · rintro ⟨-, hdup⟩ ⟨_, s⟩ hs rfl
        by_contra hgap
        exact (h.not_queuedWithin hnow hs (not_le.mp hgap)).2 (hdup rfl)
      · intro hdrop
        have hdup := (h.seenWithin_iff hdrop).mp hseen
        exact ⟨⟨fun heq => by simp at heq, fun hno => absurd hdup hno.2⟩, fun _ => hdup⟩
    · rw [hid] at hnot hsend hfate
      rw [hsend]
      have hdrop : ∀ d ∈ st.dropped, d.1 = a.id → st.engine.throttle ≤ now - d.2 := by
        rintro ⟨_, s⟩ hs rfl
        by_contra hgap
        exact hnot (h.not_queuedWithin hnow hs (not_le.mp hgap)).1
      have hdup : ¬ QueuedWithin st now a.id := fun hq => hnot ((h.seenWithin_iff hdrop).mpr hq)
      refine ⟨fun _ => hdrop, fun _ => ?_⟩
      rcases hfate with ⟨hfree, rfl, halerts⟩ | ⟨hfull, rfl, rfl⟩
      · exact ⟨⟨fun _ => ⟨hfree, hdup⟩, fun _ => halerts⟩, fun heq => by simp at heq⟩
      · exact ⟨⟨fun heq => by simp at heq, fun hno => absurd hno.1 hfull⟩,
          fun heq => by simp at heq⟩

/-- **Suppression is exactly duplicate suppression as long as no send comes within the
window after one of the same identity was dropped**, along every run of an enabled
engine. -/
theorem suppressesDuplicates_iff (sha256 : String → String) (cfg : AlertingConfig)
    (h : cfg.enabled = true) (start : Time) (es : List Event) :
    Meets (step sha256) (SuppressesDuplicates sha256) (.init cfg start) es ↔
      Meets (step sha256) (NotAfterDrop sha256) (.init cfg start) es :=
  meets_congr (I := Recorded) (fun _ _ _ hst hstep => hst.step hstep)
    (fun _ ev hst => hst.holds_next_iff ev) (.init h start) es

/-! ## Two runs -/

/-- Alerting with its default window of five minutes. -/
def enabledAlerting : AlertingConfig := { Config.default.alerting with enabled := true }

/-- An alert with a given identity. -/
def alertOf (id : String) : Alert where
  id := id
  timestamp := 0
  severity := .high
  scannerName := "system.auth_log"
  finding := ⟨"x", .high, "auth", "test", [], ""⟩
  reason := "finding_detected"

/-- A repeated alert is put in the queue once. -/
theorem suppressesDuplicates_of_repeat :
    Meets (step id) (SuppressesDuplicates id) (.init enabledAlerting 0)
      [.send 1 (alertOf "a"), .send 2 (alertOf "a"), .take, .send 3 (alertOf "b")] :=
  (suppressesDuplicates_iff id enabledAlerting rfl 0 _).mpr (by decide +kernel)

/-- A burst of one alert every ten minutes, none of them taken, then an alert that finds
the queue full, then a slot that becomes free. -/
def burst : List Event :=
  (List.range queueSize).map (fun i => .send (i * (10 * minute)) (alertOf "a")) ++
    [.send (queueSize * (10 * minute)) (alertOf "b"), .take]

/-- The alert that was dropped is sent again a second later, when there is room: it is
passed over as a duplicate, although no alert like it was ever put in the queue. -/
theorem dropped_alert_suppresses_repeat :
    ¬ ∀ (cfg : AlertingConfig) (start : Time) (es : List Event), cfg.enabled = true →
      Meets (step id) (SuppressesDuplicates id) (.init cfg start) es := by
  intro hclaim
  have hrun : ∃ t ∈ run (step id) (.init enabledAlerting 0) burst,
      t.clock ≤ queueSize * (10 * minute) + second ∧ (∀ q ∈ t.queued, q.1 ≠ "b") ∧
      t.engine.queue.Free ∧
      (t.engine.send id (queueSize * (10 * minute) + second) (alertOf "b")).1.queue.alerts.length
        = t.engine.queue.alerts.length := by decide +kernel
  obtain ⟨t, hrun, hclock, hnone, hfree, hlength⟩ := hrun
  have hmeets := meets_append (hclaim enabledAlerting 0
    (burst ++ [.send (queueSize * (10 * minute) + second) (alertOf "b")]) rfl) hrun
  have hput := (hmeets.1 hclock).1.mpr
    ⟨hfree, fun ⟨q, hq, hid, _⟩ => hnone q hq hid⟩
  rw [hput, List.length_append, List.length_singleton] at hlength
  omega

end Arcsent.Alerting
