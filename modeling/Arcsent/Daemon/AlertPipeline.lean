/-
# The alerts of a running daemon

Every result has its alerts sent by a goroutine of its own, every engine of
`internal/alerting/engine.go` has a queue and a worker, and a reload of the configuration
puts a new engine in the place of the old one, whose worker is never stopped.  A goroutine
reads the variable with the engine before it looks the identity up, and it has looked the
identity up before it offers the alert to the queue; between the two everybody else can
move.
-/
import Arcsent.Alerting.Deliver
import Arcsent.Alerting.Suppression
import Arcsent.Lib.History
import Arcsent.Lib.Latest
import Arcsent.Lib.Parties
import Arcsent.Lib.Runs

namespace Arcsent.Daemon

open Arcsent.Go Arcsent.Lib Arcsent.Alerting

/-- What happens to the alerts of one engine. -/
inductive Happening
  | throttled (now : Time) (id : String)
  /-- The identity was new, and the alert is complete. -/
  | passed (now : Time) (alert : Alert)
  | queued (alert : Alert)
  | dropped (alert : Alert)
  /-- The worker has received an alert; the channels are going to answer like this. -/
  | taken (alert : Alert) (channels : List Channel)
  | delivery (d : Delivery)

/-- An engine with the names of its channels, what its worker still has to do for the alert it
has taken, and all that has happened. -/
structure Generation where
  engine : Engine
  channels : List String
  working : List Delivery
  log : List Happening

namespace Generation

def new (cfg : AlertingConfig) (channels : List String) : Generation :=
  ⟨.new cfg, channels, [], []⟩

variable (gen : Generation)

/-- The part of `Send` before the queue; the alert is returned when it goes on. -/
def check (sha256 : String → String) (now : Time) (alert : Alert) : Generation × Option Alert :=
  if gen.engine.enabled = false then (gen, none)
  else
    let alert := alert.complete sha256 now
    match gen.engine.isThrottled now alert.id with
    | (true, engine) =>
      ({ gen with engine := engine, log := gen.log ++ [.throttled now alert.id] }, none)
    | (false, engine) =>
      ({ gen with engine := engine, log := gen.log ++ [.passed now alert] }, some alert)

/-- The part of `Send` that offers the alert to the queue. -/
def offer (alert : Alert) : Generation :=
  match gen.engine.queue.push alert with
  | some queue =>
    { gen with
      engine := { gen.engine with queue := queue }
      log := gen.log ++ [.queued alert] }
  | none => { gen with log := gen.log ++ [.dropped alert] }

/-- The receive of the worker, which an engine that is not enabled does not have. -/
def take (channels : List Channel) : Option Generation :=
  if gen.engine.enabled = true ∧ gen.working = [] ∧ channels.map (·.name) = gen.channels then
    gen.engine.take.map fun (alert, engine) =>
      { gen with
        engine := engine
        working := gen.engine.deliver alert channels
        log := gen.log ++ [.taken alert channels] }
  else none

/-- The worker goes on with the delivery. -/
def work : Option Generation :=
  match gen.working with
  | [] => none
  | d :: rest => some { gen with working := rest, log := gen.log ++ [.delivery d] }

end Generation

/-- A goroutine that sends an alert. -/
inductive Caller
  /-- It has read which engine there is. -/
  | begun (g : ℕ) (alert : Alert)
  /-- The engine has let the alert pass. -/
  | passed (g : ℕ) (alert : Alert)
  | returned

/-- The engines there have been, the last one being in use, and the goroutines. -/
structure AlertSystem where
  gens : List Generation
  callers : List Caller

inductive AlertEvent
  /-- A reload, with the channels that are built for it. -/
  | reload (cfg : AlertingConfig) (channels : List String)
  | call (alert : Alert)
  | check (i : ℕ) (now : Time)
  | offer (i : ℕ)
  | take (g : ℕ) (channels : List Channel)
  | work (g : ℕ)

namespace AlertSystem

def start (cfg : AlertingConfig) (channels : List String) : AlertSystem :=
  ⟨[.new cfg channels], []⟩

/-- One party moves. -/
def step (sha256 : String → String) (s : AlertSystem) : AlertEvent → Option AlertSystem
  | .reload cfg channels => some { s with gens := s.gens ++ [.new cfg channels] }
  | .call alert =>
    some { s with callers := s.callers ++ [.begun (s.gens.length - 1) alert] }
  | .check i now =>
    match s.callers[i]? with
    | some (.begun g alert) => (s.gens[g]?).map fun gen =>
      let (gen, passed) := gen.check sha256 now alert
      ⟨s.gens.set g gen, s.callers.set i (passed.elim .returned (.passed g))⟩
    | _ => none
  | .offer i =>
    match s.callers[i]? with
    | some (.passed g alert) => (s.gens[g]?).map fun gen =>
      ⟨s.gens.set g (gen.offer alert), s.callers.set i .returned⟩
    | _ => none
  | .take g channels =>
    ((s.gens[g]?).bind (·.take channels)).map fun gen => { s with gens := s.gens.set g gen }
  | .work g => ((s.gens[g]?).bind (·.work)).map fun gen => { s with gens := s.gens.set g gen }

end AlertSystem

/-! ## What the log of an engine says -/

namespace Happening

def passed? : Happening → Option Alert
  | .passed _ alert => some alert
  | _ => none

/-- An identity with the time at which it was taken down. -/
def seen? : Happening → Option (String × Time)
  | .passed now alert => some (alert.id, now)
  | _ => none

def queued? : Happening → Option Alert
  | .queued alert => some alert
  | _ => none

def dropped? : Happening → Option Alert
  | .dropped alert => some alert
  | _ => none

def taken? : Happening → Option (Alert × List Channel)
  | .taken alert channels => some (alert, channels)
  | _ => none

def delivery? : Happening → Option Delivery
  | .delivery d => some d
  | _ => none

end Happening

/-- The time at which an identity was last taken down. -/
def lastTime (log : List Happening) (id : String) : Option Time :=
  (latest Prod.fst (log.filterMap Happening.seen?) id).map Prod.snd

/-- How many alerts are waiting in the queue. -/
def Waiting (log : List Happening) (n : ℕ) : Prop :=
  (log.filterMap Happening.queued?).length = (log.filterMap Happening.taken?).length + n

/-- Each decision of an engine with a window, by what has happened before. -/
def Decided (throttle : Duration) (log : List Happening) : Happening → Prop
  | .throttled now id => ∃ t, lastTime log id = some t ∧ now - t < throttle
  | .passed now alert => ∀ t, lastTime log alert.id = some t → throttle ≤ now - t
  | .queued _ => ∃ n < queueSize, Waiting log n
  | .dropped _ => Waiting log queueSize
  | .taken _ _ => True
  | .delivery _ => True

/-- What an engine has done with the alerts, `pending` being those that have passed and are
not yet offered to the queue. -/
structure Accounted (pending : List Alert) (gen : Generation) : Prop where
  /-- Every alert that has passed is pending, queued or dropped, once. -/
  settled : (gen.log.filterMap Happening.passed?).Perm
    (pending ++ gen.log.filterMap Happening.queued? ++ gen.log.filterMap Happening.dropped?)
  /-- The worker takes the alerts in the order in which they have been queued. -/
  fifo : (gen.log.filterMap Happening.taken?).map Prod.fst ++ gen.engine.queue.alerts =
    gen.log.filterMap Happening.queued?
  /-- The deliveries of the alerts follow one another. -/
  delivered : gen.log.filterMap Happening.delivery? ++ gen.working =
    (gen.log.filterMap Happening.taken?).flatMap fun e => gen.engine.deliver e.1 e.2
  /-- Every alert is delivered through all channels. -/
  through : ∀ e ∈ gen.log.filterMap Happening.taken?, e.2.map (·.name) = gen.channels
  decided : EachEntry (Decided gen.engine.throttle) gen.log
  times : gen.engine.lastSeen = lastTime gen.log
  /-- An engine that is not enabled has nothing to do. -/
  asleep : gen.engine.enabled = false → gen.log = []

section Generations

variable {gen gen' : Generation} {pending : List Alert}

lemma accounted_new (cfg : AlertingConfig) (channels : List String) :
    Accounted [] (.new cfg channels) where
  settled := .refl _
  fifo := rfl
  delivered := rfl
  through := by simp [Generation.new]
  decided := eachEntry_nil
  times := rfl
  asleep _ := rfl

lemma alerts_of_pop {q q' : Queue} {a : Alert} (h : q.pop = some (a, q')) :
    q.alerts = a :: q'.alerts := by
  rw [Queue.pop] at h
  split at h
  · cases h
  · obtain ⟨rfl, rfl⟩ := Prod.mk.inj (Option.some.inj h)
    assumption

lemma exists_pop {q : Queue} (h : q.alerts ≠ []) : ∃ a q', q.pop = some (a, q') := by
  rw [Queue.pop]
  split
  · exact absurd ‹_› h
  · exact ⟨_, _, rfl⟩

/-- The queue is as long as the log says. -/
lemma Accounted.waiting (h : Accounted pending gen) :
    Waiting gen.log gen.engine.queue.alerts.length := by
  rw [Waiting, ← h.fifo, List.length_append, List.length_map]

/-- The deliveries depend on the settings of the retries only. -/
lemma deliver_congr {e e' : Engine} (hmax : e'.retryMax = e.retryMax)
    (hbackoff : e'.retryBackoff = e.retryBackoff) : e'.deliver = e.deliver := by
  have hsends : e'.sendsFrom = e.sendsFrom := by
    funext alert ch left attempt
    have hpause : e'.backoff = e.backoff := by
      funext attempt
      rw [Engine.backoff, Engine.backoff, hbackoff]
    induction left generalizing attempt with
    | zero => rw [Engine.sendsFrom, Engine.sendsFrom, hpause]
    | succ left ih =>
      rw [Engine.sendsFrom, Engine.sendsFrom, hpause]
      simp only [ih]
  funext alert channels
  have hto : e'.deliverTo alert = e.deliverTo alert := by
    funext ch
    rw [Engine.deliverTo, Engine.deliverTo, hmax, hsends]
  rw [Engine.deliver, Engine.deliver, hto]

@[simp] lemma deliver_lastSeen (e : Engine) (lastSeen : String → Option Time) :
    Engine.deliver { e with lastSeen := lastSeen } = e.deliver := deliver_congr rfl rfl

@[simp] lemma deliver_queue (e : Engine) (queue : Queue) :
    Engine.deliver { e with queue := queue } = e.deliver := deliver_congr rfl rfl

/-- Everything that the first part of `Send` can do. -/
lemma check_cases (gen : Generation) (sha256 : String → String) (now : Time) (alert : Alert) :
    gen.check sha256 now alert = (gen, none) ∨
    (∃ id, gen.engine.enabled = true ∧ gen.engine.SeenWithin now id ∧
      gen.check sha256 now alert = ({ gen with log := gen.log ++ [.throttled now id] }, none)) ∨
    (∃ a, gen.engine.enabled = true ∧ ¬ gen.engine.SeenWithin now a.id ∧
      gen.check sha256 now alert =
        ({ gen with
            engine := { gen.engine with
              lastSeen := Function.update gen.engine.lastSeen a.id (some now) }
            log := gen.log ++ [.passed now a] }, some a)) := by
  rw [Generation.check]
  split_ifs with henabled
  · exact .inl rfl
  · right
    rw [Bool.not_eq_false] at henabled
    dsimp only
    generalize alert.complete sha256 now = a
    by_cases hseen : gen.engine.SeenWithin now a.id
    · rw [Engine.isThrottled_of_seen hseen]
      exact .inl ⟨_, henabled, hseen, rfl⟩
    · rw [Engine.isThrottled_of_not_seen hseen]
      exact .inr ⟨_, henabled, hseen, rfl⟩

lemma lastTime_concat_passed (log : List Happening) (now : Time) (a : Alert) :
    lastTime (log ++ [.passed now a]) = Function.update (lastTime log) a.id (some now) := by
  have hseen : (log ++ [Happening.passed now a]).filterMap Happening.seen? =
      log.filterMap Happening.seen? ++ [(a.id, now)] := by
    rw [List.filterMap_append]
    rfl
  funext id
  rw [lastTime, hseen, latest_concat]
  by_cases hid : id = a.id
  · rw [hid, Function.update_self, Function.update_self]
    rfl
  · rw [Function.update_of_ne hid, Function.update_of_ne hid]
    rfl

/-- An entry that takes down no identity. -/
lemma lastTime_concat {x : Happening} (hx : x.seen? = none) (log : List Happening) :
    lastTime (log ++ [x]) = lastTime log := by
  funext id
  rw [lastTime, lastTime, List.filterMap_append, List.filterMap_cons_none hx, List.filterMap_nil,
    List.append_nil]

attribute [local simp] List.filterMap_cons Happening.passed? Happening.queued?
  Happening.dropped? Happening.taken? Happening.delivery?

/-- The two parts of `Send`, with nobody moving between them. -/
lemma engine_send (gen : Generation) (sha256 : String → String) (now : Time) (alert : Alert) :
    (gen.engine.send sha256 now alert).1 =
      ((gen.check sha256 now alert).2.elim (gen.check sha256 now alert).1
        (gen.check sha256 now alert).1.offer).engine := by
  rw [Engine.send, Generation.check]
  split_ifs
  · rfl
  · dsimp only
    rcases gen.engine.isThrottled now (alert.complete sha256 now).id with ⟨seen, engine⟩
    cases seen with
    | true => rfl
    | false =>
      simp only [Option.elim_some, Generation.offer]
      cases engine.queue.push (alert.complete sha256 now) <;> rfl

/-- **The first part of `Send`**: an alert that goes on is a new one among the pending. -/
lemma Accounted.check (h : Accounted pending gen) (sha256 : String → String) (now : Time)
    (alert : Alert) :
    Accounted ((gen.check sha256 now alert).2.toList ++ pending)
      (gen.check sha256 now alert).1 := by
  rcases check_cases gen sha256 now alert with
    hcheck | ⟨id, henabled, hseen, hcheck⟩ | ⟨a, henabled, hseen, hcheck⟩
  · rw [hcheck]
    exact h
  · rw [hcheck]
    refine ⟨?_, ?_, ?_, ?_, ?_, ?_, ?_⟩
    · simpa using h.settled
    · simpa using h.fifo
    · simpa using h.delivered
    · simpa using h.through
    · refine eachEntry_concat.mpr ⟨h.decided, ?_⟩
      obtain ⟨last, hlast, hlt⟩ := hseen
      exact ⟨last, h.times ▸ hlast, hlt⟩
    · exact h.times.trans (lastTime_concat rfl _).symm
    · simp [henabled]
  · rw [hcheck]
    refine ⟨?_, ?_, ?_, ?_, ?_, ?_, ?_⟩
    · have hsettled := h.settled
      simp only [List.append_assoc] at hsettled
      simpa using (List.perm_append_singleton a _).trans (hsettled.cons a)
    · simpa using h.fifo
    · simpa using h.delivered
    · simpa using h.through
    · refine eachEntry_concat.mpr ⟨h.decided, fun t ht => ?_⟩
      by_contra hlt
      exact hseen ⟨t, h.times ▸ ht, not_le.mp hlt⟩
    · rw [lastTime_concat_passed, ← h.times]
    · simp [henabled]

/-- **The second part of `Send`**: a pending alert is queued, or dropped by a full queue. -/
lemma Accounted.offer {a : Alert} {pending' : List Alert} (h : Accounted pending gen)
    (hpending : pending.Perm (a :: pending')) : Accounted pending' (gen.offer a) := by
  have henabled : gen.engine.enabled ≠ false := by
    intro hdisabled
    have hnone := h.settled
    rw [h.asleep hdisabled] at hnone
    simpa using (hnone.trans ((hpending.append_right _).append_right _)).length_eq
  have hsettled := h.settled.trans ((hpending.append_right _).append_right _)
  rw [Generation.offer]
  by_cases hfree : gen.engine.queue.Free
  · have hpush : gen.engine.queue.push a =
        some ⟨gen.engine.queue.alerts ++ [a], Queue.length_concat_le hfree a⟩ := dif_pos hfree
    rw [hpush]
    refine ⟨?_, ?_, ?_, ?_, ?_, ?_, ?_⟩
    · have hmove : (a :: pending' ++ gen.log.filterMap Happening.queued?).Perm
          (pending' ++ gen.log.filterMap Happening.queued? ++ [a]) :=
        (List.perm_append_singleton a _).symm
      simpa using hsettled.trans (hmove.append_right _)
    · simpa using congrArg (· ++ [a]) h.fifo
    · simpa using h.delivered
    · simpa using h.through
    · exact eachEntry_concat.mpr ⟨h.decided, _, hfree, h.waiting⟩
    · exact h.times.trans (lastTime_concat rfl _).symm
    · exact fun hdisabled => absurd hdisabled henabled
  · have hpush : gen.engine.queue.push a = none := dif_neg hfree
    rw [hpush]
    refine ⟨?_, ?_, ?_, ?_, ?_, ?_, ?_⟩
    · simpa using hsettled.trans (List.perm_append_singleton a _).symm
    · simpa using h.fifo
    · simpa using h.delivered
    · simpa using h.through
    · have hfull : gen.engine.queue.alerts.length = queueSize :=
        le_antisymm gen.engine.queue.bounded (not_lt.mp hfree)
      have hwaiting := h.waiting
      rw [hfull] at hwaiting
      exact eachEntry_concat.mpr ⟨h.decided, hwaiting⟩
    · exact h.times.trans (lastTime_concat rfl _).symm
    · exact fun hdisabled => absurd hdisabled henabled

/-- **The receive of the worker** takes the first alert of the queue. -/
lemma Accounted.take {channels : List Channel} (h : Accounted pending gen)
    (htake : gen.take channels = some gen') : Accounted pending gen' := by
  rw [Generation.take] at htake
  split_ifs at htake with hready
  obtain ⟨henabled, hidle, hnames⟩ := hready
  obtain ⟨⟨a, engine⟩, hpop, rfl⟩ := Option.map_eq_some_iff.mp htake
  obtain ⟨⟨a', queue⟩, hqueue, hengine⟩ := Option.map_eq_some_iff.mp hpop
  obtain ⟨rfl, rfl⟩ := Prod.mk.inj hengine
  have halerts := alerts_of_pop hqueue
  have hfifo := h.fifo
  have hdelivered := h.delivered
  rw [halerts] at hfifo
  rw [hidle, List.append_nil] at hdelivered
  refine ⟨?_, ?_, ?_, ?_, ?_, ?_, ?_⟩
  · simpa using h.settled
  · simpa using hfifo
  · simpa using hdelivered
  · intro e he
    rw [List.filterMap_append, List.mem_append] at he
    rcases he with he | he
    · exact h.through e he
    · obtain rfl : e = (a', channels) := by simpa using he
      exact hnames
  · exact eachEntry_concat.mpr ⟨h.decided, trivial⟩
  · exact h.times.trans (lastTime_concat rfl _).symm
  · simp [henabled]

/-- **The worker goes on** with the delivery that it is at. -/
lemma Accounted.work (h : Accounted pending gen) (hwork : gen.work = some gen') :
    Accounted pending gen' := by
  rw [Generation.work] at hwork
  cases hworking : gen.working with
  | nil => simp [hworking] at hwork
  | cons d rest =>
    rw [hworking] at hwork
    obtain rfl := Option.some.inj hwork
    have hdelivered := h.delivered
    rw [hworking] at hdelivered
    refine ⟨?_, ?_, ?_, ?_, ?_, ?_, ?_⟩
    · simpa using h.settled
    · simpa using h.fifo
    · simpa using hdelivered
    · simpa using h.through
    · exact eachEntry_concat.mpr ⟨h.decided, trivial⟩
    · exact h.times.trans (lastTime_concat rfl _).symm
    · intro hdisabled
      rw [h.asleep hdisabled] at hdelivered
      simp at hdelivered

end Generations

/-! ## All engines together -/

/-- The alert that a goroutine has yet to offer to an engine. -/
def pendingOf (g : ℕ) : Caller → Option Alert
  | .passed g' alert => if g' = g then some alert else none
  | _ => none

/-- Every engine accounts for its alerts, and nobody is with an engine that does not exist. -/
structure Kept (s : AlertSystem) : Prop where
  accounted : ∀ g gen, s.gens[g]? = some gen → Accounted (s.callers.filterMap (pendingOf g)) gen
  known : ∀ g alert, .passed g alert ∈ s.callers → g < s.gens.length

section Pipelines

variable {sha256 : String → String} {s t : AlertSystem} {g : ℕ} {gen gen' : Generation}

lemma Accounted.perm {pending pending' : List Alert} (h : Accounted pending gen)
    (hperm : pending.Perm pending') : Accounted pending' gen :=
  { h with settled := h.settled.trans ((hperm.append_right _).append_right _) }

/-- The goroutines with an engine do not change when a goroutine with no engine turns up or one
with another engine moves. -/
lemma pendingOf_ne {g' : ℕ} (hne : g' ≠ g) (alert : Alert) :
    pendingOf g (.passed g' alert) = none := if_neg hne

lemma kept_start (cfg : AlertingConfig) (channels : List String) :
    Kept (.start cfg channels) where
  accounted g gen hgen := by
    cases g with
    | zero =>
      obtain rfl := Option.some.inj hgen
      exact accounted_new cfg channels
    | succ g => simp [AlertSystem.start] at hgen
  known g alert hmem := by simp [AlertSystem.start] at hmem

/-- An engine takes a step of its own. -/
lemma Kept.set (h : Kept s) (hgen : s.gens[g]? = some gen) {callers : List Caller}
    (haccounted : Accounted (callers.filterMap (pendingOf g)) gen')
    (hother : ∀ g', g' ≠ g →
      callers.filterMap (pendingOf g') = s.callers.filterMap (pendingOf g'))
    (hknown : ∀ g alert, .passed g alert ∈ callers → g < s.gens.length) :
    Kept ⟨s.gens.set g gen', callers⟩ := by
  refine ⟨fun g' gen₁ hgen₁ => ?_, fun g' alert hmem => ?_⟩
  · by_cases hg : g' = g
    · subst hg
      obtain ⟨hlt, -⟩ := List.getElem?_eq_some_iff.mp hgen
      obtain rfl : gen' = gen₁ := by simpa [hlt] using hgen₁
      exact haccounted
    · rw [List.getElem?_set_ne (Ne.symm hg)] at hgen₁
      rw [hother g' hg]
      exact h.accounted g' gen₁ hgen₁
  · rw [List.length_set]
    exact hknown g' alert hmem

lemma Kept.reload (h : Kept s) (cfg : AlertingConfig) (channels : List String) :
    Kept { s with gens := s.gens ++ [.new cfg channels] } := by
  refine ⟨fun g gen hgen => ?_, fun g alert hmem => ?_⟩
  · rw [List.getElem?_append] at hgen
    split_ifs at hgen with hlt
    · exact h.accounted g gen hgen
    · have hnew : Generation.new cfg channels = gen := by
        rw [List.getElem?_singleton] at hgen
        split_ifs at hgen
        exact Option.some.inj hgen
      have hnobody : s.callers.filterMap (pendingOf g) = [] := by
        rw [List.filterMap_eq_nil_iff]
        intro caller hcaller
        cases caller with
        | begun g' alert => rfl
        | passed g' alert =>
          refine pendingOf_ne ?_ alert
          rintro rfl
          exact hlt (h.known g' alert hcaller)
        | returned => rfl
      rw [hnobody, ← hnew]
      exact accounted_new cfg channels
  · rw [List.length_append]
    exact Nat.lt_add_right _ (h.known g alert hmem)

lemma Kept.call (h : Kept s) (g : ℕ) (alert : Alert) :
    Kept { s with callers := s.callers ++ [.begun g alert] } := by
  refine ⟨fun g' gen hgen => ?_, fun g' a hmem => ?_⟩
  · have hnobody : [Caller.begun g alert].filterMap (pendingOf g') = [] := rfl
    rw [List.filterMap_append, hnobody, List.append_nil]
    exact h.accounted g' gen hgen
  · rcases List.mem_append.mp hmem with hmem | hmem
    · exact h.known g' a hmem
    · simp at hmem

lemma Kept.check {i : ℕ} {alert : Alert} (h : Kept s) (hgen : s.gens[g]? = some gen)
    (hcaller : s.callers[i]? = some (.begun g alert)) (now : Time) :
    Kept ⟨s.gens.set g (gen.check sha256 now alert).1,
      s.callers.set i ((gen.check sha256 now alert).2.elim .returned (.passed g))⟩ := by
  have hchecked := (h.accounted g gen hgen).check sha256 now alert
  obtain ⟨hlt, -⟩ := List.getElem?_eq_some_iff.mp hgen
  cases hpassed : (gen.check sha256 now alert).2 with
  | none =>
    rw [hpassed] at hchecked
    refine h.set hgen ?_ (fun g' _ => filterMap_set_of_eq hcaller rfl) fun g' a hmem => ?_
    · have hsame : (s.callers.set i .returned).filterMap (pendingOf g) =
          s.callers.filterMap (pendingOf g) := filterMap_set_of_eq hcaller rfl
      rw [Option.elim_none, hsame]
      exact hchecked
    · rcases List.mem_or_eq_of_mem_set hmem with hmem | heq
      · exact h.known g' a hmem
      · cases heq
  | some a =>
    rw [hpassed] at hchecked
    refine h.set hgen ?_ (fun g' hne => ?_) fun g' a' hmem => ?_
    · have hself : pendingOf g (.passed g a) = some a := if_pos rfl
      refine hchecked.perm (List.Perm.trans ?_ (filterMap_set_perm hcaller rfl hself))
      exact (List.perm_append_singleton a _).symm
    · exact filterMap_set_of_eq hcaller (pendingOf_ne (Ne.symm hne) a)
    · rcases List.mem_or_eq_of_mem_set hmem with hmem | heq
      · exact h.known g' a' hmem
      · obtain ⟨rfl, -⟩ := Caller.passed.inj heq
        exact hlt

lemma Kept.offer {i : ℕ} {alert : Alert} (h : Kept s) (hgen : s.gens[g]? = some gen)
    (hcaller : s.callers[i]? = some (.passed g alert)) :
    Kept ⟨s.gens.set g (gen.offer alert), s.callers.set i .returned⟩ := by
  have hself : pendingOf g (.passed g alert) = some alert := if_pos rfl
  refine h.set hgen ?_ (fun g' hne => ?_) fun g' a hmem => ?_
  · exact (h.accounted g gen hgen).offer (filterMap_set_perm_of_none hcaller hself rfl)
  · exact filterMap_set_of_eq hcaller (pendingOf_ne (Ne.symm hne) alert).symm
  · rcases List.mem_or_eq_of_mem_set hmem with hmem | heq
    · exact h.known g' a hmem
    · cases heq

/-- **Every step keeps the accounts.** -/
lemma kept_step {e : AlertEvent} (h : Kept s) (hstep : s.step sha256 e = some t) : Kept t := by
  cases e with
  | reload cfg channels =>
    obtain rfl := Option.some.inj hstep
    exact h.reload cfg channels
  | call alert =>
    obtain rfl := Option.some.inj hstep
    exact h.call _ alert
  | check i now =>
    simp only [AlertSystem.step] at hstep
    split at hstep
    · obtain ⟨gen, hgen, rfl⟩ := Option.map_eq_some_iff.mp hstep
      exact h.check hgen ‹_› now
    · cases hstep
  | offer i =>
    simp only [AlertSystem.step] at hstep
    split at hstep
    · obtain ⟨gen, hgen, rfl⟩ := Option.map_eq_some_iff.mp hstep
      exact h.offer hgen ‹_›
    · cases hstep
  | take g channels =>
    obtain ⟨gen', hmove, rfl⟩ := Option.map_eq_some_iff.mp hstep
    obtain ⟨gen, hgen, htake⟩ := Option.bind_eq_some_iff.mp hmove
    exact h.set hgen ((h.accounted g gen hgen).take htake) (fun _ _ => rfl) h.known
  | work g =>
    obtain ⟨gen', hmove, rfl⟩ := Option.map_eq_some_iff.mp hstep
    obtain ⟨gen, hgen, hwork⟩ := Option.bind_eq_some_iff.mp hmove
    exact h.set hgen ((h.accounted g gen hgen).work hwork) (fun _ _ => rfl) h.known

/-- **In every run every engine accounts for its alerts**, whatever the order of the steps and
however often the configuration is reloaded: an alert that was let through is queued or
dropped once, dropped only by a full queue, delivered once in the order of the queue through
all channels of the engine it was offered to, and held back only by a repeat. -/
theorem accounted_of_run {cfg : AlertingConfig} {channels : List String}
    {events : List AlertEvent}
    (hrun : run (AlertSystem.step sha256) (.start cfg channels) events = some s)
    (hgen : s.gens[g]? = some gen) : Accounted (s.callers.filterMap (pendingOf g)) gen := by
  have hkept : Kept s :=
    inv_of_run (fun _ _ _ h hstep => kept_step h hstep) (kept_start cfg channels) hrun
  exact hkept.accounted g gen hgen

/-- An alert and its repeat are sent, and the configuration is reloaded before the first one is
offered to the queue. -/
def repeatedAlert : List AlertEvent :=
  [.call (alertOf "a"), .call (alertOf "a"), .check 0 unixEpoch, .check 1 (unixEpoch + second),
    .reload enabledAlerting ["log"], .offer 0, .take 0 [⟨"log", fun _ _ => none⟩], .work 0]

/-- The first engine delivers it all the same. -/
theorem accounted_repeatedAlert : ∃ s gen,
    run (AlertSystem.step id) (.start enabledAlerting ["log"]) repeatedAlert = some s ∧
      s.gens[0]? = some gen ∧ gen.log.filterMap Happening.delivery? = [.send "log" none] ∧
      Accounted (s.callers.filterMap (pendingOf 0)) gen := by
  have hlog : ((run (AlertSystem.step id) (.start enabledAlerting ["log"]) repeatedAlert).bind
      fun s => s.gens[0]?.map fun gen => gen.log.filterMap Happening.delivery?) =
        some [.send "log" none] := rfl
  obtain ⟨s, hrun, hlogs⟩ := Option.bind_eq_some_iff.mp hlog
  obtain ⟨gen, hgen, hdelivered⟩ := Option.map_eq_some_iff.mp hlogs
  exact ⟨s, gen, hrun, hgen, hdelivered, accounted_of_run hrun hgen⟩

/-! ## The workers run on -/

/-- The longest that a delivery to one channel can be. -/
def Generation.perChannel (gen : Generation) : ℕ := 2 * (gen.engine.retryMax.toNat + 1) + 1

/-- A bound for the steps that the worker has still to take. -/
def Generation.remaining (gen : Generation) : ℕ :=
  gen.working.length +
    gen.engine.queue.alerts.length * (gen.channels.length * gen.perChannel + 1)

def AlertSystem.remaining (s : AlertSystem) : ℕ := (s.gens.map Generation.remaining).sum

/-- A step of a worker. -/
def AlertEvent.OfWorker : AlertEvent → Prop
  | .take _ _ => True
  | .work _ => True
  | _ => False

lemma length_sendsFrom_le (e : Engine) (alert : Alert) (ch : Channel) (left attempt : ℕ) :
    (e.sendsFrom alert ch left attempt).1.length ≤ 2 * (left + 1) := by
  have hsleep : ∀ d, (Delivery.sleep d).length ≤ 1 := by
    intro d
    rw [Delivery.sleep]
    split_ifs <;> simp
  induction left generalizing attempt with
  | zero =>
    rw [Engine.sendsFrom]
    cases ch.send alert attempt with
    | none => simp
    | some err => simpa using hsleep _
  | succ left ih =>
    rw [Engine.sendsFrom]
    cases ch.send alert attempt with
    | none =>
      show 1 ≤ 2 * (left + 1 + 1)
      omega
    | some err =>
      have hrest := ih (attempt + 1)
      have hpause := hsleep (e.backoff attempt)
      simp only [List.length_cons, List.length_append]
      omega

lemma length_deliverTo_le (e : Engine) (alert : Alert) (ch : Channel) :
    (e.deliverTo alert ch).length ≤ 2 * (e.retryMax.toNat + 1) + 1 := by
  have hsends := length_sendsFrom_le e alert ch e.retryMax.toNat 0
  rw [Engine.deliverTo]
  split_ifs
  · simp
  · revert hsends
    rcases e.sendsFrom alert ch e.retryMax.toNat 0 with ⟨trace, err⟩
    cases err with
    | none => simp; omega
    | some err => simp

/-- A delivery has an end. -/
lemma length_deliver_le (e : Engine) (alert : Alert) (channels : List Channel) :
    (e.deliver alert channels).length ≤
      channels.length * (2 * (e.retryMax.toNat + 1) + 1) := by
  rw [Engine.deliver]
  induction channels with
  | nil => simp
  | cons ch channels ih =>
    have hfirst := length_deliverTo_le e alert ch
    rw [List.flatMap_cons, List.length_append, List.length_cons, Nat.succ_mul]
    omega

lemma remaining_take {chs : List Channel} (htake : gen.take chs = some gen') :
    gen'.remaining < gen.remaining := by
  rw [Generation.take] at htake
  split_ifs at htake with hready
  obtain ⟨-, hidle, hnames⟩ := hready
  obtain ⟨⟨a, engine⟩, hpop, rfl⟩ := Option.map_eq_some_iff.mp htake
  obtain ⟨⟨a', queue⟩, hqueue, hengine⟩ := Option.map_eq_some_iff.mp hpop
  obtain ⟨rfl, rfl⟩ := Prod.mk.inj hengine
  have hlength : chs.length = gen.channels.length := by rw [← hnames, List.length_map]
  have hdelivery : (gen.engine.deliver a' chs).length ≤ gen.channels.length * gen.perChannel :=
    hlength ▸ length_deliver_le gen.engine a' chs
  show (gen.engine.deliver a' chs).length +
      queue.alerts.length * (gen.channels.length * gen.perChannel + 1) <
    gen.working.length +
      gen.engine.queue.alerts.length * (gen.channels.length * gen.perChannel + 1)
  rw [alerts_of_pop hqueue, hidle, List.length_cons, Nat.succ_mul, List.length_nil]
  omega

lemma remaining_work (hwork : gen.work = some gen') : gen'.remaining < gen.remaining := by
  rw [Generation.work] at hwork
  cases hworking : gen.working with
  | nil => simp [hworking] at hwork
  | cons d rest =>
    rw [hworking] at hwork
    obtain rfl := Option.some.inj hwork
    simp [Generation.remaining, Generation.perChannel, hworking]

lemma remaining_set (hgen : s.gens[g]? = some gen) (hless : gen'.remaining < gen.remaining) :
    AlertSystem.remaining { s with gens := s.gens.set g gen' } < s.remaining := by
  obtain ⟨before, after, hgens, hset⟩ := exists_set_eq hgen
  rw [AlertSystem.remaining, AlertSystem.remaining, hset, hgens]
  simp only [List.map_append, List.map_cons, List.sum_append, List.sum_cons]
  omega

/-- A step of a worker leaves less to do. -/
lemma remaining_step {e : AlertEvent} (hworker : e.OfWorker)
    (hstep : s.step sha256 e = some t) : t.remaining < s.remaining := by
  cases e with
  | take g channels =>
    obtain ⟨gen', hmove, rfl⟩ := Option.map_eq_some_iff.mp hstep
    obtain ⟨gen, hgen, htake⟩ := Option.bind_eq_some_iff.mp hmove
    exact remaining_set hgen (remaining_take htake)
  | work g =>
    obtain ⟨gen', hmove, rfl⟩ := Option.map_eq_some_iff.mp hstep
    obtain ⟨gen, hgen, hwork⟩ := Option.bind_eq_some_iff.mp hmove
    exact remaining_set hgen (remaining_work hwork)
  | reload cfg channels => exact hworker.elim
  | call alert => exact hworker.elim
  | check i now => exact hworker.elim
  | offer i => exact hworker.elim

/-- An engine all of whose queued alerts are delivered. -/
structure Drained (gen : Generation) : Prop where
  taken : (gen.log.filterMap Happening.taken?).map Prod.fst = gen.log.filterMap Happening.queued?
  delivered : gen.log.filterMap Happening.delivery? =
    (gen.log.filterMap Happening.taken?).flatMap fun e => gen.engine.deliver e.1 e.2

/-- Where no worker can move, everything is delivered. -/
lemma Kept.drained (h : Kept s) (hgen : s.gens[g]? = some gen)
    (hstuck : ∀ e : AlertEvent, e.OfWorker → s.step sha256 e = none) : Drained gen := by
  have haccounted := h.accounted g gen hgen
  have hidle : gen.working = [] := by
    by_contra hbusy
    obtain ⟨d, rest, hworking⟩ := List.exists_cons_of_ne_nil hbusy
    have hnone := hstuck (.work g) trivial
    simp [AlertSystem.step, hgen, Generation.work, hworking] at hnone
  have hempty : gen.engine.queue.alerts = [] := by
    cases henabled : gen.engine.enabled with
    | false =>
      have hfifo := haccounted.fifo
      rw [haccounted.asleep henabled] at hfifo
      simpa using hfifo
    | true =>
      by_contra hwaiting
      obtain ⟨a, queue, hpop⟩ := exists_pop hwaiting
      have hnone := hstuck (.take g (gen.channels.map fun name => ⟨name, fun _ _ => none⟩)) trivial
      simp [AlertSystem.step, hgen, Generation.take, henabled, hidle, Engine.take, hpop,
        Function.comp_def] at hnone
  constructor
  · have hfifo := haccounted.fifo
    rwa [hempty, List.append_nil] at hfifo
  · have hdelivered := haccounted.delivered
    rwa [hidle, List.append_nil] at hdelivered

/-- What has been queued, engine by engine. -/
def AlertSystem.queued (s : AlertSystem) : List (List Alert) :=
  s.gens.map fun gen => gen.log.filterMap Happening.queued?

/-- A worker queues nothing. -/
lemma queued_step {e : AlertEvent} (hworker : e.OfWorker)
    (hstep : s.step sha256 e = some t) : t.queued = s.queued := by
  cases e with
  | take g channels =>
    obtain ⟨gen', hmove, rfl⟩ := Option.map_eq_some_iff.mp hstep
    obtain ⟨gen, hgen, htake⟩ := Option.bind_eq_some_iff.mp hmove
    refine map_set_of_eq hgen ?_
    rw [Generation.take] at htake
    split_ifs at htake
    obtain ⟨_, -, rfl⟩ := Option.map_eq_some_iff.mp htake
    simp [Happening.queued?]
  | work g =>
    obtain ⟨gen', hmove, rfl⟩ := Option.map_eq_some_iff.mp hstep
    obtain ⟨gen, hgen, hwork⟩ := Option.bind_eq_some_iff.mp hmove
    refine map_set_of_eq hgen ?_
    rw [Generation.work] at hwork
    split at hwork
    · cases hwork
    · obtain rfl := Option.some.inj hwork
      simp [Happening.queued?]
  | reload cfg channels => exact hworker.elim
  | call alert => exact hworker.elim
  | check i now => exact hworker.elim
  | offer i => exact hworker.elim

/-- The workers alone come to an end. -/
lemma workers_end {moves : List AlertEvent} (hworkers : ∀ e ∈ moves, e.OfWorker)
    (hmoves : run (AlertSystem.step sha256) s moves = some t) :
    moves.length + t.remaining ≤ s.remaining ∧ t.queued = s.queued := by
  induction moves generalizing s with
  | nil =>
    obtain rfl := Option.some.inj hmoves
    simp
  | cons e moves ih =>
    obtain ⟨u, hfirst, hrest⟩ := run_cons_eq_some.mp hmoves
    have hless := remaining_step (hworkers e List.mem_cons_self) hfirst
    obtain ⟨hend, hqueued⟩ := ih (fun e he => hworkers e (List.mem_cons_of_mem _ he)) hrest
    refine ⟨?_, hqueued.trans (queued_step (hworkers e List.mem_cons_self) hfirst)⟩
    rw [List.length_cons]
    omega

/-- **The workers get rid of all alerts**: whatever state has been reached and in whatever order
they move, those of the engines that a reload has replaced included, there is a bound to their
steps, and when none can move every alert that was queued is delivered. -/
theorem drained_of_run {cfg : AlertingConfig} {channels : List String}
    {events moves : List AlertEvent}
    (hrun : run (AlertSystem.step sha256) (.start cfg channels) events = some s)
    (hworkers : ∀ e ∈ moves, e.OfWorker)
    (hmoves : run (AlertSystem.step sha256) s moves = some t) :
    moves.length ≤ s.remaining ∧ t.queued = s.queued ∧
      ((∀ e : AlertEvent, e.OfWorker → t.step sha256 e = none) →
        ∀ gen ∈ t.gens, Drained gen) := by
  have hkept : Kept s :=
    inv_of_run (fun _ _ _ h hstep => kept_step h hstep) (kept_start cfg channels) hrun
  have hkept' : Kept t := inv_of_run (fun _ _ _ h hstep => kept_step h hstep) hkept hmoves
  obtain ⟨hend, hqueued⟩ := workers_end hworkers hmoves
  refine ⟨by omega, hqueued, fun hstuck gen hmem => ?_⟩
  obtain ⟨g, hgen⟩ := List.mem_iff_getElem?.mp hmem
  exact hkept'.drained hgen hstuck

/-- The worker of the first engine, after the reload. -/
theorem drained_repeatedAlert : ∃ s t,
    run (AlertSystem.step id) (.start enabledAlerting ["log"]) (repeatedAlert.take 6) = some s ∧
      run (AlertSystem.step id) s (repeatedAlert.drop 6) = some t ∧ 2 ≤ s.remaining ∧
      t.queued = s.queued ∧ ((∀ e : AlertEvent, e.OfWorker → t.step id e = none) →
        ∀ gen ∈ t.gens, Drained gen) := by
  have hworkers : ∀ e ∈ repeatedAlert.drop 6, e.OfWorker := by
    simp [repeatedAlert, AlertEvent.OfWorker]
  have hboth : ((run (AlertSystem.step id) (.start enabledAlerting ["log"])
      (repeatedAlert.take 6)).bind
        fun s => run (AlertSystem.step id) s (repeatedAlert.drop 6)).isSome := rfl
  obtain ⟨t, hrun⟩ := Option.isSome_iff_exists.mp hboth
  obtain ⟨s, hfirst, hrest⟩ := Option.bind_eq_some_iff.mp hrun
  exact ⟨s, t, hfirst, hrest, drained_of_run hfirst hworkers hrest⟩

end Pipelines

end Arcsent.Daemon
