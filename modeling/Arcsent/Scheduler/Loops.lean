/-
# The loops of the jobs

Every started job has a goroutine that waits for the job to be due and executes it, with
retries.  A step of the system is a step of one such loop, a call that changes the table,
or time going on.  `ReplaceJobs` is not one step: it gives up its lock between emptying
the table, adding each job and starting the loops.
-/
import Arcsent.Lib.Parties
import Arcsent.Lib.Runs
import Arcsent.Scheduler.Jobs

namespace Arcsent.Scheduling

open Arcsent.Go Arcsent.Scanner Arcsent.Storage Arcsent.Lib

/-- What a loop does next. -/
inductive Move
  /-- It goes on by itself. -/
  | go
  /-- The plugin returns. -/
  | ran (r : RunResult)
  /-- Its timer fires. -/
  | fire
  /-- It sees that it is to stop. -/
  | halt

/-- A step of the system. -/
inductive Event
  | tick (d : ℕ)
  | cancel
  | addJob (cfg : JobConfig)
  | start
  | stop
  | clear
  | loop (i : ℕ) (move : Move)

/-- The scheduler with its clock and the context that ends all loops. -/
structure System (κ V : Type) where
  sched : Scheduler κ V
  clock : Time
  cancelled : Bool

variable {κ V : Type} (cron : CronLib κ) (codec : Codec JobState V)

/-- The method `updateState`, the saving aside. -/
def JobState.update (st : JobState) (now : Time) : Except String Status → JobState
  | .ok status =>
    { st with
      lastRun := now, lastStatus := some status, lastSuccess := now
      lastErrorMessage := "", consecutiveFailures := 0 }
  | .error msg =>
    { st with
      lastRun := now, lastStatus := some .failed, lastError := now
      lastErrorMessage := msg, consecutiveFailures := st.consecutiveFailures + 1 }

/-- The method `saveState`, which reports none of its errors. -/
def saveState (stateStore : Option (BadgerStore V)) (j : Job κ) : Option (BadgerStore V) :=
  stateStore.map fun s =>
    ((s.put stateBucket (bytes j.cfg.name) (codec.marshal j.state)).toOption).getD s

/-- The timer is set for the time the job is next due. -/
def Job.arm (j : Job κ) (now : Time) : Job κ × Pc :=
  let next := if isZero j.nextRun then j.computeNextRun cron now else j.nextRun
  ({ j with nextRun := next }, .armed next)

/-- Where a loop goes on after an execution, or after one that was skipped. -/
def Job.resume (j : Job κ) (now : Time) : Origin → Job κ × Pc
  | .startup => j.arm cron now
  | .timer => ({ j with nextRun := j.computeNextRun cron now }, .top)

/-- The error of a job whose last attempt has failed. -/
def RunResult.failure : RunResult → String
  | .error msg => msg
  | _ => "job failed"

/-- A step of `runJob`, `executeJob` and `executeWithRetry`: the job object, the position
and the store after it.  `none` when the loop cannot make that move. -/
def loopMove (now : Time) (cancelled : Bool) (store : Option (BadgerStore V)) (j : Job κ) :
    Pc → Move → Option ((Job κ × Pc) × Option (BadgerStore V))
  | .top, .go =>
    if j.cfg.runOnStart ∧ isZero j.state.lastRun then some ((j, .entering .startup), store)
    else some (j.arm cron now, store)
  | .entering origin, .go =>
    if j.cfg.allowOverlap then some ((j, .attempt origin 0), store)
    else if j.running then some (j.resume cron now origin, store)
    else some (({ j with running := true }, .attempt origin 0), store)
  | .attempt origin n, .ran r =>
    match r with
    | .result status => some ((j, .saving origin (.ok status)), store)
    | r =>
      if n < j.cfg.maxRetries then some ((j, .backoff origin n (now + j.cfg.backoff n)), store)
      else some ((j, .saving origin (.error r.failure)), store)
  | .backoff origin n deadline, .go =>
    if deadline ≤ now then some ((j, .attempt origin (n + 1)), store) else none
  | .saving origin outcome, .go =>
    let j := { j with state := j.state.update now outcome }
    some ((j, .leaving origin), saveState codec store j)
  | .leaving origin, .go =>
    let j := if j.cfg.allowOverlap then j else { j with running := false }
    some (j.resume cron now origin, store)
  | .armed deadline, .fire => if deadline ≤ now then some ((j, .entering .timer), store) else none
  | .armed _, .halt => if j.stopped ∨ cancelled then some ((j, .exited), store) else none
  | _, _ => none

/-- The scheduler after a step of loop `i`. -/
def Scheduler.moved (s : Scheduler κ V) (i : ℕ) (id : ℕ) (j : Job κ) (pc : Pc)
    (store : Option (BadgerStore V)) : Scheduler κ V :=
  { s with objects := s.objects.set id j, loops := s.loops.set i ⟨id, pc⟩, stateStore := store }

/-- A step of the system.  A call that returns an error changes nothing. -/
def step (s : System κ V) : Event → Option (System κ V)
  | .tick d => some { s with clock := s.clock + d }
  | .cancel => some { s with cancelled := true }
  | .addJob cfg =>
    match s.sched.addJob cron codec s.clock cfg with
    | .error _ => some s
    | .ok sched => some { s with sched := sched }
  | .start => some { s with sched := s.sched.start }
  | .stop => s.sched.stop.map fun sched => { s with sched := sched }
  | .clear => s.sched.clear.map fun sched => { s with sched := sched }
  | .loop i move => do
    let l ← s.sched.loops[i]?
    let j ← s.sched.objects[l.job]?
    let ((j, pc), store) ← loopMove cron codec s.clock s.cancelled s.sched.stateStore j l.pc move
    some { s with sched := s.sched.moved i l.job j pc store }

/-- The daemon before any job has been added. -/
def System.init (stateStore : Option (BadgerStore V)) (clock : Time) : System κ V :=
  ⟨.new stateStore, clock, false⟩

/-! ## What a loop can do -/

section Cases

variable (now : Time) (cancelled : Bool) (store : Option (BadgerStore V)) (j : Job κ)

/-- The steps of a loop, with what each of them asks for: the position before it, the move,
and the object, the position and the store after it. -/
inductive LoopCase : Pc → Move → Job κ → Pc → Option (BadgerStore V) → Prop
  /-- The job has never run and is to run at once. -/
  | enter (h : j.cfg.runOnStart = true ∧ isZero j.state.lastRun = true) :
      LoopCase .top .go j (.entering .startup) store
  | wait (h : ¬ (j.cfg.runOnStart = true ∧ isZero j.state.lastRun = true)) :
      LoopCase .top .go (j.arm cron now).1 (j.arm cron now).2 store
  /-- An execution begins with its first attempt. -/
  | begin (origin : Origin) (running : Bool)
      (hfree : j.cfg.allowOverlap = false → j.running = false ∧ running = true) :
      LoopCase (.entering origin) .go { j with running := running } (.attempt origin 0) store
  /-- It is skipped, since another one is in progress. -/
  | skip (origin : Origin) (h : j.cfg.allowOverlap = false ∧ j.running = true) :
      LoopCase (.entering origin) .go (j.resume cron now origin).1 (j.resume cron now origin).2
        store
  | succeed (origin : Origin) (n : ℕ) (status : Status) :
      LoopCase (.attempt origin n) (.ran (.result status)) j (.saving origin (.ok status)) store
  | retry (origin : Origin) (n : ℕ) (r : RunResult) (hr : ∀ status, r ≠ .result status)
      (h : n < j.cfg.maxRetries) :
      LoopCase (.attempt origin n) (.ran r) j (.backoff origin n (now + j.cfg.backoff n)) store
  | fail (origin : Origin) (n : ℕ) (r : RunResult) (h : ¬ n < j.cfg.maxRetries) :
      LoopCase (.attempt origin n) (.ran r) j (.saving origin (.error r.failure)) store
  /-- The next attempt. -/
  | again (origin : Origin) (n : ℕ) (deadline : Time) (h : deadline ≤ now) :
      LoopCase (.backoff origin n deadline) .go j (.attempt origin (n + 1)) store
  | save (origin : Origin) (outcome : Except String Status) :
      LoopCase (.saving origin outcome) .go { j with state := j.state.update now outcome }
        (.leaving origin) (saveState codec store { j with state := j.state.update now outcome })
  /-- The execution ends. -/
  | leave (origin : Origin) (running : Bool) :
      LoopCase (.leaving origin) .go (Job.resume cron { j with running := running } now origin).1
        (Job.resume cron { j with running := running } now origin).2 store
  | fire (deadline : Time) (h : deadline ≤ now) :
      LoopCase (.armed deadline) .fire j (.entering .timer) store
  /-- The loop returns. -/
  | halt (deadline : Time) (h : j.stopped = true ∨ cancelled = true) :
      LoopCase (.armed deadline) .halt j .exited store

end Cases

variable {cron codec} in
/-- Every step of a loop is one of these. -/
theorem loopMove_cases {now : Time} {cancelled : Bool} {store store' : Option (BadgerStore V)}
    {j j' : Job κ} {pc pc' : Pc} {move : Move}
    (h : loopMove cron codec now cancelled store j pc move = some ((j', pc'), store')) :
    LoopCase cron codec now cancelled store j pc move j' pc' store' := by
  have hparts {r : Job κ × Pc} {st : Option (BadgerStore V)}
      (hr : some (r, st) = some ((j', pc'), store')) : j' = r.1 ∧ pc' = r.2 ∧ store' = st := by
    obtain ⟨rfl, rfl⟩ := Prod.mk.inj (Option.some.inj hr)
    exact ⟨rfl, rfl, rfl⟩
  unfold loopMove at h
  split at h
  · -- the start of the loop
    split_ifs at h with hstart
    · obtain ⟨rfl, rfl, rfl⟩ := hparts h
      exact .enter hstart
    · obtain ⟨rfl, rfl, rfl⟩ := hparts h
      exact .wait hstart
  · -- the overlap check
    rename_i origin
    split_ifs at h with hoverlap hrunning
    · obtain ⟨rfl, rfl, rfl⟩ := hparts h
      exact .begin origin j'.running fun hno => absurd (hoverlap.symm.trans hno) (by simp)
    · obtain ⟨rfl, rfl, rfl⟩ := hparts h
      exact .skip origin ⟨by simpa using hoverlap, hrunning⟩
    · obtain ⟨rfl, rfl, rfl⟩ := hparts h
      exact .begin origin true fun _ => ⟨by simpa using hrunning, rfl⟩
  · -- an attempt returns
    rename_i origin n r
    split at h
    · obtain ⟨rfl, rfl, rfl⟩ := hparts h
      exact .succeed origin n _
    · next hr =>
      split_ifs at h with hretry
      · obtain ⟨rfl, rfl, rfl⟩ := hparts h
        exact .retry origin n r hr hretry
      · obtain ⟨rfl, rfl, rfl⟩ := hparts h
        exact .fail origin n r hretry
  · -- the next attempt
    rename_i origin n deadline
    split_ifs at h with hdue
    obtain ⟨rfl, rfl, rfl⟩ := hparts h
    exact .again origin n deadline hdue
  · -- the state of the job is updated
    rename_i origin outcome
    obtain ⟨rfl, rfl, rfl⟩ := hparts h
    exact .save origin outcome
  · -- `executeJob` returns
    rename_i origin
    dsimp only at h
    split_ifs at h
    · obtain ⟨rfl, rfl, rfl⟩ := hparts h
      exact .leave origin j.running
    · obtain ⟨rfl, rfl, rfl⟩ := hparts h
      exact .leave origin false
  · -- the timer fires
    split_ifs at h with hdue
    obtain ⟨rfl, rfl, rfl⟩ := hparts h
    exact .fire _ hdue
  · -- the loop ends
    split_ifs at h with hstop
    obtain ⟨rfl, rfl, rfl⟩ := hparts h
    exact .halt _ hstop
  · exact absurd h (by simp)

/-- A step of a loop keeps the settings and the marks of its object.  It starts an
execution, ends one, or leaves the overlap flag as it is. -/
structure LoopStep (j j' : Job κ) (pc pc' : Pc) : Prop where
  cfg : j'.cfg = j.cfg
  stopped : j'.stopped = j.stopped
  started : j'.started = j.started
  change : (pc'.executing = pc.executing ∧ j'.running = j.running) ∨
    ((∃ origin, pc = .entering origin) ∧ pc'.executing = true ∧
      (j.cfg.allowOverlap = false → j.running = false ∧ j'.running = true)) ∨
    (pc.executing = true ∧ pc'.executing = false)

/-- A loop that is about to wait has changed the times of its object only. -/
structure Waits (j : Job κ) (r : Job κ × Pc) : Prop where
  cfg : r.1.cfg = j.cfg
  stopped : r.1.stopped = j.stopped
  started : r.1.started = j.started
  running : r.1.running = j.running
  pc : r.2.executing = false

lemma Job.waits_arm (j : Job κ) (now : Time) : Waits j (j.arm cron now) :=
  ⟨rfl, rfl, rfl, rfl, rfl⟩

lemma Job.waits_resume (j : Job κ) (now : Time) (origin : Origin) :
    Waits j (j.resume cron now origin) := by
  cases origin with
  | startup => exact j.waits_arm cron now
  | timer => exact ⟨rfl, rfl, rfl, rfl, rfl⟩

/-- A loop that was not executing goes on to wait. -/
lemma Waits.loopStep {j j' : Job κ} {pc pc' : Pc} (h : Waits j (j', pc'))
    (hpc : pc.executing = false) : LoopStep j j' pc pc' :=
  ⟨h.cfg, h.stopped, h.started, .inl ⟨h.pc.trans hpc.symm, h.running⟩⟩

/-- An execution ends. -/
lemma Waits.loopStep_leave {j j' : Job κ} {pc pc' : Pc} (running : Bool)
    (h : Waits { j with running := running } (j', pc')) (hpc : pc.executing = true) :
    LoopStep j j' pc pc' :=
  ⟨h.cfg, h.stopped, h.started, .inr (.inr ⟨hpc, h.pc⟩)⟩

variable {cron codec}

lemma loopMove_spec {now : Time} {cancelled : Bool} {store store' : Option (BadgerStore V)}
    {j j' : Job κ} {pc pc' : Pc} {move : Move}
    (h : loopMove cron codec now cancelled store j pc move = some ((j', pc'), store')) :
    LoopStep j j' pc pc' := by
  cases loopMove_cases h with
  | wait => exact (j.waits_arm cron now).loopStep rfl
  | begin origin running hfree =>
    exact ⟨rfl, rfl, rfl, .inr (.inl ⟨⟨origin, rfl⟩, rfl, fun hno => hfree hno⟩)⟩
  | skip origin => exact (j.waits_resume cron now origin).loopStep rfl
  | leave origin running =>
    exact (Job.waits_resume cron { j with running := running } now origin).loopStep_leave
      running rfl
  | _ => exact ⟨rfl, rfl, rfl, .inl ⟨rfl, rfl⟩⟩

/-- What the step of a loop does to the system. -/
lemma step_loop {s t : System κ V} {i : ℕ} {move : Move}
    (h : step cron codec s (.loop i move) = some t) :
    ∃ id pc j j' pc' store, s.sched.loops[i]? = some ⟨id, pc⟩ ∧ s.sched.objects[id]? = some j ∧
      loopMove cron codec s.clock s.cancelled s.sched.stateStore j pc move =
        some ((j', pc'), store) ∧ t = { s with sched := s.sched.moved i id j' pc' store } := by
  rw [step] at h
  obtain ⟨⟨id, pc⟩, hl, h⟩ := Option.bind_eq_some_iff.mp h
  obtain ⟨j, hj, h⟩ := Option.bind_eq_some_iff.mp h
  obtain ⟨⟨⟨j', pc'⟩, store⟩, hmove, h⟩ := Option.bind_eq_some_iff.mp h
  exact ⟨id, pc, j, j', pc', store, hl, hj, hmove, (Option.some.inj h).symm⟩

/-- A call of `AddJob` adds the job or changes nothing. -/
lemma step_addJob {s t : System κ V} {cfg : JobConfig}
    (h : step cron codec s (.addJob cfg) = some t) :
    t = s ∨ ∃ sched, s.sched.addJob cron codec s.clock cfg = .ok sched ∧
      t = { s with sched := sched } := by
  rw [step] at h
  split at h
  · exact .inl (Option.some.inj h).symm
  · next sched hadd => exact .inr ⟨sched, hadd, (Option.some.inj h).symm⟩

/-! ## The table in every reachable state -/

/-- The objects after a step of a loop. -/
lemma Scheduler.moved_getElem? {s : Scheduler κ V} {i id : ℕ} {pc' : Pc} {j j' : Job κ}
    {store : Option (BadgerStore V)} (hj : s.objects[id]? = some j) (k : ℕ) :
    (s.moved i id j' pc' store).objects[k]? =
      (s.objects[k]?).map fun x => if k = id then j' else x := by
  change (s.objects.set id j')[k]? = _
  by_cases hk : k = id
  · rw [hk, List.getElem?_set_self (List.getElem?_eq_some_iff.mp hj).1, hj]
    simp
  · rw [List.getElem?_set_ne (Ne.symm hk)]
    simp [hk]

lemma moved_loops_self {s : Scheduler κ V} {k n : ℕ} {l : Loop} {pc' : Pc} {j' : Job κ}
    {store : Option (BadgerStore V)} (hl : s.loops[k]? = some l) :
    (s.moved k n j' pc' store).loops[k]? = some ⟨n, pc'⟩ :=
  List.getElem?_set_self (List.getElem?_eq_some_iff.mp hl).1

lemma moved_objects_self {s : Scheduler κ V} {k n : ℕ} {pc' : Pc} {j j' : Job κ}
    {store : Option (BadgerStore V)} (hj : s.objects[n]? = some j) :
    (s.moved k n j' pc' store).objects[n]? = some j' :=
  List.getElem?_set_self (List.getElem?_eq_some_iff.mp hj).1

/-- The step of a loop keeps the settings of the objects. -/
lemma Scheduler.moved_map_cfg {s : Scheduler κ V} {i id : ℕ} {pc pc' : Pc} {j j' : Job κ}
    {store : Option (BadgerStore V)} (hj : s.objects[id]? = some j) (hstep : LoopStep j j' pc pc') :
    (s.moved i id j' pc' store).objects.map Job.cfg = s.objects.map Job.cfg :=
  map_set_of_eq hj hstep.cfg

/-- A step of a loop keeps the invariant of the table. -/
lemma Scheduler.Valid.moved {s : Scheduler κ V} (h : s.Valid) {i id : ℕ} {pc pc' : Pc}
    {j j' : Job κ} {store : Option (BadgerStore V)} (hl : s.loops[i]? = some ⟨id, pc⟩)
    (hj : s.objects[id]? = some j) (hstep : LoopStep j j' pc pc') :
    (s.moved i id j' pc' store).Valid := by
  have hobject {k : ℕ} {x : Job κ} (hx : s.objects[k]? = some x) :
      ∃ y, (s.moved i id j' pc' store).objects[k]? = some y ∧ y.cfg = x.cfg ∧
        y.stopped = x.stopped ∧ y.started = x.started := by
    refine ⟨_, by rw [Scheduler.moved_getElem? hj, hx]; rfl, ?_⟩
    dsimp only
    split_ifs with hk
    · subst hk
      obtain rfl : j = x := Option.some.inj (hj.symm.trans hx)
      exact ⟨hstep.cfg, hstep.stopped, hstep.started⟩
    · exact ⟨rfl, rfl, rfl⟩
  refine ⟨h.names, fun e he => ?_, h.current, fun l hl' => ?_⟩
  · obtain ⟨x, hx, hname⟩ := h.object e he
    obtain ⟨y, hy, hcfg, -, -⟩ := hobject hx
    exact ⟨y, hy, hcfg ▸ hname⟩
  · have hjob : ∃ l₀ ∈ s.loops, l₀.job = l.job := by
      rcases List.mem_or_eq_of_mem_set hl' with hold | rfl
      · exact ⟨l, hold, rfl⟩
      · exact ⟨⟨id, pc⟩, List.mem_of_getElem? hl, rfl⟩
    obtain ⟨l₀, hl₀, hsame⟩ := hjob
    obtain ⟨x, hx, hor⟩ := h.loop l₀ hl₀
    obtain ⟨y, hy, -, hstopped, hstarted⟩ := hobject hx
    refine ⟨y, hsame ▸ hy, ?_⟩
    rw [hstopped, hstarted, ← hsame]
    exact hor

/-- Every step keeps the invariant of the table. -/
lemma valid_step {s t : System κ V} {e : Event} (h : s.sched.Valid)
    (hstep : step cron codec s e = some t) : t.sched.Valid := by
  cases e with
  | tick d =>
    obtain rfl := Option.some.inj hstep
    exact h
  | cancel =>
    obtain rfl := Option.some.inj hstep
    exact h
  | addJob cfg =>
    obtain rfl | ⟨sched, hadd, rfl⟩ := step_addJob hstep
    · exact h
    · exact h.addJob cron codec hadd
  | start =>
    obtain rfl := Option.some.inj hstep
    exact h.start
  | stop =>
    obtain ⟨sched, hstop, rfl⟩ := Option.map_eq_some_iff.mp hstep
    exact h.stop hstop
  | clear =>
    obtain ⟨sched, hclear, rfl⟩ := Option.map_eq_some_iff.mp hstep
    exact h.clear hclear
  | loop i move =>
    obtain ⟨id, pc, j, j', pc', store, hl, hj, hmove, rfl⟩ := step_loop hstep
    exact h.moved hl hj (loopMove_spec hmove)

/-- **The invariant of the table holds in every reachable state.** -/
theorem valid_of_run {stateStore : Option (BadgerStore V)} {clock : Time} {es : List Event}
    {s : System κ V} (hrun : run (step cron codec) (.init stateStore clock) es = some s) :
    s.sched.Valid :=
  inv_of_run (I := fun s => s.sched.Valid) (fun _ _ _ => valid_step)
    (Scheduler.valid_new stateStore) hrun

/-! ## A job -/

def noCron : CronLib Unit := ⟨fun _ => none, fun _ t => t⟩

def stateCodec : Codec JobState JobState := ⟨id, .ok, fun _ => rfl⟩

/-- A job that does not allow overlaps. -/
def scan : JobConfig :=
  { name := "scan", plugin := "system.disk_usage", schedule := "20ms", timeout := second
    maxRetries := 0, retryBackoff := 0, retryMax := 0, allowOverlap := false, runOnStart := true }

end Arcsent.Scheduling
