/-
# The first start after the execution at the start

When a job is added it is given a due time, before its loop executes it at the start.  One
loop is followed here by itself, with whatever the rest of the daemon does to it: until that
execution is recorded, and from there to the next one that the timer starts.
-/
import Arcsent.Scheduler.DueTimes

namespace Arcsent.Scheduling

open Arcsent.Go Arcsent.Scanner Arcsent.Storage Arcsent.Lib

variable {κ V : Type} {cron : CronLib κ} {codec : Codec JobState V}
variable {j : Job κ} {d : Duration}

/-! ## One loop by itself -/

/-- The loop of a job with what it reads and writes. -/
structure LoopState (κ V : Type) where
  clock : Time
  cancelled : Bool
  store : Option (BadgerStore V)
  job : Job κ
  pc : Pc

/-- A step of the loop, or something that happens to it from outside. -/
inductive LoopEvent (V : Type)
  | tick (d : ℕ)
  | cancel
  /-- The job is told to stop. -/
  | stop
  /-- The loop of another job writes to the store. -/
  | written (store : Option (BadgerStore V))
  | move (m : Move)

/-- The system as one loop sees it. -/
def loopStep (cron : CronLib κ) (codec : Codec JobState V) (s : LoopState κ V) :
    LoopEvent V → Option (LoopState κ V)
  | .tick d => some { s with clock := s.clock + d }
  | .cancel => some { s with cancelled := true }
  | .stop => some { s with job := { s.job with stopped := true } }
  | .written store => some { s with store := store }
  | .move m =>
    (loopMove cron codec s.clock s.cancelled s.store s.job s.pc m).map fun r =>
      { s with job := r.1.1, pc := r.1.2, store := r.2 }

/-- A loop of the system, seen by itself. -/
def System.seen (s : System κ V) (j : Job κ) (pc : Pc) : LoopState κ V :=
  ⟨s.clock, s.cancelled, s.sched.stateStore, j, pc⟩

/-- A step of the daemon is a step of each of its loops, or happens to it from outside. -/
theorem seen_of_daemonStep {s t : System κ V} (hkept : Kept codec s) {e : DaemonEvent}
    (hstep : daemonStep cron codec s e = some t) (hne : e ≠ .restart) {i id : ℕ} {pc : Pc}
    {j : Job κ} (hl : s.sched.loops[i]? = some ⟨id, pc⟩) (hj : s.sched.objects[id]? = some j) :
    ∃ pc' j', t.sched.loops[i]? = some ⟨id, pc'⟩ ∧ t.sched.objects[id]? = some j' ∧
      ∃ es, run (loopStep cron codec) (s.seen j pc) es = some (t.seen j' pc') := by
  cases e with
  | tick d =>
    obtain rfl := Option.some.inj hstep
    exact ⟨pc, j, hl, hj, [.tick d], rfl⟩
  | cancel =>
    obtain rfl := Option.some.inj hstep
    exact ⟨pc, j, hl, hj, [.cancel], rfl⟩
  | addJob cfg =>
    obtain rfl | ⟨sched, hadd, rfl⟩ := step_addJob hstep
    · exact ⟨pc, j, hl, hj, [], rfl⟩
    · obtain ⟨spec, -, -, rfl⟩ := (Scheduler.addJob_eq_ok cron codec).mp hadd
      refine ⟨pc, j, hl, ?_, [], rfl⟩
      dsimp only
      rw [List.getElem?_append_left (List.getElem?_eq_some_iff.mp hj).1]
      exact hj
  | start =>
    obtain rfl := Option.some.inj hstep
    refine ⟨pc, j, ?_, ?_, [], rfl⟩
    · change (s.sched.loops ++ _)[i]? = _
      rw [List.getElem?_append_left (List.getElem?_eq_some_iff.mp hl).1]
      exact hl
    · dsimp only
      rw [Scheduler.start_getElem?, hj, Option.map_some,
        if_neg (hkept.not_mem_idle (List.mem_of_getElem? hl))]
  | loop k move =>
    obtain ⟨id', pc₀, j₀, j', pc', store, hl', hj', hmove, rfl⟩ := step_loop hstep
    by_cases hki : i = k
    · subst hki
      obtain ⟨rfl, rfl⟩ := Loop.mk.inj (Option.some.inj (hl'.symm.trans hl))
      obtain rfl := Option.some.inj (hj'.symm.trans hj)
      refine ⟨pc', j', moved_loops_self hl, moved_objects_self hj, [.move move], ?_⟩
      rw [run_cons, loopStep]
      dsimp only [System.seen]
      rw [hmove]
      rfl
    · -- the loop of another job writes its state
      have hother : id ≠ id' := hkept.job_ne hl' hl hki
      refine ⟨pc, j, ?_, ?_, [.written store], rfl⟩
      · change (s.sched.loops.set k _)[i]? = _
        rw [List.getElem?_set_ne (Ne.symm hki)]
        exact hl
      · dsimp only
        rw [Scheduler.moved_getElem? hj', hj, Option.map_some, if_neg hother]
  | restart => exact absurd rfl hne

/-! ## The execution at the start of the loop -/

/-- The loop has come no further than its execution at the start. -/
def Pc.StartsUp : Pc → Prop
  | top => True
  | entering origin => origin = .startup
  | attempt origin _ => origin = .startup
  | backoff origin _ _ => origin = .startup
  | saving origin _ => origin = .startup
  | _ => False

/-- What holds until the execution at the start is recorded: the job is due an interval after
the time it was added. -/
structure StartingUp (d : Duration) (added : Time) (s : LoopState κ V) : Prop where
  interval : s.job.interval = some d
  due : s.job.nextRun = added + d
  start : s.job.cfg.runOnStart = true
  fresh : isZero s.job.state.lastRun = true
  later : added ≤ s.clock
  free : s.pc.executing = false → s.job.running = false
  pc : s.pc.StartsUp

/-- The job is about to be recorded. -/
def Pc.isSaving : Pc → Bool
  | saving _ _ => true
  | _ => false

variable {s t : LoopState κ V} {added : Time}

/-- The step: until the execution is recorded nothing of that changes. -/
lemma startingUp_step {e : LoopEvent V} (h : StartingUp d added s)
    (hsave : s.pc.isSaving = true → e ≠ .move .go) (hstep : loopStep cron codec s e = some t) :
    StartingUp d added t := by
  cases e with
  | tick n =>
    obtain rfl := Option.some.inj hstep
    have hlater : s.clock ≤ s.clock + (n : ℤ) := le_add_of_nonneg_right (Int.natCast_nonneg n)
    exact ⟨h.interval, h.due, h.start, h.fresh, h.later.trans hlater, h.free, h.pc⟩
  | cancel =>
    obtain rfl := Option.some.inj hstep
    exact ⟨h.interval, h.due, h.start, h.fresh, h.later, h.free, h.pc⟩
  | stop =>
    obtain rfl := Option.some.inj hstep
    exact ⟨h.interval, h.due, h.start, h.fresh, h.later, h.free, h.pc⟩
  | written store =>
    obtain rfl := Option.some.inj hstep
    exact ⟨h.interval, h.due, h.start, h.fresh, h.later, h.free, h.pc⟩
  | move m =>
    obtain ⟨clock, cancelled, store, j, pc⟩ := s
    rw [loopStep] at hstep
    obtain ⟨⟨⟨j', pc'⟩, store'⟩, hmove, rfl⟩ := Option.map_eq_some_iff.mp hstep
    have hpc := h.pc
    cases loopMove_cases hmove with
    | enter hstart => exact ⟨h.interval, h.due, h.start, h.fresh, h.later, h.free, rfl⟩
    | wait hno => exact absurd ⟨h.start, h.fresh⟩ hno
    | begin origin running =>
      exact ⟨h.interval, h.due, h.start, h.fresh, h.later, fun hno => Bool.noConfusion hno, hpc⟩
    | skip origin hbusy =>
      -- no other execution of the job is in progress
      rw [h.free rfl] at hbusy
      exact absurd hbusy.2 Bool.false_ne_true
    | succeed origin n status =>
      exact ⟨h.interval, h.due, h.start, h.fresh, h.later, fun hno => Bool.noConfusion hno, hpc⟩
    | retry origin n r =>
      exact ⟨h.interval, h.due, h.start, h.fresh, h.later, fun hno => Bool.noConfusion hno, hpc⟩
    | fail origin n r =>
      exact ⟨h.interval, h.due, h.start, h.fresh, h.later, fun hno => Bool.noConfusion hno, hpc⟩
    | again origin n deadline =>
      exact ⟨h.interval, h.due, h.start, h.fresh, h.later, fun hno => Bool.noConfusion hno, hpc⟩
    | save origin outcome => exact absurd rfl (hsave rfl)
    | leave origin running => exact hpc.elim
    | fire deadline => exact hpc.elim
    | halt deadline => exact hpc.elim

/-- Just after the execution at the start has been recorded. -/
structure JustRecorded (d : Duration) (added : Time) (s : LoopState κ V) : Prop where
  interval : s.job.interval = some d
  due : s.job.nextRun = added + d
  last : s.job.state.lastRun = s.clock
  later : added ≤ s.clock
  pc : s.pc = .leaving .startup

lemma StartingUp.recorded (h : StartingUp d added s) (hpc : s.pc.isSaving = true)
    (hstep : loopStep cron codec s (.move .go) = some t) : JustRecorded d added t := by
  obtain ⟨clock, cancelled, store, j, pc⟩ := s
  cases pc with
  | saving origin outcome =>
    obtain rfl : origin = .startup := h.pc
    obtain rfl := Option.some.inj hstep
    refine ⟨h.interval, h.due, ?_, h.later, rfl⟩
    cases outcome <;> rfl
  | _ => cases hpc

variable (cron codec) in
/-- An execution begins. -/
def Begins (s : LoopState κ V) (e : LoopEvent V) : Prop :=
  s.pc.isEntering = true ∧ ∃ t, loopStep cron codec s e = some t ∧ t.pc.begins = true

variable (cron codec) in
/-- The timer comes to start an execution at a time, with none before it. -/
def FirstStart (s : LoopState κ V) (b : Time) : Prop :=
  ∃ es u, Meets (loopStep cron codec) (fun u e => ¬ Begins cron codec u e) s es ∧
    run (loopStep cron codec) s es = some u ∧ u.pc = .entering .timer ∧
    Begins cron codec u (.move .go) ∧ u.clock = b

/-! ### No start before a time -/

/-- The due time of a job is no earlier than a limit, or still to be computed. -/
def Job.DueFrom (j : Job κ) (limit : Time) : Prop := isZero j.nextRun = true ∨ limit ≤ j.nextRun

/-- A loop that does not execute will not do so before a limit. -/
def Job.HeldBack (j : Job κ) (limit now : Time) : Pc → Prop
  | .top => j.DueFrom limit
  | .armed deadline => limit ≤ deadline
  | .entering .startup => j.DueFrom limit
  | .entering .timer => limit ≤ now
  | .leaving .startup => j.DueFrom limit
  | .exited => True
  | _ => False

/-- That depends on the due time of the job only, and time may go on. -/
lemma Job.HeldBack.of_nextRun {j' : Job κ} {limit now now' : Time} {pc : Pc}
    (h : j.HeldBack limit now pc) (hnext : j'.nextRun = j.nextRun) (hle : now ≤ now') :
    j'.HeldBack limit now' pc := by
  have hdue : j.DueFrom limit → j'.DueFrom limit := by
    rw [Job.DueFrom, Job.DueFrom, hnext]
    exact id
  cases pc with
  | top => exact hdue h
  | armed deadline => exact h
  | entering origin =>
    cases origin with
    | startup => exact hdue h
    | timer => exact le_trans h hle
  | leaving origin =>
    cases origin with
    | startup => exact hdue h
    | timer => exact h.elim
  | exited => trivial
  | _ => exact h.elim

/-- A loop that waits for an interval after the last run. -/
structure Counted (d : Duration) (last : Time) (s : LoopState κ V) : Prop where
  interval : s.job.interval = some d
  ran : s.job.state.lastRun = last
  le : last ≤ s.clock
  held : s.job.HeldBack (last + d) s.clock s.pc

lemma spec_of_interval (h : j.interval = some d) : ∃ raw, j.spec = .interval d raw := by
  rw [Job.interval] at h
  cases hspec : j.spec with
  | interval d' raw =>
    rw [hspec] at h
    exact ⟨raw, by rw [Option.some.inj h]⟩
  | cron k raw =>
    rw [hspec] at h
    cases h

/-- A due time that is computed now is at least an interval after the last run. -/
lemma le_computeNextRun {now : Time} (h : j.interval = some d) (hlast : j.state.lastRun ≤ now) :
    j.state.lastRun + d ≤ j.computeNextRun cron now := by
  obtain ⟨raw, hspec⟩ := spec_of_interval h
  by_cases hpending : j.state.Pending d now
  · rw [computeNextRun_of_pending hspec hpending]
  · rw [computeNextRun_of_not_pending hspec hpending]
    exact add_le_add_left hlast d

lemma Job.heldBack_arm {now : Time} (h : j.interval = some d) (hlast : j.state.lastRun ≤ now)
    (hdue : j.DueFrom (j.state.lastRun + d)) :
    (j.arm cron now).1.HeldBack (j.state.lastRun + d) now (j.arm cron now).2 := by
  rw [Job.arm]
  dsimp only [Job.HeldBack]
  split_ifs with hzero
  · exact le_computeNextRun h hlast
  · exact hdue.resolve_left hzero

/-- The step: the loop goes on waiting for that time, as long as it begins no execution. -/
lemma counted_step {last : Time} {e : LoopEvent V} (h : Counted d last s)
    (hno : ¬ Begins cron codec s e) (hstep : loopStep cron codec s e = some t) :
    Counted d last t := by
  cases e with
  | tick n =>
    obtain rfl := Option.some.inj hstep
    have hlater : s.clock ≤ s.clock + (n : ℤ) := le_add_of_nonneg_right (Int.natCast_nonneg n)
    exact ⟨h.interval, h.ran, h.le.trans hlater, h.held.of_nextRun rfl hlater⟩
  | cancel =>
    obtain rfl := Option.some.inj hstep
    exact ⟨h.interval, h.ran, h.le, h.held⟩
  | stop =>
    obtain rfl := Option.some.inj hstep
    exact ⟨h.interval, h.ran, h.le, h.held.of_nextRun rfl le_rfl⟩
  | written store =>
    obtain rfl := Option.some.inj hstep
    exact ⟨h.interval, h.ran, h.le, h.held⟩
  | move m =>
    obtain ⟨clock, cancelled, store, j, pc⟩ := s
    rw [loopStep] at hstep
    obtain ⟨⟨⟨j', pc'⟩, store'⟩, hmove, rfl⟩ := Option.map_eq_some_iff.mp hstep
    have hheld := h.held
    obtain rfl : j.state.lastRun = last := h.ran
    cases loopMove_cases hmove with
    | enter hstart => exact ⟨h.interval, rfl, h.le, hheld⟩
    | wait hwait => exact ⟨h.interval, rfl, h.le, Job.heldBack_arm h.interval h.le hheld⟩
    | begin origin running => exact absurd ⟨rfl, _, by rw [loopStep, hmove]; rfl, rfl⟩ hno
    | skip origin hbusy =>
      cases origin with
      | startup => exact ⟨h.interval, rfl, h.le, Job.heldBack_arm h.interval h.le hheld⟩
      | timer => exact ⟨h.interval, rfl, h.le, .inr (le_computeNextRun h.interval h.le)⟩
    | leave origin running =>
      cases origin with
      | startup =>
        exact ⟨h.interval, rfl, h.le,
          Job.heldBack_arm (j := { j with running := running }) h.interval h.le hheld⟩
      | timer => exact hheld.elim
    | fire deadline hdue => exact ⟨h.interval, rfl, h.le, le_trans hheld hdue⟩
    | halt deadline => exact ⟨h.interval, rfl, h.le, trivial⟩
    | _ => exact hheld.elim

/-- The run: no start comes before that time. -/
lemma Counted.le_of_firstStart {last b : Time} (h : Counted d last s)
    (hb : FirstStart cron codec s b) : last + d ≤ b := by
  obtain ⟨es, u, hmeets, hrun, hpc, -, rfl⟩ := hb
  have hu := inv_of_meets (I := Counted d last) (fun _ _ _ => counted_step) h hmeets hrun
  have hheld := hu.held
  rw [hpc] at hheld
  exact hheld

/-! ### A start before a time -/

/-- The timer of a job that no other execution is in progress of fires when it is due. -/
lemma firstStart_of_armed {deadline : Time} (hpc : s.pc = .armed deadline)
    (hfree : s.job.cfg.allowOverlap = false → s.job.running = false) :
    FirstStart cron codec s (max s.clock deadline) := by
  obtain ⟨clock, cancelled, store, j, pc⟩ := s
  obtain rfl : pc = .armed deadline := hpc
  have hclock : clock + ((deadline - clock).toNat : ℤ) = max clock deadline := by
    rw [Int.ofNat_toNat, add_max, add_zero, add_sub_cancel, max_comm]
  have hfire : loopMove cron codec (max clock deadline) cancelled store j (.armed deadline) .fire =
      some ((j, .entering .timer), store) := by
    rw [loopMove, if_pos (le_max_right _ _)]
  refine ⟨[.tick (deadline - clock).toNat, .move .fire],
    ⟨max clock deadline, cancelled, store, j, .entering .timer⟩, ?_, ?_, rfl, ⟨rfl, ?_⟩, rfl⟩
  · refine ⟨fun h => absurd h.1 Bool.false_ne_true, fun u hu => ?_⟩
    obtain rfl := Option.some.inj hu
    exact ⟨fun h => absurd h.1 Bool.false_ne_true, fun _ _ => trivial⟩
  · rw [run_cons, loopStep, Option.bind_some]
    dsimp only
    rw [hclock, run_cons, loopStep]
    dsimp only
    rw [hfire]
    rfl
  · rw [loopStep]
    dsimp only
    rw [loopMove]
    by_cases hoverlap : j.cfg.allowOverlap = true
    · rw [if_pos hoverlap]
      exact ⟨_, rfl, rfl⟩
    · have hidle : j.running = false := hfree (by simpa using hoverlap)
      rw [if_neg hoverlap, hidle]
      exact ⟨_, rfl, rfl⟩

/-- What follows a step that begins no execution follows the state before it. -/
lemma FirstStart.of_step {e : LoopEvent V} {b : Time} (hstep : loopStep cron codec s e = some t)
    (hno : ¬ Begins cron codec s e) (h : FirstStart cron codec t b) :
    FirstStart cron codec s b := by
  obtain ⟨es, u, hmeets, hrun, hrest⟩ := h
  refine ⟨e :: es, u, ⟨hno, fun t' ht' => ?_⟩, run_cons_eq_some.mpr ⟨t, hstep, hrun⟩, hrest⟩
  obtain rfl := Option.some.inj (hstep.symm.trans ht')
  exact hmeets

variable (cron codec) in
/-- A loop that leaves its execution at the start waits for the time at which the job was due
already, and then starts the next one. -/
lemma firstStart_of_leaving (hpc : s.pc = .leaving .startup)
    (hdue : isZero s.job.nextRun = false) :
    FirstStart cron codec s (max s.clock s.job.nextRun) := by
  obtain ⟨clock, cancelled, store, j, pc⟩ := s
  obtain rfl : pc = .leaving .startup := hpc
  obtain ⟨running, hleave, hfree⟩ : ∃ running,
      loopMove cron codec clock cancelled store j (.leaving .startup) .go =
        some (({ j with running := running }, .armed j.nextRun), store) ∧
      (j.cfg.allowOverlap = false → running = false) := by
    rw [loopMove]
    dsimp only [Job.resume, Job.arm]
    by_cases hoverlap : j.cfg.allowOverlap = true
    · rw [if_pos hoverlap, hdue]
      exact ⟨j.running, rfl, fun hno => absurd (hoverlap.symm.trans hno) Bool.noConfusion⟩
    · rw [if_neg hoverlap, hdue]
      exact ⟨false, rfl, fun _ => rfl⟩
  have hstep : loopStep cron codec ⟨clock, cancelled, store, j, .leaving .startup⟩ (.move .go) =
      some ⟨clock, cancelled, store, { j with running := running }, .armed j.nextRun⟩ := by
    rw [loopStep]
    dsimp only
    rw [hleave]
    rfl
  exact (firstStart_of_armed rfl hfree).of_step hstep fun h => absurd h.1 Bool.false_ne_true

/-- The loop of a job that has just been added, with the clock read later. -/
def loopStart (cron : CronLib κ) (codec : Codec JobState V) (store : Option (BadgerStore V))
    (cfg : JobConfig) (spec : ScheduleSpec κ) (added : Time) (later : ℕ) : LoopState κ V :=
  ⟨added + later, false, store, newJob cron codec store cfg.normalize spec added, .top⟩

/-- **When the execution at the start counts.**  A job with an interval that runs at the start
and has no saved last run is added at a time, and its loop goes on until its first execution
has just been recorded.  However the loop goes on from there, the first start by the timer is
at least an interval after the recorded last run, exactly when that is recorded at the very
time at which the job was added, or the job was then due at the zero time. -/
theorem startup_counts_iff (cron : CronLib κ) (codec : Codec JobState V)
    (store : Option (BadgerStore V)) {cfg : JobConfig} {d : Duration} {raw : String}
    (hcheck : cfg.check cron = .ok (.interval d raw)) (hstart : cfg.runOnStart = true)
    (hfresh : isZero (loadState codec store cfg.name).lastRun = true) (added : Time) (later : ℕ)
    {es : List (LoopEvent V)} {s t : LoopState κ V}
    (hrun : run (loopStep cron codec)
      (loopStart cron codec store cfg (.interval d raw) added later) es = some s)
    (hnone : Meets (loopStep cron codec) (fun u e => u.pc.isSaving = true → e ≠ .move .go)
      (loopStart cron codec store cfg (.interval d raw) added later) es)
    (hpc : s.pc.isSaving = true) (hstep : loopStep cron codec s (.move .go) = some t) :
    (∀ b, FirstStart cron codec t b → t.job.state.lastRun + d ≤ b) ↔
      t.job.state.lastRun = added ∨ isZero (added + d) = true := by
  have hd : 0 < d := (known_newJob codec store hcheck added).interval d rfl
  have hinit :
      StartingUp d added (loopStart cron codec store cfg (.interval d raw) added later) := by
    refine ⟨rfl, ?_, hstart, hfresh, le_add_of_nonneg_right (Int.natCast_nonneg later),
      fun _ => rfl, trivial⟩
    have hnot : ¬ (loadState codec store cfg.name).Pending d added := fun h => by
      rw [h.1] at hfresh
      exact Bool.false_ne_true hfresh
    exact computeNextRun_of_not_pending (j := { newJob cron codec store cfg.normalize
      (.interval d raw) added with nextRun := 0 }) rfl hnot
  have hbefore := inv_of_meets (I := StartingUp d added)
    (fun _ _ _ h hsave => startingUp_step h hsave) hinit hnone hrun
  have h := hbefore.recorded hpc hstep
  constructor
  · intro hlaw
    by_contra hcond
    obtain ⟨hlater, hdue⟩ := not_or.mp hcond
    have hlt : added < t.clock :=
      lt_of_le_of_ne h.later fun he => hlater (h.last.trans he.symm)
    -- the timer was set before the execution
    have hfirst := firstStart_of_leaving cron codec h.pc
      (by rw [h.due]; simpa using hdue)
    have hb := hlaw _ hfirst
    rw [h.last, h.due] at hb
    exact absurd hb (not_le.mpr (max_lt (lt_add_of_pos_right _ hd) (add_lt_add_left hlt d)))
  · intro hcond b hb
    refine Counted.le_of_firstStart ⟨h.interval, rfl, h.last.le, ?_⟩ hb
    rw [h.pc]
    change isZero t.job.nextRun = true ∨ _
    rw [h.due]
    rcases hcond with hsame | hzero
    · exact .inr (by rw [hsame])
    · exact .inl hzero

/-- The loop of a job that runs at the start and then every twenty milliseconds. -/
def scanStart : LoopState Unit JobState :=
  loopStart noCron stateCodec (some .empty) scan (.interval (20 * millisecond) "20ms") unixEpoch 0

/-- No time passes while it is executed at the start. -/
theorem startup_counted :
    ∃ s t, run (loopStep noCron stateCodec) scanStart
        [.move .go, .move .go, .move (.ran (.result .success))] = some s ∧
      loopStep noCron stateCodec s (.move .go) = some t ∧
      ∀ b, FirstStart noCron stateCodec t b → t.job.state.lastRun + 20 * millisecond ≤ b := by
  refine ⟨_, _, rfl, rfl, ?_⟩
  have hcheck : scan.check noCron = .ok (.interval (20 * millisecond) "20ms") := by
    decide +kernel
  refine (@startup_counts_iff _ _ noCron stateCodec (some .empty) _ _ _ hcheck rfl
    (by decide +kernel) unixEpoch 0 [.move .go, .move .go, .move (.ran (.result .success))]
    _ _ rfl ?_ rfl rfl).mpr (.inl rfl)
  -- the execution is recorded by none of these steps
  refine ⟨fun h => absurd h Bool.false_ne_true, fun u hu => ?_⟩
  obtain rfl := Option.some.inj hu
  refine ⟨fun h => absurd h Bool.false_ne_true, fun u hu => ?_⟩
  obtain rfl := Option.some.inj hu
  exact ⟨fun h => absurd h Bool.false_ne_true, fun _ _ => trivial⟩

/-- The execution at the start takes five milliseconds, and the next start comes five
milliseconds too early. -/
theorem startup_not_counted :
    ∃ s t, run (loopStep noCron stateCodec) scanStart
        [.move .go, .move .go, .tick (5 * millisecond).toNat,
          .move (.ran (.result .success))] = some s ∧
      loopStep noCron stateCodec s (.move .go) = some t ∧
      ∃ b, FirstStart noCron stateCodec t b ∧ b < t.job.state.lastRun + 20 * millisecond := by
  exact ⟨_, _, rfl, rfl, _, firstStart_of_leaving _ _ rfl (by decide +kernel), by decide +kernel⟩

end Arcsent.Scheduling
