/-
# Restarts of the daemon

When a job was last executed is kept in the store; when it is next due is kept in memory
only.  A restart of the daemon builds a new scheduler from the store, at any point, also
while jobs are being executed.  Each execution of a job that the timer started is followed
by a new due time.  The one at the start of a loop is not: there the job stays due at the
time that was computed when it was added.
-/
import Arcsent.Scheduler.Loops

namespace Arcsent.Scheduling

open Arcsent.Go Arcsent.Scanner Arcsent.Storage Arcsent.Lib

variable {κ V : Type}

/-- What happens to a daemon that is started again and again. -/
inductive DaemonEvent
  | tick (d : ℕ)
  | cancel
  | addJob (cfg : JobConfig)
  | start
  | loop (i : ℕ) (move : Move)
  /-- The daemon ends, whatever its loops are doing, and is started again. -/
  | restart

/-- The interval of a job that is not scheduled by a cron expression. -/
def Job.interval (j : Job κ) : Option Duration :=
  match j.spec with
  | .interval d _ => some d
  | .cron _ _ => none

/-- An execution has just begun. -/
def Pc.begins : Pc → Bool
  | attempt _ 0 => true
  | _ => false

section Definitions

variable (cron : CronLib κ) (codec : Codec JobState V)

/-- A step of the daemon.  Of all that was in memory nothing survives a restart. -/
def daemonStep (s : System κ V) : DaemonEvent → Option (System κ V)
  | .tick d => step cron codec s (.tick d)
  | .cancel => step cron codec s .cancel
  | .addJob cfg => step cron codec s (.addJob cfg)
  | .start => step cron codec s .start
  | .loop i move => step cron codec s (.loop i move)
  | .restart => some (.init s.sched.stateStore s.clock)

/-- No execution of an interval job starts before the saved time of the last one plus the
interval. -/
def Spaced (s : System κ V) : DaemonEvent → Prop
  | .loop i move => ∀ l ∈ s.sched.loops[i]?, ∀ j ∈ s.sched.objects[l.job]?,
      ∀ interval ∈ j.interval,
        ∀ r ∈ loopMove cron codec s.clock s.cancelled s.sched.stateStore j l.pc move,
          r.1.2.begins = true →
            let saved := loadState codec s.sched.stateStore j.cfg.name
            isZero saved.lastRun = false → saved.lastRun + interval ≤ s.clock
  | _ => True

end Definitions

/-- The execution at the start of a loop is about to be recorded. -/
def Pc.isStartupSaving : Pc → Bool
  | saving .startup _ => true
  | _ => false

/-- The execution at the start of a loop is recorded at least an interval before the time at
which its job was due already. -/
def RecordedInTime (s : System κ V) : DaemonEvent → Prop
  | .loop i .go => ∀ l ∈ s.sched.loops[i]?, ∀ j ∈ s.sched.objects[l.job]?,
      ∀ interval ∈ j.interval, l.pc.isStartupSaving = true →
        isZero s.clock = true ∨ isZero j.nextRun = true ∨ s.clock + interval ≤ j.nextRun
  | _ => True

instance (s : System κ V) : ∀ e, Decidable (RecordedInTime s e)
  | .loop i .go => inferInstanceAs (Decidable (∀ l ∈ s.sched.loops[i]?, _))
  | .loop _ (.ran _) => isTrue trivial
  | .loop _ .fire => isTrue trivial
  | .loop _ .halt => isTrue trivial
  | .tick _ => isTrue trivial
  | .cancel => isTrue trivial
  | .addJob _ => isTrue trivial
  | .start => isTrue trivial
  | .restart => isTrue trivial

/-! ## The time at which a job is due -/

/-- A time is no earlier than the last execution of the job plus its interval. -/
def Job.RestedAt (j : Job κ) (t : Time) : Prop :=
  ∀ interval ∈ j.interval, isZero j.state.lastRun = false → j.state.lastRun + interval ≤ t

/-- The job is due at a time that respects its last execution, or that is still to be
computed. -/
def Job.Scheduled (j : Job κ) : Prop := isZero j.nextRun = true ∨ j.RestedAt j.nextRun

/-- What the position of a loop says about the last execution of its job. -/
def Job.Rested (j : Job κ) (now : Time) : Pc → Prop
  | .top => j.Scheduled
  | .armed deadline => j.RestedAt deadline
  | .entering origin => (origin = .startup → isZero j.state.lastRun = true) ∧ j.RestedAt now
  | .attempt origin _ | .backoff origin _ _ | .saving origin _ =>
    origin = .startup → isZero j.state.lastRun = true
  | .leaving origin => origin = .startup → j.Scheduled
  | .exited => True

variable {cron : CronLib κ} {codec : Codec JobState V} {j j' : Job κ} {now : Time}

lemma Job.RestedAt.mono {t t' : Time} (h : j.RestedAt t) (hle : t ≤ t') : j.RestedAt t' :=
  fun interval hinterval hrun => (h interval hinterval hrun).trans hle

lemma Job.restedAt_of_isZero (h : isZero j.state.lastRun = true) (t : Time) : j.RestedAt t := by
  intro interval _ hrun
  rw [h] at hrun
  cases hrun

lemma Job.Rested.mono {now' : Time} {pc : Pc} (h : j.Rested now pc) (hle : now ≤ now') :
    j.Rested now' pc := by
  cases pc with
  | entering origin => exact ⟨h.1, h.2.mono hle⟩
  | _ => exact h

/-- The due time that is computed respects the last execution. -/
lemma Job.restedAt_computeNextRun (hpos : ∀ interval ∈ j.interval, 0 < interval) (now : Time) :
    j.RestedAt (j.computeNextRun cron now) := by
  intro interval hinterval hrun
  have hinterval_pos := hpos interval hinterval
  rw [Job.computeNextRun]
  rw [Job.interval] at hinterval
  cases hspec : j.spec with
  | cron k raw =>
    rw [hspec] at hinterval
    cases hinterval
  | interval d raw =>
    rw [hspec] at hinterval
    obtain rfl := Option.some.inj hinterval
    dsimp only
    split_ifs with hfuture
    · exact le_refl _
    · -- the job is overdue
      have hpast : j.state.lastRun + d ≤ now := not_lt.mp fun hlt => hfuture ⟨hrun, hlt⟩
      exact hpast.trans (le_add_of_nonneg_right hinterval_pos.le)

lemma Job.rested_arm (hpos : ∀ interval ∈ j.interval, 0 < interval) (h : j.Scheduled)
    (now : Time) : (j.arm cron now).1.Rested now (j.arm cron now).2 := by
  have hnext : j.RestedAt (if isZero j.nextRun then j.computeNextRun cron now else j.nextRun) := by
    split_ifs with hzero
    · exact Job.restedAt_computeNextRun hpos now
    · exact h.resolve_left hzero
  exact hnext

/-- After an execution that the timer started, or one that was skipped, a job has a due time
that respects its last execution. -/
lemma Job.rested_resume (hpos : ∀ interval ∈ j.interval, 0 < interval) (origin : Origin)
    (h : origin = .startup → j.Scheduled) (now : Time) :
    (j.resume cron now origin).1.Rested now (j.resume cron now origin).2 := by
  cases origin with
  | startup => exact Job.rested_arm hpos (h rfl) now
  | timer =>
    have hnext : j.RestedAt (j.computeNextRun cron now) := Job.restedAt_computeNextRun hpos now
    exact .inr hnext

/-- A step of a loop leaves its job rested, unless it records an execution at the start of
the loop too late. -/
lemma Job.rested_loopMove {cancelled : Bool} {store store' : Option (BadgerStore V)} {pc pc' : Pc}
    {move : Move}
    (hmove : loopMove cron codec now cancelled store j pc move = some ((j', pc'), store'))
    (hpos : ∀ interval ∈ j.interval, 0 < interval) (h : j.Rested now pc)
    (htime : move = .go → ∀ interval ∈ j.interval, pc.isStartupSaving = true →
      isZero now = true ∨ isZero j.nextRun = true ∨ now + interval ≤ j.nextRun) :
    j'.Rested now pc' := by
  cases loopMove_cases hmove with
  | enter hstart => exact ⟨fun _ => hstart.2, Job.restedAt_of_isZero hstart.2 now⟩
  | wait => exact Job.rested_arm hpos h now
  | begin origin running hfree => exact h.1
  | skip origin =>
    have hfirst : origin = .startup → j.Scheduled := fun hstart =>
      .inr (Job.restedAt_of_isZero (h.1 hstart) _)
    exact Job.rested_resume hpos origin hfirst now
  | save origin outcome =>
    -- the job was due already before it was executed
    rintro rfl
    have hlast : (j.state.update now outcome).lastRun = now := by cases outcome <;> rfl
    by_cases hzero : isZero j.nextRun = true
    · exact .inl hzero
    · right
      intro interval hinterval hrun
      dsimp only at hrun ⊢
      rw [hlast] at hrun ⊢
      rcases htime rfl interval hinterval rfl with hclock | hnext | hle
      · rw [hclock] at hrun
        cases hrun
      · exact absurd hnext hzero
      · exact hle
  | leave origin running =>
    have hleft : origin = .startup → Job.Scheduled { j with running := running } := h
    exact Job.rested_resume (j := { j with running := running }) hpos origin hleft now
  | fire deadline hdue =>
    refine ⟨?_, Job.RestedAt.mono h hdue⟩
    intro hstart
    cases hstart
  | halt => trivial
  | _ => exact h

/-! ## The saved states -/

/-- What is saved for a job is found under its name, and the other saved states are kept. -/
lemma loadState_saveState (codec : Codec JobState V) (b : BadgerStore V) (hname : j.cfg.name ≠ "") :
    ∃ b', saveState codec (some b) j = some b' ∧ ∀ name,
      loadState codec (some b') name =
        if name = j.cfg.name then j.state else loadState codec (some b) name := by
  have hkey : ¬ (stateBucket = [] ∨ bytes j.cfg.name = []) := by
    rintro (hbucket | hempty)
    · exact absurd hbucket (by decide)
    · exact hname (bytes_inj.mp hempty)
  obtain ⟨b', hput, hget⟩ := b.exists_put hkey (codec.marshal j.state)
  refine ⟨b', by simp [saveState, hput, Except.toOption], fun name => ?_⟩
  split_ifs with hsame
  · subst hsame
    simp [loadState, hget, codec.unmarshal_marshal, Except.toOption]
  · have hne : makeKey stateBucket (bytes j.cfg.name) ≠ makeKey stateBucket (bytes name) :=
      fun he => hsame (bytes_inj.mp ((makeKey_inj (by decide) (by decide)).mp he).2.symm)
    rw [loadState, loadState, BadgerStore.get_of_put hput hne]

/-- A step of a loop keeps the schedule of its job.  It saves the state of the job, or changes
neither that nor the store. -/
lemma saved_of_loopMove {cancelled : Bool} {store store' : Option (BadgerStore V)} {pc pc' : Pc}
    {move : Move}
    (hmove : loopMove cron codec now cancelled store j pc move = some ((j', pc'), store')) :
    j'.spec = j.spec ∧
      (store' = saveState codec store j' ∨ store' = store ∧ j'.state = j.state) := by
  cases loopMove_cases hmove with
  | save => exact ⟨rfl, .inl rfl⟩
  | skip origin => cases origin <;> exact ⟨rfl, .inr ⟨rfl, rfl⟩⟩
  | leave origin => cases origin <;> exact ⟨rfl, .inr ⟨rfl, rfl⟩⟩
  | _ => exact ⟨rfl, .inr ⟨rfl, rfl⟩⟩

/-! ## The table of a daemon that replaces no job -/

/-- A job that has been added and not stopped; it has the state that is saved for it. -/
structure Job.Known (codec : Codec JobState V) (store : Option (BadgerStore V)) (j : Job κ) :
    Prop where
  name : j.cfg.name ≠ ""
  interval : ∀ interval ∈ j.interval, 0 < interval
  stopped : j.stopped = false
  state : j.state = loadState codec store j.cfg.name

/-- What holds of the jobs whatever happens: each of them is in the table, and no two loops
share one. -/
structure Kept (codec : Codec JobState V) (s : System κ V) : Prop where
  valid : s.sched.Valid
  store : s.sched.stateStore.isSome = true
  known : ∀ id j, s.sched.objects[id]? = some j →
    id ∈ s.sched.current ∧ j.Known codec s.sched.stateStore
  once : (s.sched.loops.map Loop.job).Nodup

variable {s t : System κ V}

lemma kept_init (b : BadgerStore V) (clock : Time) :
    Kept codec (.init (some b) clock : System κ V) :=
  ⟨Scheduler.valid_new (some b), rfl,
    fun _ _ hj => absurd (List.mem_of_getElem? hj) List.not_mem_nil, List.nodup_nil⟩

/-- The job of a loop is started. -/
lemma Kept.started (h : Kept codec s) {l : Loop} (hl : l ∈ s.sched.loops) :
    ∃ j, s.sched.objects[l.job]? = some j ∧ j.started = true := by
  obtain ⟨j, hj, hor⟩ := h.valid.loop l hl
  refine ⟨j, hj, (hor.resolve_left ?_).2⟩
  simp [(h.known l.job j hj).2.stopped]

/-- A job that has a loop is given no other. -/
lemma Kept.not_mem_idle (h : Kept codec s) {l : Loop} (hl : l ∈ s.sched.loops) :
    l.job ∉ s.sched.currentWhere fun j => !j.started := by
  intro hid
  obtain ⟨j, hj, hstarted⟩ := h.started hl
  obtain ⟨-, y, hy, hidle⟩ := Scheduler.mem_currentWhere.mp hid
  obtain rfl := Option.some.inj (hj.symm.trans hy)
  simp [hstarted] at hidle

/-- Two loops have two jobs. -/
lemma Kept.job_ne (h : Kept codec s) {i k : ℕ} {l l' : Loop} (hi : s.sched.loops[i]? = some l)
    (hk : s.sched.loops[k]? = some l') (hne : k ≠ i) : l'.job ≠ l.job := by
  intro hsame
  have hjobs : (s.sched.loops.map Loop.job)[k]? = (s.sched.loops.map Loop.job)[i]? := by
    rw [List.getElem?_map, List.getElem?_map, hk, hi, Option.map_some, Option.map_some, hsame]
  have hlt : k < (s.sched.loops.map Loop.job).length := by
    rw [List.length_map]
    exact (List.getElem?_eq_some_iff.mp hk).1
  exact hne ((List.getElem?_inj hlt h.once).mp hjobs)

/-- A schedule that is accepted has a positive interval. -/
lemma parseSchedule_pos {expr raw : String} {d : Duration}
    (h : parseSchedule cron expr = .ok (.interval d raw)) : 0 < d := by
  rw [parseSchedule] at h
  dsimp only at h
  split_ifs at h
  split at h
  · split at h <;> cases h
  · split_ifs at h with hpos
    obtain ⟨rfl, -⟩ := ScheduleSpec.interval.inj (Except.ok.inj h)
    exact not_le.mp hpos

/-- A job is known when it is added. -/
lemma known_newJob (codec : Codec JobState V) (store : Option (BadgerStore V)) {cfg : JobConfig}
    {spec : ScheduleSpec κ} (hcheck : cfg.check cron = .ok spec) (now : Time) :
    (newJob cron codec store cfg.normalize spec now).Known codec store := by
  rw [JobConfig.check] at hcheck
  split_ifs at hcheck with hname
  refine ⟨hname, fun interval hinterval => ?_, rfl, rfl⟩
  cases spec with
  | interval d raw =>
    obtain rfl := Option.some.inj hinterval
    exact parseSchedule_pos hcheck
  | cron k raw => cases hinterval

lemma Kept.addJob (h : Kept codec s) {cfg : JobConfig}
    (hstep : step cron codec s (.addJob cfg) = some t) : Kept codec t := by
  obtain rfl | ⟨sched, hadd, rfl⟩ := step_addJob hstep
  · exact h
  have hvalid := h.valid.addJob cron codec hadd
  obtain ⟨spec, hcheck, -, rfl⟩ := (Scheduler.addJob_eq_ok cron codec).mp hadd
  refine ⟨hvalid, h.store, ?_, h.once⟩
  intro id j hj
  dsimp only [Scheduler.current] at hj ⊢
  rw [List.map_append]
  rw [List.getElem?_append] at hj
  split_ifs at hj with hold
  · obtain ⟨hcurrent, hknown⟩ := h.known id j hj
    exact ⟨List.mem_append_left _ hcurrent, hknown⟩
  · -- the job that is added
    rw [List.getElem?_singleton] at hj
    split_ifs at hj with hlast
    obtain rfl := Option.some.inj hj
    have hid : id = s.sched.objects.length := by omega
    exact ⟨List.mem_append_right _ (by simp [hid]), known_newJob codec _ hcheck s.clock⟩

/-- Only jobs that have no loop yet are given one. -/
lemma Kept.start (h : Kept codec s) : Kept codec { s with sched := s.sched.start } := by
  refine ⟨h.valid.start, h.store, ?_, ?_⟩
  · intro id j hj
    dsimp only at hj ⊢
    rw [Scheduler.start_getElem?] at hj
    obtain ⟨x, hx, rfl⟩ := Option.map_eq_some_iff.mp hj
    obtain ⟨hcurrent, hknown⟩ := h.known id x hx
    refine ⟨hcurrent, ?_⟩
    split_ifs
    · exact ⟨hknown.name, hknown.interval, hknown.stopped, hknown.state⟩
    · exact hknown
  · have hids : (s.sched.currentWhere fun j => !j.started).Nodup := h.valid.current.filter _
    have hloops : s.sched.start.loops.map Loop.job =
        s.sched.loops.map Loop.job ++ s.sched.currentWhere fun j => !j.started := by
      simp [Scheduler.start, Function.comp_def]
    rw [hloops]
    refine h.once.append hids ?_
    intro id hold hnew
    obtain ⟨l, hl, rfl⟩ := List.mem_map.mp hold
    exact h.not_mem_idle hl hnew

/-- The saved states after a step of a loop: its own job has the state it has in memory. -/
lemma loadState_of_loopMove {b : BadgerStore V} {cancelled : Bool}
    {store : Option (BadgerStore V)} {pc pc' : Pc} {move : Move}
    (hknown : j.Known codec (some b))
    (hmove : loopMove cron codec now cancelled (some b) j pc move = some ((j', pc'), store)) :
    store.isSome = true ∧ ∀ name, loadState codec store name =
      if name = j'.cfg.name then j'.state else loadState codec (some b) name := by
  have hcfg := (loopMove_spec hmove).cfg
  rcases (saved_of_loopMove hmove).2 with rfl | ⟨rfl, hstate⟩
  · have hname : j'.cfg.name ≠ "" := hcfg ▸ hknown.name
    obtain ⟨b', hsave, hload⟩ := loadState_saveState codec b hname
    rw [hsave]
    exact ⟨rfl, hload⟩
  · refine ⟨rfl, fun name => ?_⟩
    split_ifs with hsame
    · rw [hstate, hknown.state, hsame, hcfg]
    · rfl

/-- A loop saves the state of its own job. -/
lemma Kept.loop (h : Kept codec s) {i : ℕ} {move : Move}
    (hstep : step cron codec s (.loop i move) = some t) : Kept codec t := by
  obtain ⟨id, pc, j, j', pc', store, hl, hj, hmove, rfl⟩ := step_loop hstep
  have hspec := loopMove_spec hmove
  obtain ⟨hcurrent, hknown⟩ := h.known id j hj
  obtain ⟨b, hb⟩ := Option.isSome_iff_exists.mp h.store
  have hjobs : (s.sched.loops.set i ⟨id, pc'⟩).map Loop.job = s.sched.loops.map Loop.job :=
    map_set_of_eq hl rfl
  obtain ⟨hstore, hload⟩ := loadState_of_loopMove (hb ▸ hknown) (hb ▸ hmove)
  refine ⟨h.valid.moved hl hj hspec, hstore, ?_, ?_⟩
  · intro k x hx
    dsimp only at hx ⊢
    rw [Scheduler.moved_getElem? hj] at hx
    obtain ⟨y, hy, rfl⟩ := Option.map_eq_some_iff.mp hx
    obtain ⟨hk, hy_known⟩ := h.known k y hy
    refine ⟨hk, ?_⟩
    change Job.Known codec store _
    split_ifs with hsame
    · refine ⟨hspec.cfg ▸ hknown.name, ?_, hspec.stopped.trans hknown.stopped, ?_⟩
      · rw [Job.interval, (saved_of_loopMove hmove).1]
        exact hknown.interval
      · rw [hload, if_pos rfl]
    · -- what is saved for another name is kept
      have hother : y.cfg.name ≠ j'.cfg.name := by
        rw [hspec.cfg]
        intro he
        exact hsame (h.valid.eq_of_name hk hcurrent hy hj he)
      refine ⟨hy_known.name, hy_known.interval, hy_known.stopped, ?_⟩
      rw [hload, if_neg hother, ← hb, ← hy_known.state]
  · change ((s.sched.loops.set i ⟨id, pc'⟩).map Loop.job).Nodup
    rw [hjobs]
    exact h.once

/-- No step of the daemon changes that. -/
lemma kept_step {e : DaemonEvent} (h : Kept codec s) (hstep : daemonStep cron codec s e = some t) :
    Kept codec t := by
  cases e with
  | tick d =>
    obtain rfl := Option.some.inj hstep
    exact ⟨h.valid, h.store, h.known, h.once⟩
  | cancel =>
    obtain rfl := Option.some.inj hstep
    exact ⟨h.valid, h.store, h.known, h.once⟩
  | addJob cfg => exact h.addJob hstep
  | start =>
    obtain rfl := Option.some.inj hstep
    exact h.start
  | loop i move => exact h.loop hstep
  | restart =>
    obtain rfl := Option.some.inj hstep
    obtain ⟨b, hb⟩ := Option.isSome_iff_exists.mp h.store
    rw [hb]
    exact kept_init b s.clock

/-! ## The due times along a run -/

/-- Every job has a due time that respects its last execution.  Of a job that has a loop the
position of the loop tells more. -/
structure AllRested (s : System κ V) : Prop where
  waiting : ∀ (id : ℕ) (j : Job κ), s.sched.objects[id]? = some j → j.started = false →
    j.Scheduled
  loops : ∀ l ∈ s.sched.loops, ∀ j, s.sched.objects[l.job]? = some j → j.Rested s.clock l.pc

lemma allRested_init (store : Option (BadgerStore V)) (clock : Time) :
    AllRested (.init store clock : System κ V) :=
  ⟨fun _ _ hj => absurd (List.mem_of_getElem? hj) List.not_mem_nil,
    fun _ hl => absurd hl List.not_mem_nil⟩

lemma AllRested.addJob (hkept : Kept codec s) (h : AllRested s) {cfg : JobConfig}
    (hstep : step cron codec s (.addJob cfg) = some t) : AllRested t := by
  obtain rfl | ⟨sched, hadd, rfl⟩ := step_addJob hstep
  · exact h
  obtain ⟨spec, hcheck, -, rfl⟩ := (Scheduler.addJob_eq_ok cron codec).mp hadd
  set new := newJob cron codec s.sched.stateStore cfg.normalize spec s.clock with hnew
  refine ⟨?_, ?_⟩
  · intro id j hj hidle
    dsimp only at hj
    rw [List.getElem?_append] at hj
    split_ifs at hj with hold
    · exact h.waiting id j hj hidle
    · obtain rfl := List.mem_singleton.mp (List.mem_of_getElem? hj)
      have hpos := (known_newJob codec s.sched.stateStore hcheck s.clock).interval
      have hdue : new.RestedAt (new.computeNextRun cron s.clock) :=
        Job.restedAt_computeNextRun hpos s.clock
      exact .inr hdue
  · intro l hl j hj
    obtain ⟨x, hx, -⟩ := hkept.started hl
    dsimp only at hj
    rw [List.getElem?_append_left (List.getElem?_eq_some_iff.mp hx).1] at hj
    exact h.loops l hl j hj

lemma AllRested.start (h : AllRested s) : AllRested { s with sched := s.sched.start } := by
  refine ⟨?_, ?_⟩
  · intro id j hj hidle
    dsimp only at hj
    rw [Scheduler.start_getElem?] at hj
    obtain ⟨x, hx, rfl⟩ := Option.map_eq_some_iff.mp hj
    split_ifs at hidle ⊢
    exact h.waiting id x hx hidle
  · intro l hl j hj
    dsimp only at hj
    rw [Scheduler.start_getElem?] at hj
    obtain ⟨x, hx, rfl⟩ := Option.map_eq_some_iff.mp hj
    have hrested : x.Rested s.clock l.pc := by
      rcases List.mem_append.mp hl with hold | hnew
      · exact h.loops l hold x hx
      · -- a loop that has just been started
        obtain ⟨id, hid, rfl⟩ := List.mem_map.mp hnew
        obtain ⟨-, y, hy, hidle⟩ := Scheduler.mem_currentWhere.mp hid
        obtain rfl := Option.some.inj (hx.symm.trans hy)
        exact h.waiting id x hx (by simpa using hidle)
    split_ifs
    · exact hrested
    · exact hrested

lemma AllRested.loop (hkept : Kept codec s) (h : AllRested s) {i : ℕ} {move : Move}
    (htime : RecordedInTime s (.loop i move)) (hstep : step cron codec s (.loop i move) = some t) :
    AllRested t := by
  obtain ⟨id, pc, j, j', pc', store, hl, hj, hmove, rfl⟩ := step_loop hstep
  have hmem := List.mem_of_getElem? hl
  have hspec := loopMove_spec hmove
  refine ⟨?_, ?_⟩
  · intro k x hx hidle
    dsimp only at hx
    rw [Scheduler.moved_getElem? hj] at hx
    obtain ⟨y, hy, rfl⟩ := Option.map_eq_some_iff.mp hx
    split_ifs at hidle ⊢ with hsame
    · -- the job of a loop is started
      obtain ⟨z, hz, hstarted⟩ := hkept.started hmem
      obtain rfl := Option.some.inj (hj.symm.trans hz)
      rw [hspec.started, hstarted] at hidle
      cases hidle
    · exact h.waiting k y hy hidle
  · intro l hl' x hx
    obtain ⟨k, hk⟩ := List.mem_iff_getElem?.mp hl'
    change (s.sched.loops.set i ⟨id, pc'⟩)[k]? = some l at hk
    dsimp only at hx
    rw [Scheduler.moved_getElem? hj] at hx
    obtain ⟨y, hy, rfl⟩ := Option.map_eq_some_iff.mp hx
    by_cases hki : k = i
    · -- the loop that moves
      rw [hki, List.getElem?_set_self (List.getElem?_eq_some_iff.mp hl).1] at hk
      obtain rfl := Option.some.inj hk
      rw [if_pos rfl]
      refine Job.rested_loopMove hmove (hkept.known id j hj).2.interval (h.loops _ hmem j hj) ?_
      rintro rfl interval hinterval hsaving
      exact htime ⟨id, pc⟩ hl j hj interval hinterval hsaving
    · -- another loop has another job
      rw [List.getElem?_set_ne (Ne.symm hki)] at hk
      have hother : l.job ≠ id := hkept.job_ne hl hk hki
      rw [if_neg hother]
      exact h.loops l (List.mem_of_getElem? hk) y hy

/-- Executions that are recorded in time leave all jobs rested. -/
lemma allRested_step {e : DaemonEvent} (hkept : Kept codec s) (h : AllRested s)
    (htime : RecordedInTime s e) (hstep : daemonStep cron codec s e = some t) : AllRested t := by
  cases e with
  | tick d =>
    obtain rfl := Option.some.inj hstep
    have hlater : s.clock ≤ s.clock + (d : ℤ) := le_add_of_nonneg_right (Int.natCast_nonneg d)
    exact ⟨h.waiting, fun l hl j hj => (h.loops l hl j hj).mono hlater⟩
  | cancel =>
    obtain rfl := Option.some.inj hstep
    exact ⟨h.waiting, h.loops⟩
  | addJob cfg => exact h.addJob hkept hstep
  | start =>
    obtain rfl := Option.some.inj hstep
    exact h.start
  | loop i move =>
    have hmoved : RecordedInTime s (.loop i move) := htime
    exact h.loop hkept hmoved hstep
  | restart =>
    obtain rfl := Option.some.inj hstep
    exact allRested_init s.sched.stateStore s.clock

/-- An execution begins in a loop that is about to execute. -/
lemma entering_of_loopMove {cancelled : Bool} {store store' : Option (BadgerStore V)} {pc pc' : Pc}
    {move : Move}
    (hmove : loopMove cron codec now cancelled store j pc move = some ((j', pc'), store'))
    (hbegins : pc'.begins = true) : ∃ origin, pc = .entering origin := by
  cases loopMove_cases hmove with
  | begin origin => exact ⟨origin, rfl⟩
  | skip origin => exact ⟨origin, rfl⟩
  | leave origin => cases origin <;> cases hbegins
  | _ => cases hbegins

/-- Where all jobs are rested, no execution starts too early. -/
lemma spaced_of_allRested {e : DaemonEvent} (hkept : Kept codec s) (h : AllRested s) :
    Spaced cron codec s e := by
  cases e with
  | loop i move =>
    rintro ⟨id, pc⟩ hl j hj interval hinterval ⟨⟨j', pc'⟩, store'⟩ hmove hbegins saved hrun
    obtain ⟨origin, rfl⟩ := entering_of_loopMove hmove hbegins
    have hrested := (h.loops _ (List.mem_of_getElem? hl) j hj).2
    have hsaved : j.state = saved := (hkept.known id j hj).2.state
    rw [← hsaved] at hrun ⊢
    exact hrested interval hinterval hrun
  | _ => trivial

/-! ## An execution that is recorded too late -/

/-- Time goes on, or the loop `i` does. -/
def DaemonEvent.OfLoop (i : ℕ) : DaemonEvent → Prop
  | .tick _ => True
  | .loop k _ => k = i
  | _ => False

/-- The loop `i` comes to start an execution too early, all by itself. -/
def StartsEarly (cron : CronLib κ) (codec : Codec JobState V) (s : System κ V) (i : ℕ) : Prop :=
  ∃ es, (∀ e ∈ es, e.OfLoop i) ∧ ¬ Meets (daemonStep cron codec) (Spaced cron codec) s es

lemma StartsEarly.of_step {e : DaemonEvent} {i : ℕ} (hstep : daemonStep cron codec s e = some t)
    (he : e.OfLoop i) (h : StartsEarly cron codec t i) : StartsEarly cron codec s i := by
  obtain ⟨es, hes, hnot⟩ := h
  refine ⟨e :: es, ?_, ?_⟩
  · rintro f (_ | ⟨_, hf⟩)
    · exact he
    · exact hes f hf
  · intro hmeets
    exact hnot (hmeets.2 t hstep)

variable {i id : ℕ}

/-- The same for a move of the loop. -/
lemma StartsEarly.of_loopMove {pc pc' : Pc} {move : Move} {store : Option (BadgerStore V)}
    (hl : s.sched.loops[i]? = some ⟨id, pc⟩) (hj : s.sched.objects[id]? = some j)
    (hmove : loopMove cron codec s.clock s.cancelled s.sched.stateStore j pc move =
      some ((j', pc'), store))
    (h : StartsEarly cron codec { s with sched := s.sched.moved i id j' pc' store } i) :
    StartsEarly cron codec s i := by
  have hstep : daemonStep cron codec s (.loop i move) =
      some { s with sched := s.sched.moved i id j' pc' store } := by
    simp [daemonStep, step, hl, hj, hmove]
  exact h.of_step hstep rfl

/-- A loop that is to start at a time that is too early for its job. -/
structure Early (codec : Codec JobState V) (s : System κ V) (id : ℕ) (j : Job κ) (t : Time) :
    Prop where
  object : s.sched.objects[id]? = some j
  /-- No other execution of the job is in progress. -/
  free : j.cfg.allowOverlap = false → j.running = false
  run : isZero (loadState codec s.sched.stateStore j.cfg.name).lastRun = false
  early : ∃ interval ∈ j.interval,
    t < (loadState codec s.sched.stateStore j.cfg.name).lastRun + interval

lemma startsEarly_of_entering (hl : s.sched.loops[i]? = some ⟨id, .entering .timer⟩)
    (h : Early codec s id j s.clock) : StartsEarly cron codec s i := by
  refine ⟨[.loop i .go], by simp [DaemonEvent.OfLoop], ?_⟩
  intro hmeets
  obtain ⟨interval, hinterval, hearly⟩ := h.early
  have hspaced := hmeets.1 ⟨id, .entering .timer⟩ hl j h.object interval hinterval
  have hbegin : ∃ running, loopMove cron codec s.clock s.cancelled s.sched.stateStore j
      (.entering .timer) .go =
        some (({ j with running := running }, .attempt .timer 0), s.sched.stateStore) := by
    rw [loopMove]
    by_cases hoverlap : j.cfg.allowOverlap = true
    · exact ⟨j.running, by rw [if_pos hoverlap]⟩
    · have hfree := h.free (by simpa using hoverlap)
      exact ⟨true, by rw [if_neg hoverlap, hfree]; rfl⟩
  obtain ⟨running, hmove⟩ := hbegin
  exact absurd (hspaced _ hmove rfl h.run) (not_le.mpr hearly)

lemma startsEarly_of_armed {deadline : Time} (hl : s.sched.loops[i]? = some ⟨id, .armed deadline⟩)
    (h : Early codec s id j (max s.clock deadline)) : StartsEarly cron codec s i := by
  have hclock : s.clock + ((deadline - s.clock).toNat : ℤ) = max s.clock deadline := by
    rw [Int.ofNat_toNat, add_max, add_zero, add_sub_cancel, max_comm]
  have htick : daemonStep cron codec s (.tick (deadline - s.clock).toNat) =
      some { s with clock := max s.clock deadline } := by
    rw [daemonStep, step, hclock]
  have hfire : loopMove cron codec (max s.clock deadline) s.cancelled s.sched.stateStore j
      (.armed deadline) .fire = some ((j, .entering .timer), s.sched.stateStore) := by
    rw [loopMove, if_pos (le_max_right _ _)]
  refine StartsEarly.of_step htick trivial (StartsEarly.of_loopMove hl h.object hfire ?_)
  exact startsEarly_of_entering (moved_loops_self hl)
    ⟨moved_objects_self h.object, h.free, h.run, h.early⟩

/-- A loop that leaves an execution waits for the time at which its job was due already. -/
lemma startsEarly_of_leaving (hl : s.sched.loops[i]? = some ⟨id, .leaving .startup⟩)
    (hj : s.sched.objects[id]? = some j) (hdue : isZero j.nextRun = false)
    (hrun : isZero (loadState codec s.sched.stateStore j.cfg.name).lastRun = false)
    (hearly : ∃ interval ∈ j.interval, max s.clock j.nextRun <
      (loadState codec s.sched.stateStore j.cfg.name).lastRun + interval) :
    StartsEarly cron codec s i := by
  set running := if j.cfg.allowOverlap then j.running else false with hrunning
  have hleave : loopMove cron codec s.clock s.cancelled s.sched.stateStore j
      (.leaving .startup) .go =
        some (({ j with running := running }, .armed j.nextRun), s.sched.stateStore) := by
    rw [loopMove]
    dsimp only [Job.resume, Job.arm]
    split_ifs <;> simp_all
  refine StartsEarly.of_loopMove hl hj hleave ?_
  refine startsEarly_of_armed (j := { j with running := running }) (moved_loops_self hl)
    ⟨moved_objects_self hj, fun hno => ?_, hrun, hearly⟩
  change running = false
  rw [hrunning, if_neg]
  rw [hno]
  exact Bool.false_ne_true

/-- An execution at the start of a loop that is recorded too late. -/
lemma startsEarly_of_saving {outcome : Except String Status} (hkept : Kept codec s)
    (hl : s.sched.loops[i]? = some ⟨id, .saving .startup outcome⟩)
    (hj : s.sched.objects[id]? = some j) {interval : Duration} (hinterval : interval ∈ j.interval)
    (hclock : isZero s.clock = false) (hdue : isZero j.nextRun = false)
    (hlate : j.nextRun < s.clock + interval) : StartsEarly cron codec s i := by
  obtain ⟨-, hknown⟩ := hkept.known id j hj
  obtain ⟨b, hb⟩ := Option.isSome_iff_exists.mp hkept.store
  set j' : Job κ := { j with state := j.state.update s.clock outcome } with hj'
  have hlast : j'.state.lastRun = s.clock := by cases outcome <;> rfl
  obtain ⟨b', hsave, hload⟩ := loadState_saveState (j := j') codec b hknown.name
  have hsaved : (loadState codec (some b') j'.cfg.name).lastRun = s.clock := by
    rw [hload, if_pos rfl, hlast]
  have hmove : loopMove cron codec s.clock s.cancelled s.sched.stateStore j
      (.saving .startup outcome) .go = some ((j', .leaving .startup), some b') := by
    rw [loopMove, hb, ← hsave]
  refine StartsEarly.of_loopMove hl hj hmove ?_
  refine startsEarly_of_leaving (j := j') (moved_loops_self hl) (moved_objects_self hj) hdue ?_ ?_
  · exact (congrArg isZero hsaved).trans hclock
  · refine ⟨interval, hinterval, ?_⟩
    have hpos := hknown.interval interval hinterval
    change max s.clock j.nextRun < (loadState codec (some b') j'.cfg.name).lastRun + interval
    rw [hsaved]
    exact max_lt (lt_add_of_pos_right s.clock hpos) hlate

/-! ## All runs -/

/-- **No execution starts before the saved time of the last one plus the interval** in a run
in which the executions at the start of a loop are recorded in time.  Wherever one of them is
about to be recorded too late, the loop comes to start the next one too early. -/
theorem spaced_of_recordedInTime (cron : CronLib κ) (codec : Codec JobState V)
    (b : BadgerStore V) (clock : Time) (es : List DaemonEvent) :
    (Meets (daemonStep cron codec) RecordedInTime (.init (some b) clock) es →
      Meets (daemonStep cron codec) (Spaced cron codec) (.init (some b) clock) es) ∧
    ∀ s i, run (daemonStep cron codec) (.init (some b) clock) es = some s →
      ¬ RecordedInTime s (.loop i .go) → StartsEarly cron codec s i := by
  constructor
  · intro htime
    exact meets_of_meets (I := fun s => Kept codec s ∧ AllRested s)
      (fun _ _ _ hs hrecorded hstep =>
        ⟨kept_step hs.1 hstep, allRested_step hs.1 hs.2 hrecorded hstep⟩)
      (fun _ _ hs _ => spaced_of_allRested hs.1 hs.2)
      ⟨kept_init b clock, allRested_init (some b) clock⟩ htime
  · intro s i hrun hlate
    have hkept : Kept codec s :=
      inv_of_run (I := Kept codec) (fun _ _ _ => kept_step) (kept_init b clock) hrun
    simp only [RecordedInTime, not_forall, not_or] at hlate
    obtain ⟨⟨id, pc⟩, hl, j, hj, interval, hinterval, hsaving, hclock, hdue, hle⟩ := hlate
    cases pc with
    | saving origin outcome =>
      cases origin with
      | startup =>
        exact startsEarly_of_saving hkept hl hj hinterval (by simpa using hclock)
          (by simpa using hdue) (not_le.mp hle)
      | timer => cases hsaving
    | _ => cases hsaving

/-- The job is executed at the start, and then by its timer until the daemon is restarted. -/
def restartDuringRun : List DaemonEvent :=
  [.addJob scan, .start, .loop 0 .go, .loop 0 .go, .loop 0 (.ran (.result .success)),
    .loop 0 .go, .loop 0 .go, .tick (20 * millisecond).toNat, .loop 0 .fire, .loop 0 .go,
    .restart, .addJob scan, .start, .loop 0 .go, .tick (20 * millisecond).toNat, .loop 0 .fire,
    .loop 0 .go]

/-- No time passes while it is executed at the start. -/
theorem spaced_restartDuringRun :
    Meets (daemonStep noCron stateCodec) (Spaced noCron stateCodec)
      (.init (some .empty) unixEpoch) restartDuringRun :=
  (spaced_of_recordedInTime noCron stateCodec .empty unixEpoch restartDuringRun).1
    (by decide +kernel)

/-- The execution at the start takes five milliseconds. -/
def slowStart : List DaemonEvent :=
  [.addJob scan, .start, .loop 0 .go, .loop 0 .go, .tick (5 * millisecond).toNat,
    .loop 0 (.ran (.result .success)), .loop 0 .go, .loop 0 .go,
    .tick (15 * millisecond).toNat, .loop 0 .fire]

/-- The next execution starts five milliseconds too early. -/
theorem early_after_slowStart :
    ¬ ∀ es : List DaemonEvent, Meets (daemonStep noCron stateCodec) (Spaced noCron stateCodec)
      (.init (some .empty) unixEpoch) es := by
  intro hclaim
  have hrun : ∃ s ∈ run (daemonStep noCron stateCodec) (.init (some .empty) unixEpoch) slowStart,
      ∃ l ∈ s.sched.loops[0]?, ∃ j ∈ s.sched.objects[l.job]?, ∃ interval ∈ j.interval,
        ∃ r ∈ loopMove noCron stateCodec s.clock s.cancelled s.sched.stateStore j l.pc .go,
          r.1.2.begins = true ∧
            let saved := loadState stateCodec s.sched.stateStore j.cfg.name
            isZero saved.lastRun = false ∧ s.clock < saved.lastRun + interval := by
    decide +kernel
  obtain ⟨s, hs, l, hl, j, hj, interval, hinterval, r, hr, hbegins, hsaved, hearly⟩ := hrun
  have hspaced := meets_append (hclaim (slowStart ++ [.loop 0 .go])) hs
  exact absurd (hspaced.1 l hl j hj interval hinterval r hr hbegins hsaved) (not_le.mpr hearly)

end Arcsent.Scheduling
