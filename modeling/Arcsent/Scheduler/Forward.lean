/-
# The schedule moves forward

A job that has been executed is due again at the next time of its schedule.  For an interval
that is a later time.  For a cron expression it is the time that the library finds; an
expression that is well formed and never comes true within the horizon of the library has
none, and the library answers with the zero time, which is long past: the timer fires at
once, over and over again.
-/
import Arcsent.Scheduler.Lifecycle
import Arcsent.Scheduler.Restart

namespace Arcsent.Scheduling

open Arcsent.Go Arcsent.Scanner Arcsent.Storage Arcsent.Lib

variable {κ V : Type}

/-- What the cron library promises.  An expression matches some times; the next one after a
time is searched for up to a limit, which is some years on, and the answer is the zero time
when there is none. -/
structure CronLib.Documented (cron : CronLib κ) (Matches : κ → Time → Prop)
    (limit : Time → Time) : Prop where
  found : ∀ k t u, t < u → u ≤ limit t → Matches k u →
    t < cron.next k t ∧ cron.next k t ≤ u ∧ Matches k (cron.next k t)
  none : ∀ k t, (∀ u, t < u → u ≤ limit t → ¬ Matches k u) → cron.next k t = 0

variable (Matches : κ → Time → Prop) (limit : Time → Time)

/-- A schedule has a time after `now`: it is an interval, or its expression matches a time
up to the limit.  The zero time is not in the past of a clock that reads less. -/
def ScheduleSpec.ForwardAt (now : Time) : ScheduleSpec κ → Prop
  | .interval _ _ => True
  | .cron k _ => now < 0 ∨ ∃ u, now < u ∧ u ≤ limit now ∧ Matches k u

variable {Matches limit} {cron : CronLib κ}

/-- A schedule that has no later time gives the zero time. -/
lemma Job.computeNextRun_of_not_forward (hdoc : cron.Documented Matches limit) {j : Job κ}
    {now : Time} (h : ¬ j.spec.ForwardAt Matches limit now) : j.computeNextRun cron now = 0 := by
  rw [Job.computeNextRun]
  cases hspec : j.spec with
  | interval d raw =>
    rw [hspec] at h
    exact absurd trivial h
  | cron k raw =>
    rw [hspec] at h
    exact hdoc.none k now fun u hu hlimit hm => h (.inr ⟨u, hu, hlimit, hm⟩)

/-- The due time of an accepted job is in the future when its schedule has one there. -/
lemma Job.lt_computeNextRun_iff (hdoc : cron.Documented Matches limit) {j : Job κ}
    (hpos : ∀ interval ∈ j.interval, 0 < interval) (now : Time) :
    now < j.computeNextRun cron now ↔ j.spec.ForwardAt Matches limit now := by
  rw [Job.computeNextRun]
  cases hspec : j.spec with
  | interval d raw =>
    have hd : 0 < d := hpos d (by simp [Job.interval, hspec])
    refine iff_of_true ?_ trivial
    dsimp only
    split_ifs with hlate
    · exact hlate.2
    · exact lt_add_of_pos_right now hd
  | cron k raw =>
    change now < cron.next k now ↔ now < 0 ∨ ∃ u, now < u ∧ u ≤ limit now ∧ Matches k u
    by_cases hmatch : ∃ u, now < u ∧ u ≤ limit now ∧ Matches k u
    · obtain ⟨u, hu, hlimit, hmatches⟩ := id hmatch
      exact iff_of_true (hdoc.found k now u hu hlimit hmatches).1 (.inr hmatch)
    · have hzero : cron.next k now = 0 :=
        hdoc.none k now fun u hu hlimit hm => hmatch ⟨u, hu, hlimit, hm⟩
      rw [hzero, or_iff_left hmatch]

/-! ## The due times along a run -/

/-- The next step of a loop at this position computes a due time. -/
def Job.recomputes (j : Job κ) : Pc → Bool
  | .leaving .timer => true
  | .entering .timer => !j.cfg.allowOverlap && j.running
  | _ => false

section Conditions

variable (cron : CronLib κ) (codec : Codec JobState V) (Matches : κ → Time → Prop)
  (limit : Time → Time)

/-- A step changes the due time of a job to a later time of its schedule only, and a loop
that comes to wait waits for the due time of its job. -/
def StepsForward (s : System κ V) (e : Event) : Prop :=
  ∀ t, step cron codec s e = some t →
    (∀ (id : ℕ) (j' : Job κ), t.sched.objects[id]? = some j' →
      (∃ j : Job κ, s.sched.objects[id]? = some j ∧ j'.nextRun = j.nextRun) ∨
      s.clock < j'.nextRun ∧ j'.nextRun = j'.computeNextRun cron s.clock) ∧
    ∀ (k : ℕ) (l : Loop), t.sched.loops[k]? = some l → ∀ d, l.pc = .armed d →
      s.sched.loops[k]? = some l ∨
      ∃ j' : Job κ, t.sched.objects[l.job]? = some j' ∧ d = j'.nextRun

/-- The step computes no due time, or the schedule has a time after the reading of the
clock. -/
def ComputesForward (s : System κ V) : Event → Prop
  | .addJob cfg => ∀ spec, cfg.check cron = .ok spec → cfg.name ∉ s.sched.jobs.map Prod.fst →
      spec.ForwardAt Matches limit s.clock
  | .loop i .go => ∀ l ∈ s.sched.loops[i]?, ∀ j ∈ s.sched.objects[l.job]?,
      j.recomputes l.pc = true → j.spec.ForwardAt Matches limit s.clock
  | _ => True

end Conditions

/-- What holds as long as the schedules move forward: no due time is the zero time. -/
structure OnTime (s : System κ V) : Prop where
  clock : 0 ≤ s.clock
  interval : ∀ (id : ℕ) (j : Job κ), s.sched.objects[id]? = some j →
    ∀ interval ∈ j.interval, 0 < interval
  due : ∀ (id : ℕ) (j : Job κ), s.sched.objects[id]? = some j → isZero j.nextRun = false

variable {codec : Codec JobState V} {s t : System κ V} {now : Time}

lemma isZero_of_lt {d : Time} (hnow : 0 ≤ now) (h : now < d) : isZero d = false := by
  have hne : d ≠ 0 := (hnow.trans_lt h).ne'
  simpa [isZero] using hne

/-- What a step of a loop does to the due time of its job. -/
inductive DueCase (cron : CronLib κ) (now : Time) (j : Job κ) (pc : Pc) (move : Move)
    (j' : Job κ) (pc' : Pc) : Prop
  | kept (hdue : j'.nextRun = j.nextRun) (harmed : ∀ d, pc' = .armed d → d = j.nextRun)
      (h : move = .go → j.recomputes pc = false)
  | computed (hdue : j'.nextRun = j.computeNextRun cron now)
      (hsame : j'.computeNextRun cron now = j.computeNextRun cron now)
      (harmed : ∀ d, pc' ≠ .armed d) (hmove : move = .go) (h : j.recomputes pc = true)

/-- A job that has a due time is waited for until then. -/
lemma Job.arm_of_due (cron : CronLib κ) (now : Time) {j : Job κ} (hdue : isZero j.nextRun = false) :
    (j.arm cron now).1 = j ∧ (j.arm cron now).2 = .armed j.nextRun := by
  have hnext : (if isZero j.nextRun then j.computeNextRun cron now else j.nextRun) = j.nextRun := by
    rw [hdue, if_neg (by simp)]
  rw [Job.arm]
  dsimp only
  rw [hnext]
  exact ⟨rfl, rfl⟩

/-- Going on after an execution. -/
lemma dueCase_resume {j : Job κ} (hdue : isZero j.nextRun = false) {pc : Pc} (origin : Origin)
    (hpc : j.recomputes pc = decide (origin = .timer)) (running : Bool) :
    DueCase cron now j pc .go (Job.resume cron { j with running := running } now origin).1
      (Job.resume cron { j with running := running } now origin).2 := by
  cases origin with
  | startup =>
    obtain ⟨hj, harmed⟩ := Job.arm_of_due cron now (j := { j with running := running }) hdue
    rw [Job.resume, hj, harmed]
    exact .kept rfl (fun d hd => (Pc.armed.inj hd).symm) fun _ => hpc
  | timer => exact .computed rfl rfl (fun d hd => by cases hd) rfl hpc

lemma dueCase_of_loopMove {cancelled : Bool} {store store' : Option (BadgerStore V)}
    {j j' : Job κ} {pc pc' : Pc} {move : Move} (hdue : isZero j.nextRun = false)
    (h : loopMove cron codec now cancelled store j pc move = some ((j', pc'), store')) :
    DueCase cron now j pc move j' pc' := by
  cases loopMove_cases h with
  | wait =>
    obtain ⟨hj, harmed⟩ := Job.arm_of_due cron now hdue
    rw [hj, harmed]
    exact .kept rfl (fun d hd => (Pc.armed.inj hd).symm) fun _ => rfl
  | begin origin running hfree =>
    refine .kept rfl (fun d hd => by cases hd) fun _ => ?_
    cases origin with
    | startup => rfl
    | timer =>
      -- an execution that begins is not skipped
      change (!j.cfg.allowOverlap && j.running) = false
      cases hoverlap : j.cfg.allowOverlap with
      | true => rfl
      | false => rw [(hfree hoverlap).1]; rfl
  | skip origin hskip =>
    have hpc : j.recomputes (.entering origin) = decide (origin = .timer) := by
      cases origin with
      | startup => rfl
      | timer => simp [Job.recomputes, hskip.1, hskip.2]
    exact dueCase_resume hdue origin hpc j.running
  | leave origin running =>
    have hpc : j.recomputes (.leaving origin) = decide (origin = .timer) := by
      cases origin <;> rfl
    exact dueCase_resume hdue origin hpc running
  | halt => exact .kept rfl (fun d hd => by cases hd) fun hgo => by cases hgo
  | _ => exact .kept rfl (fun d hd => by cases hd) fun _ => rfl

/-- A call that keeps the due time and the schedule of every job, and starts no wait. -/
structure Untimed (s t : Scheduler κ V) : Prop where
  object : ∀ (id : ℕ) (j' : Job κ), t.objects[id]? = some j' →
    ∃ j : Job κ, s.objects[id]? = some j ∧ j'.nextRun = j.nextRun ∧ j'.spec = j.spec
  loop : ∀ (k : ℕ) (l : Loop), t.loops[k]? = some l → ∀ d, l.pc = .armed d →
    s.loops[k]? = some l

lemma untimed_refl (s : Scheduler κ V) : Untimed s s :=
  ⟨fun _ j' hj => ⟨j', hj, rfl, rfl⟩, fun _ _ hl _ _ => hl⟩

lemma untimed_change (s : Scheduler κ V) (ids : List ℕ) {f : Job κ → Job κ}
    (hf : ∀ j, (f j).nextRun = j.nextRun ∧ (f j).spec = j.spec) : Untimed s (s.change ids f) := by
  refine ⟨fun id j' hj => ?_, fun _ _ hl _ _ => hl⟩
  rw [Scheduler.change_getElem?] at hj
  obtain ⟨j, hold, rfl⟩ := Option.map_eq_some_iff.mp hj
  refine ⟨j, hold, ?_⟩
  split_ifs
  · exact hf j
  · exact ⟨rfl, rfl⟩

lemma untimed_start (s : Scheduler κ V) : Untimed s s.start := by
  have hchange := untimed_change s (s.currentWhere fun j => !j.started)
    (f := fun j => { j with started := true }) fun _ => ⟨rfl, rfl⟩
  refine ⟨hchange.object, fun k l hl d hd => ?_⟩
  change (s.loops ++ _)[k]? = some l at hl
  rw [List.getElem?_append] at hl
  split_ifs at hl
  · exact hl
  · -- a loop that is started does not wait yet
    obtain ⟨i, -, rfl⟩ := List.mem_map.mp (List.mem_of_getElem? hl)
    cases hd

lemma untimed_stop {s t : Scheduler κ V} (h : s.stop = some t) : Untimed s t := by
  rw [Scheduler.stop_eq_some h]
  exact untimed_change s _ fun _ => ⟨rfl, rfl⟩

lemma untimed_clear {s t : Scheduler κ V} (h : s.clear = some t) : Untimed s t := by
  obtain ⟨u, hu, rfl⟩ := Scheduler.clear_eq_some h
  have hstop := untimed_stop hu
  exact ⟨hstop.object, hstop.loop⟩

/-- A step that keeps the due times is one that moves forward. -/
lemma Untimed.stepsForward {e : Event} (hstep : step cron codec s e = some t)
    (h : Untimed s.sched t.sched) : StepsForward cron codec s e := by
  intro u hu
  obtain rfl := Option.some.inj (hstep.symm.trans hu)
  refine ⟨fun id j' hj' => ?_, fun k l hl d hd => .inl (h.loop k l hl d hd)⟩
  obtain ⟨j, hj, hdue, -⟩ := h.object id j' hj'
  exact .inl ⟨j, hj, hdue⟩

/-- The objects after a job has been added. -/
lemma getElem?_addJob {objects : List (Job κ)} {new j : Job κ} {id : ℕ}
    (h : (objects ++ [new])[id]? = some j) :
    objects[id]? = some j ∨ id = objects.length ∧ j = new := by
  rw [List.getElem?_append] at h
  split_ifs at h with hold
  · exact .inl h
  · rw [List.getElem?_singleton] at h
    split_ifs at h with hlast
    exact .inr ⟨by omega, (Option.some.inj h).symm⟩

/-- A job that is added is due at a later time when its schedule has one. -/
lemma stepsForward_addJob_iff (hdoc : cron.Documented Matches limit) {cfg : JobConfig} :
    StepsForward cron codec s (.addJob cfg) ↔
      ComputesForward cron Matches limit s (.addJob cfg) := by
  have hforward_iff : ∀ spec, cfg.check cron = .ok spec →
      (s.clock < (newJob cron codec s.sched.stateStore cfg.normalize spec s.clock).nextRun ↔
        spec.ForwardAt Matches limit s.clock) := fun spec hcheck =>
    Job.lt_computeNextRun_iff (j := newJob cron codec s.sched.stateStore cfg.normalize spec s.clock)
      hdoc (known_newJob codec _ hcheck s.clock).interval s.clock
  constructor
  · intro hforward spec hcheck hname
    have hadd : s.sched.addJob cron codec s.clock cfg = .ok { s.sched with
        objects := s.sched.objects ++
          [newJob cron codec s.sched.stateStore cfg.normalize spec s.clock]
        jobs := s.sched.jobs ++ [(cfg.name, s.sched.objects.length)] } :=
      (Scheduler.addJob_eq_ok cron codec).mpr ⟨spec, hcheck, hname, rfl⟩
    obtain ⟨hobject, -⟩ := hforward _ (step_addJob_of_eq_ok hadd)
    rw [← hforward_iff spec hcheck]
    rcases hobject s.sched.objects.length _ List.getElem?_concat_length with
      ⟨j, hj, -⟩ | ⟨hlt, -⟩
    · simp at hj
    · exact hlt
  · intro hcond t hstep
    obtain rfl | ⟨sched, hadd, rfl⟩ := step_addJob hstep
    · exact (untimed_refl _).stepsForward hstep _ hstep
    · obtain ⟨spec, hcheck, hname, rfl⟩ := (Scheduler.addJob_eq_ok cron codec).mp hadd
      refine ⟨fun id j' hj' => ?_, fun k l hl d hd => .inl hl⟩
      rcases getElem?_addJob hj' with hold | ⟨-, rfl⟩
      · exact .inl ⟨j', hold, rfl⟩
      · exact .inr ⟨(hforward_iff spec hcheck).mpr (hcond spec hcheck hname), rfl⟩

/-- A loop that is to compute a due time can go on. -/
lemma exists_loopMove_of_recomputes (cron : CronLib κ) (codec : Codec JobState V) {j : Job κ}
    {pc : Pc} (h : j.recomputes pc = true) (now : Time) (cancelled : Bool)
    (store : Option (BadgerStore V)) :
    ∃ r, loopMove cron codec now cancelled store j pc .go = some r := by
  cases pc with
  | leaving origin => exact ⟨_, rfl⟩
  | entering origin =>
    cases origin with
    | startup => cases h
    | timer =>
      have hskip : (!j.cfg.allowOverlap && j.running) = true := h
      rw [Bool.and_eq_true, Bool.not_eq_true'] at hskip
      rw [loopMove, hskip.1, hskip.2]
      exact ⟨_, rfl⟩
  | _ => cases h

/-- A loop that computes a later due time does so from a schedule that has one: otherwise
the due time would be the zero time, and no job has that. -/
lemma computesForward_loop (hdoc : cron.Documented Matches limit) (htime : OnTime s) {i : ℕ}
    {move : Move} (hforward : StepsForward cron codec s (.loop i move)) :
    ComputesForward cron Matches limit s (.loop i move) := by
  cases move with
  | go =>
    rintro ⟨id, pc⟩ hl j hj hre
    obtain ⟨⟨⟨j', pc'⟩, store⟩, hmove⟩ :=
      exists_loopMove_of_recomputes cron codec hre s.clock s.cancelled s.sched.stateStore
    have hstep : step cron codec s (.loop i .go) =
        some { s with sched := s.sched.moved i id j' pc' store } := by
      have hloop : s.sched.loops[i]? = some ⟨id, pc⟩ := hl
      have hobject : s.sched.objects[id]? = some j := hj
      simp [step, hloop, hobject, hmove]
    obtain ⟨hobject, -⟩ := hforward _ hstep
    cases dueCase_of_loopMove (htime.due id j hj) hmove with
    | kept _ _ hno => simp [hno rfl] at hre
    | computed hnext =>
      by_contra hnot
      have hzero : j'.nextRun = 0 := hnext.trans (Job.computeNextRun_of_not_forward hdoc hnot)
      rcases hobject id j' (moved_objects_self hj) with ⟨x, hx, hsame⟩ | ⟨hlt, -⟩
      · have hdue := htime.due id x hx
        rw [← hsame, hzero] at hdue
        cases hdue
      · exact absurd (hzero ▸ hlt) (not_lt.mpr htime.clock)
  | _ => trivial

/-- A loop computes a later due time when the schedule has one. -/
lemma stepsForward_loop (hdoc : cron.Documented Matches limit) (htime : OnTime s) {i : ℕ}
    {move : Move} (hcond : ComputesForward cron Matches limit s (.loop i move)) :
    StepsForward cron codec s (.loop i move) := by
  intro t hstep
  obtain ⟨id, pc, j, j', pc', store, hl, hj, hmove, rfl⟩ := step_loop hstep
  have hdue := dueCase_of_loopMove (htime.due id j hj) hmove
  refine ⟨fun k x hx => ?_, fun k l hk d hd => ?_⟩
  · dsimp only at hx
    rw [Scheduler.moved_getElem? hj] at hx
    obtain ⟨y, hy, rfl⟩ := Option.map_eq_some_iff.mp hx
    split_ifs with hsame
    · -- the job of the loop
      subst hsame
      obtain rfl : y = j := Option.some.inj (hy.symm.trans hj)
      cases hdue with
      | kept hnext => exact .inl ⟨y, hy, hnext⟩
      | computed hnext hagain _ hgo hre =>
        subst hgo
        have hlater := hcond ⟨k, pc⟩ hl y hj hre
        rw [hnext, hagain]
        exact .inr ⟨(Job.lt_computeNextRun_iff hdoc (htime.interval k y hj) s.clock).mpr hlater,
          rfl⟩
    · exact .inl ⟨y, hy, rfl⟩
  · by_cases hki : k = i
    · -- a loop that comes to wait has not computed anything in the same step
      subst hki
      obtain rfl : ⟨id, pc'⟩ = l := Option.some.inj ((moved_loops_self hl).symm.trans hk)
      cases hdue with
      | kept hnext harmed =>
        exact .inr ⟨j', moved_objects_self hj, (harmed d hd).trans hnext.symm⟩
      | computed _ _ harmed => exact absurd hd (harmed d)
    · change (s.sched.loops.set i ⟨id, pc'⟩)[k]? = some l at hk
      rw [List.getElem?_set_ne (Ne.symm hki)] at hk
      exact .inl hk

/-- The steps that neither add a job nor move a loop. -/
lemma untimed_step {e : Event} (hadd : ∀ cfg, e ≠ .addJob cfg) (hloop : ∀ i move, e ≠ .loop i move)
    (hstep : step cron codec s e = some t) : s.clock ≤ t.clock ∧ Untimed s.sched t.sched := by
  cases e with
  | addJob cfg => exact absurd rfl (hadd cfg)
  | loop i move => exact absurd rfl (hloop i move)
  | tick d =>
    obtain rfl := Option.some.inj hstep
    exact ⟨le_add_of_nonneg_right (Int.natCast_nonneg d), untimed_refl _⟩
  | cancel =>
    obtain rfl := Option.some.inj hstep
    exact ⟨le_rfl, untimed_refl _⟩
  | start =>
    obtain rfl := Option.some.inj hstep
    exact ⟨le_rfl, untimed_start _⟩
  | stop =>
    obtain ⟨u, hu, rfl⟩ := Option.map_eq_some_iff.mp hstep
    exact ⟨le_rfl, untimed_stop hu⟩
  | clear =>
    obtain ⟨u, hu, rfl⟩ := Option.map_eq_some_iff.mp hstep
    exact ⟨le_rfl, untimed_clear hu⟩

/-- A step moves forward exactly when every due time that it computes has a schedule with a
later time. -/
lemma stepsForward_iff (hdoc : cron.Documented Matches limit) (htime : OnTime s) (e : Event) :
    StepsForward cron codec s e ↔ ComputesForward cron Matches limit s e := by
  cases e with
  | addJob cfg => exact stepsForward_addJob_iff hdoc
  | loop i move => exact ⟨computesForward_loop hdoc htime, stepsForward_loop hdoc htime⟩
  | _ =>
    refine iff_of_true (fun t hstep => ?_) trivial
    have huntimed := (untimed_step (by simp) (by simp) hstep).2
    exact huntimed.stepsForward hstep t hstep

/-- The schedule of an accepted job has a positive interval or none. -/
lemma Job.interval_pos {cfg : JobConfig} {j : Job κ} (h : cfg.check cron = .ok j.spec) :
    ∀ interval ∈ j.interval, 0 < interval := by
  intro interval hinterval
  rw [JobConfig.check] at h
  split_ifs at h
  rw [Job.interval] at hinterval
  cases hspec : j.spec with
  | interval d raw =>
    rw [hspec] at h hinterval
    obtain rfl := Option.some.inj hinterval
    exact parseSchedule_pos h
  | cron k raw =>
    rw [hspec] at hinterval
    cases hinterval

/-- The time only goes on, and a job keeps its schedule. -/
lemma schedules_step {e : Event} (htime : OnTime s) (hstep : step cron codec s e = some t) :
    s.clock ≤ t.clock ∧ ∀ (id : ℕ) (j : Job κ), t.sched.objects[id]? = some j →
      ∀ interval ∈ j.interval, 0 < interval := by
  cases e with
  | addJob cfg =>
    obtain rfl | ⟨sched, hadd, rfl⟩ := step_addJob hstep
    · exact ⟨le_rfl, htime.interval⟩
    · obtain ⟨spec, hcheck, hname, rfl⟩ := (Scheduler.addJob_eq_ok cron codec).mp hadd
      refine ⟨le_rfl, fun id j' hj' => ?_⟩
      rcases getElem?_addJob hj' with hold | ⟨-, rfl⟩
      · exact htime.interval id j' hold
      · exact Job.interval_pos
          (j := newJob cron codec s.sched.stateStore cfg.normalize spec s.clock) hcheck
  | loop i move =>
    obtain ⟨id, pc, j, j', pc', store, hl, hj, hmove, rfl⟩ := step_loop hstep
    refine ⟨le_rfl, fun k x hx => ?_⟩
    dsimp only at hx
    rw [Scheduler.moved_getElem? hj] at hx
    obtain ⟨y, hy, rfl⟩ := Option.map_eq_some_iff.mp hx
    split_ifs
    · rw [Job.interval, (saved_of_loopMove hmove).1]
      exact htime.interval id j hj
    · exact htime.interval k y hy
  | _ =>
    obtain ⟨hclock, huntimed⟩ := untimed_step (by simp) (by simp) hstep
    refine ⟨hclock, fun id j' hj' => ?_⟩
    obtain ⟨j, hj, -, hspec⟩ := huntimed.object id j' hj'
    rw [Job.interval, hspec]
    exact htime.interval id j hj

/-- A step that moves forward keeps the jobs on time. -/
lemma onTime_step {e : Event} (htime : OnTime s) (hforward : StepsForward cron codec s e)
    (hstep : step cron codec s e = some t) : OnTime t := by
  obtain ⟨hclock, hinterval⟩ := schedules_step htime hstep
  refine ⟨htime.clock.trans hclock, hinterval, fun id j' hj' => ?_⟩
  rcases (hforward t hstep).1 id j' hj' with ⟨j, hj, hsame⟩ | ⟨hlt, -⟩
  · rw [hsame]
    exact htime.due id j hj
  · exact isZero_of_lt htime.clock hlt

/-- **A due time is later than the reading of the clock that it is computed from exactly when
the schedule has a later time, for one call and along every run.** -/
theorem forward_iff (hdoc : cron.Documented Matches limit) (codec : Codec JobState V) :
    (∀ (cfg : JobConfig) (j : Job κ) (now : Time), cfg.check cron = .ok j.spec →
      (now < j.computeNextRun cron now ↔ j.spec.ForwardAt Matches limit now)) ∧
    ∀ (stateStore : Option (BadgerStore V)) (clock : ℕ) (es : List Event),
      Meets (step cron codec) (StepsForward cron codec) (.init stateStore clock) es ↔
        Meets (step cron codec) (ComputesForward cron Matches limit)
          (.init stateStore clock) es := by
  refine ⟨fun cfg j now hcheck => Job.lt_computeNextRun_iff hdoc (Job.interval_pos hcheck) now,
    fun stateStore clock es => ?_⟩
  have hinit : OnTime (.init stateStore (clock : Time) : System κ V) :=
    ⟨Int.natCast_nonneg clock, fun _ _ hj => absurd (List.mem_of_getElem? hj) List.not_mem_nil,
      fun _ _ hj => absurd (List.mem_of_getElem? hj) List.not_mem_nil⟩
  constructor
  · exact meets_of_meets (fun s e t => onTime_step)
      (fun s e htime => (stepsForward_iff hdoc htime e).mp) hinit
  · exact meets_of_meets
      (fun s e t htime hcond => onTime_step htime ((stepsForward_iff hdoc htime e).mpr hcond))
      (fun s e htime => (stepsForward_iff hdoc htime e).mpr) hinit

/-- A library that knows two expressions: every full hour, and the thirtieth of February. -/
def twoCrons : CronLib Bool where
  parse expr := if expr = "0 * * * *" then some true else
    if expr = "0 0 30 2 *" then some false else none
  next hourly t := if hourly then (t / hour + 1) * hour else 0

/-- The times that the two match. -/
def TwoCronsMatch (hourly : Bool) (t : Time) : Prop := hourly = true ∧ hour ∣ t

/-- Five years on. -/
def fiveYears (t : Time) : Time := t + 5 * 365 * 24 * hour

lemma documented_twoCrons : twoCrons.Documented TwoCronsMatch fiveYears := by
  have hlater : ∀ t : Time, t < (t / hour + 1) * hour := fun t =>
    Int.lt_ediv_add_one_mul_self t (by decide)
  constructor
  · rintro hourly t u hlt - ⟨rfl, c, rfl⟩
    refine ⟨hlater t, ?_, rfl, Dvd.intro_left _ rfl⟩
    have hc : t / hour < c := Int.ediv_lt_of_lt_mul (by decide) (by rwa [mul_comm] at hlt)
    change (t / hour + 1) * hour ≤ hour * c
    rw [mul_comm]
    exact mul_le_mul_of_nonneg_left hc (by decide)
  · rintro (_ | _) t hnone
    · rfl
    · refine absurd ⟨rfl, Dvd.intro_left _ rfl⟩ (hnone ((t / hour + 1) * hour) (hlater t) ?_)
      have hfloor : t / hour * hour ≤ t := Int.ediv_mul_le t (by decide)
      rw [fiveYears, add_mul, one_mul]
      have hyears : hour ≤ 5 * 365 * 24 * hour := by decide
      exact add_le_add hfloor hyears

def hourlyScan : JobConfig := { scan with schedule := "0 * * * *" }

def neverScan : JobConfig := { scan with schedule := "0 0 30 2 *" }

lemma check_hourlyScan : hourlyScan.check twoCrons = .ok (.cron true "0 * * * *") := by
  decide +kernel

lemma check_neverScan : neverScan.check twoCrons = .ok (.cron false "0 0 30 2 *") := by
  decide +kernel

/-- A job for every full hour that is added at the start of 1970 is due at a later time. -/
theorem forward_hourly :
    unixEpoch < (newJob twoCrons stateCodec none hourlyScan (.cron true "0 * * * *")
        unixEpoch).computeNextRun twoCrons unixEpoch ∧
      Meets (step twoCrons stateCodec) (StepsForward twoCrons stateCodec)
        (.init none (62135596800000000000 : ℕ)) [.addJob hourlyScan, .start] := by
  obtain ⟨hcall, hrun⟩ := forward_iff documented_twoCrons stateCodec
  have hlater : (ScheduleSpec.cron true "0 * * * *").ForwardAt TwoCronsMatch fiveYears unixEpoch :=
    .inr ⟨unixEpoch + hour, by decide, by decide, rfl, by decide⟩
  refine ⟨(hcall hourlyScan _ unixEpoch check_hourlyScan).mpr hlater, ?_⟩
  rw [hrun]
  refine ⟨fun spec hcheck _ => ?_, fun t _ => ⟨trivial, fun _ _ => trivial⟩⟩
  obtain rfl := Except.ok.inj (check_hourlyScan.symm.trans hcheck)
  exact hlater

/-- The thirtieth of February is accepted as a schedule, and its due time is long past. -/
theorem never_forward :
    neverScan.check twoCrons = .ok (.cron false "0 0 30 2 *") ∧
      ¬ unixEpoch < (newJob twoCrons stateCodec none neverScan (.cron false "0 0 30 2 *")
        unixEpoch).computeNextRun twoCrons unixEpoch ∧
      ¬ Meets (step twoCrons stateCodec) (StepsForward twoCrons stateCodec)
        (.init none unixEpoch) [.addJob neverScan] := by
  refine ⟨check_neverScan, by decide +kernel, fun h => ?_⟩
  have hcond := (stepsForward_addJob_iff documented_twoCrons).mp h.1 _ check_neverScan
    (by decide +kernel)
  rcases hcond with hpast | ⟨u, -, -, hmatch, -⟩
  · exact absurd hpast (by decide)
  · cases hmatch

end Arcsent.Scheduling
