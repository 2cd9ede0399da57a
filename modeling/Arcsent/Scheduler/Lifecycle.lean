/-
# Starting again after a stop

Whether a job is served is said twice, by the mark `started` and by the stop channel.
`Stop` takes the mark back and closes the channel, and `Start` sets the mark again without
a new channel; only `ReplaceJobs` makes new ones.
-/
import Arcsent.Scheduler.Replace

namespace Arcsent.Scheduling

open Arcsent.Go Arcsent.Storage Arcsent.Lib

variable {κ V : Type} {cron : CronLib κ} {codec : Codec JobState V}

/-! ## `ReplaceJobs` as a sequence of steps -/

lemma step_addJob_of_eq_ok {s : System κ V} {cfg : JobConfig} {t : Scheduler κ V}
    (h : s.sched.addJob cron codec s.clock cfg = .ok t) :
    step cron codec s (.addJob cfg) = some { s with sched := t } := by
  rw [step, h]

/-- The jobs that `ReplaceJobs` has added are those of as many steps. -/
lemma run_addJobs {configs : List JobConfig} {s : System κ V} {t : Scheduler κ V}
    {err : Option String} (h : s.sched.addJobs cron codec s.clock configs = (t, err)) :
    ∃ added rest, configs = added ++ rest ∧ (err = none → rest = []) ∧
      run (step cron codec) s (added.map .addJob) = some { s with sched := t } := by
  induction configs generalizing s with
  | nil =>
    obtain ⟨rfl, rfl⟩ := Prod.mk.inj h
    exact ⟨[], [], rfl, fun _ => rfl, rfl⟩
  | cons cfg configs ih =>
    rw [Scheduler.addJobs] at h
    cases hadd : s.sched.addJob cron codec s.clock cfg with
    | error msg =>
      rw [hadd] at h
      obtain ⟨rfl, rfl⟩ := Prod.mk.inj h
      refine ⟨[], cfg :: configs, rfl, ?_, rfl⟩
      intro hnone
      cases hnone
    | ok u =>
      rw [hadd] at h
      obtain ⟨added, rest, rfl, hrest, hrun⟩ := ih (s := { s with sched := u }) h
      refine ⟨cfg :: added, rest, rfl, hrest, ?_⟩
      rw [List.map_cons, run_cons, step_addJob_of_eq_ok hadd]
      exact hrun

/-- A call of `ReplaceJobs` that does not panic is one of the sequences of steps that runs
are made of: it adds the jobs up to the first that is refused, and starts them if none is. -/
theorem run_replaceJobs {configs : List JobConfig} {s : System κ V} {t : Scheduler κ V}
    {err : Option String} (h : s.sched.replaceJobs cron codec s.clock configs = some (t, err)) :
    ∃ added rest, configs = added ++ rest ∧ (err = none → rest = []) ∧
      run (step cron codec) s
        (.clear :: added.map .addJob ++ if err = none then [.start] else [])
        = some { s with sched := t } := by
  obtain ⟨u, hclear, h⟩ := Option.map_eq_some_iff.mp h
  have hstep : step cron codec s .clear = some { s with sched := u } := by
    rw [step, hclear, Option.map_some]
  rcases hadded : u.addJobs cron codec s.clock configs with ⟨v, err'⟩
  obtain ⟨added, rest, hconfigs, hrest, hrun⟩ :=
    run_addJobs (s := { s with sched := u }) hadded
  rw [hadded] at h
  refine ⟨added, rest, hconfigs, fun herr => hrest ?_, ?_⟩
  · cases err' with
    | none => rfl
    | some msg => simp [herr] at h
  · rw [List.cons_append, run_cons, hstep, Option.bind_some, run_append, hrun, Option.bind_some]
    cases err' with
    | none =>
      obtain ⟨rfl, rfl⟩ := Prod.mk.inj h
      rfl
    | some msg =>
      obtain ⟨rfl, rfl⟩ := Prod.mk.inj h
      rfl

/-! ## The property -/

/-- No channel would be closed twice by a call of `Stop` or `ReplaceJobs`, and each started
job of the table has a loop and an open channel; only a loop whose context is done may have
returned. -/
structure Orderly (s : System κ V) : Prop where
  noPanic : s.sched.stop.isSome = true
  served : ∀ id ∈ s.sched.current, ∀ j, s.sched.objects[id]? = some j → j.started = true →
    j.stopped = false ∧
      ∃ l ∈ s.sched.loops, l.job = id ∧ (l.pc.hasExited = false ∨ s.cancelled = true)

/-- `Start` is only called when no job of the table has been stopped. -/
def Restartable (s : System κ V) : Event → Prop
  | .start => ∀ id ∈ s.sched.current, ∀ j, s.sched.objects[id]? = some j → j.started = false →
      j.stopped = false
  | _ => True

/-- Where the channels of the started jobs are open, closing them does not panic. -/
lemma orderly_of_served {s : System κ V}
    (h : ∀ id ∈ s.sched.current, ∀ j, s.sched.objects[id]? = some j → j.started = true →
      j.stopped = false ∧
        ∃ l ∈ s.sched.loops, l.job = id ∧ (l.pc.hasExited = false ∨ s.cancelled = true)) :
    Orderly s := by
  refine ⟨?_, h⟩
  have hnone : s.sched.currentWhere (fun j => j.started && j.stopped) = [] := by
    refine List.eq_nil_iff_forall_not_mem.mpr fun id hid => ?_
    obtain ⟨hcurrent, j, hj, hmarks⟩ := Scheduler.mem_currentWhere.mp hid
    rw [Bool.and_eq_true] at hmarks
    rw [(h id hcurrent j hj hmarks.1).1] at hmarks
    exact absurd hmarks.2 Bool.false_ne_true
  rw [Scheduler.stop, if_pos hnone]
  rfl

/-! ## What each step does to it -/

/-- A loop returns when it sees its channel closed or its context done. -/
lemma loopMove_exited {now : Time} {cancelled : Bool} {store store' : Option (BadgerStore V)}
    {j j' : Job κ} {pc pc' : Pc} {move : Move}
    (h : loopMove cron codec now cancelled store j pc move = some ((j', pc'), store'))
    (hexited : pc'.hasExited = true) : j.stopped = true ∨ cancelled = true := by
  cases loopMove_cases h with
  | halt _ hstop => exact hstop
  | skip origin => cases origin <;> cases hexited
  | leave origin => cases origin <;> cases hexited
  | _ => cases hexited

variable {s t : System κ V}

lemma orderly_start (h : Orderly s) (hstep : step cron codec s .start = some t) :
    Orderly t ↔ Restartable s .start := by
  obtain rfl := Option.some.inj hstep
  have hnew {id : ℕ} {j : Job κ} (hid : id ∈ s.sched.current) (hj : s.sched.objects[id]? = some j)
      (hidle : j.started = false) : id ∈ s.sched.currentWhere fun j => !j.started :=
    Scheduler.mem_currentWhere.mpr ⟨hid, j, hj, by rw [hidle]; rfl⟩
  constructor
  · intro ht id hid j hj hidle
    have hget := s.sched.start_getElem? id
    rw [hj, Option.map_some, if_pos (hnew hid hj hidle)] at hget
    exact (ht.served id hid _ hget rfl).1
  · intro hopen
    refine orderly_of_served fun id hid j' hj' _ => ?_
    have hget := s.sched.start_getElem? id
    rw [hj'] at hget
    obtain ⟨j, hj, rfl⟩ := Option.map_eq_some_iff.mp hget.symm
    cases hstarted : j.started with
    | true =>
      -- it was served before
      have hnot : id ∉ s.sched.currentWhere fun j => !j.started := by
        intro hmem
        obtain ⟨-, x, hx, hidle⟩ := Scheduler.mem_currentWhere.mp hmem
        obtain rfl := Option.some.inj (hj.symm.trans hx)
        rw [hstarted] at hidle
        cases hidle
      obtain ⟨hchannel, l, hl, hjob, hruns⟩ := h.served id hid j hj hstarted
      rw [if_neg hnot]
      exact ⟨hchannel, l, List.mem_append_left _ hl, hjob, hruns⟩
    | false =>
      -- it gets a loop now
      have hmem := hnew hid hj hstarted
      rw [if_pos hmem]
      refine ⟨hopen id hid j hj hstarted, ⟨id, .top⟩, ?_, rfl, .inl rfl⟩
      exact List.mem_append_right _ (List.mem_map_of_mem hmem)

lemma orderly_addJob (h : Orderly s) {cfg : JobConfig}
    (hstep : step cron codec s (.addJob cfg) = some t) : Orderly t := by
  obtain rfl | ⟨sched, hadd, rfl⟩ := step_addJob hstep
  · exact h
  obtain ⟨spec, -, -, rfl⟩ := (Scheduler.addJob_eq_ok cron codec).mp hadd
  refine orderly_of_served fun id hid j hj hstarted => ?_
  dsimp only at hid hj
  rw [List.getElem?_append] at hj
  split_ifs at hj with hlt
  · -- an object that was there before
    rw [Scheduler.current, List.map_append, List.map_singleton] at hid
    refine h.served id ?_ j hj hstarted
    rcases List.mem_append.mp hid with hid | hid
    · exact hid
    · rw [List.mem_singleton.mp hid] at hlt
      exact absurd hlt (lt_irrefl _)
  · -- the new object has not been started
    have hmem := List.mem_of_getElem? hj
    rw [List.mem_singleton.mp hmem] at hstarted
    cases hstarted

/-- After `Stop` no job of the table is started. -/
lemma orderly_of_stop {sched u : Scheduler κ V} (hstop : sched.stop = some u) {clock : Time}
    {cancelled : Bool} : Orderly ⟨u, clock, cancelled⟩ := by
  rw [Scheduler.stop_eq_some hstop]
  refine orderly_of_served fun id hid j hj hstarted => ?_
  dsimp only at hj
  rw [Scheduler.change_getElem?] at hj
  obtain ⟨x, hx, rfl⟩ := Option.map_eq_some_iff.mp hj
  by_cases hmem : id ∈ sched.currentWhere fun j => j.started
  · rw [if_pos hmem] at hstarted
    cases hstarted
  · rw [if_neg hmem] at hstarted
    exact absurd ((Scheduler.mem_currentWhere (s := sched)).mpr ⟨hid, x, hx, hstarted⟩) hmem

lemma orderly_loop (h : Orderly s) {i : ℕ} {move : Move}
    (hstep : step cron codec s (.loop i move) = some t) : Orderly t := by
  obtain ⟨id, pc, j, j', pc', store, hl, hj, hmove, rfl⟩ := step_loop hstep
  have hspec := loopMove_spec hmove
  refine orderly_of_served fun k hk x hx hstarted => ?_
  dsimp only at hx
  rw [Scheduler.moved_getElem? hj] at hx
  obtain ⟨y, hy, rfl⟩ := Option.map_eq_some_iff.mp hx
  -- the object had the same marks before the step
  have hmarks : (if k = id then j' else y).started = y.started ∧
      (if k = id then j' else y).stopped = y.stopped := by
    split_ifs with hid
    · subst hid
      obtain rfl := Option.some.inj (hj.symm.trans hy)
      exact ⟨hspec.started, hspec.stopped⟩
    · exact ⟨rfl, rfl⟩
  rw [hmarks.1] at hstarted
  rw [hmarks.2]
  obtain ⟨hopen, l, hmem, hjob, hruns⟩ := h.served k hk y hy hstarted
  refine ⟨hopen, ?_⟩
  obtain ⟨n, hn⟩ := List.mem_iff_getElem?.mp hmem
  by_cases hni : n = i
  · -- it is the loop that moved
    subst hni
    obtain rfl := Option.some.inj (hl.symm.trans hn)
    dsimp only at hjob
    subst hjob
    obtain rfl := Option.some.inj (hj.symm.trans hy)
    have hlt := (List.getElem?_eq_some_iff.mp hl).1
    refine ⟨⟨id, pc'⟩, List.mem_of_getElem? (List.getElem?_set_self hlt), rfl, ?_⟩
    cases hexited : pc'.hasExited with
    | false => exact .inl rfl
    | true =>
      refine .inr ((loopMove_exited hmove hexited).resolve_left fun hstopped => ?_)
      rw [hopen] at hstopped
      cases hstopped
  · refine ⟨l, List.mem_of_getElem? (i := n) ?_, hjob, hruns⟩
    exact (List.getElem?_set_ne (Ne.symm hni)).trans hn

/-- A step keeps the property unless it starts a job whose channel is closed. -/
lemma orderly_step_iff {e : Event} (h : Orderly s) (hstep : step cron codec s e = some t) :
    Orderly t ↔ Restartable s e := by
  cases e with
  | tick d =>
    obtain rfl := Option.some.inj hstep
    exact iff_of_true ⟨h.noPanic, h.served⟩ trivial
  | cancel =>
    obtain rfl := Option.some.inj hstep
    refine iff_of_true (orderly_of_served fun id hid j hj hstarted => ?_) trivial
    obtain ⟨hopen, l, hl, hjob, -⟩ := h.served id hid j hj hstarted
    exact ⟨hopen, l, hl, hjob, .inr rfl⟩
  | addJob cfg => exact iff_of_true (orderly_addJob h hstep) trivial
  | start => exact orderly_start h hstep
  | stop =>
    obtain ⟨sched, hstop, rfl⟩ := Option.map_eq_some_iff.mp hstep
    exact iff_of_true (orderly_of_stop hstop) trivial
  | clear =>
    obtain ⟨sched, hclear, rfl⟩ := Option.map_eq_some_iff.mp hstep
    obtain ⟨u, hstop, rfl⟩ := Scheduler.clear_eq_some hclear
    exact iff_of_true (orderly_of_served fun id hid => absurd hid List.not_mem_nil) trivial
  | loop i move => exact iff_of_true (orderly_loop h hstep) trivial

/-! ## All runs -/

/-- **Calls in any order are safe** exactly when `Start` is never called while the table has
a job that has been stopped. -/
theorem orderly_iff_restartable (cron : CronLib κ) (codec : Codec JobState V)
    (stateStore : Option (BadgerStore V)) (clock : Time) (es : List Event) :
    Always (step cron codec) Orderly (.init stateStore clock) es ↔
      Meets (step cron codec) Restartable (.init stateStore clock) es := by
  refine always_iff_meets (I := fun _ => True) (fun _ _ _ _ _ _ _ => trivial)
    (fun _ _ _ _ h hstep => orderly_step_iff h hstep) (fun s e _ hdead => ?_) trivial
    (orderly_of_served fun id hid => absurd hid List.not_mem_nil) es
  cases e with
  | start => cases hdead
  | _ => trivial

/-- A job that is started again after it was stopped makes the next `Stop` panic. -/
theorem stop_panics_after_restart :
    ¬ ∀ es : List Event, Always (step noCron stateCodec) Orderly (.init none unixEpoch) es := by
  intro hclaim
  have hrun : ∃ s ∈ run (step noCron stateCodec) (.init none unixEpoch)
      [.addJob scan, .start, .stop, .start], s.sched.stop.isSome = false := by decide +kernel
  obtain ⟨s, hs, hpanics⟩ := hrun
  have horderly := (hclaim _).last hs
  rw [horderly.noPanic] at hpanics
  cases hpanics

end Arcsent.Scheduling
