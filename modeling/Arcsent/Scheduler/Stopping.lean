/-
# What a job does after it was stopped

The stop channel is looked at in one place, where the loop waits for its timer, and there
the timer may win.  An execution that is in progress when the channel is closed goes on
with its retries.
-/
import Arcsent.Scheduler.Loops

namespace Arcsent.Scheduling

open Arcsent.Go Arcsent.Storage Arcsent.Lib

variable {κ V : Type}

/-- The plugin is running. -/
def Pc.isAttempt : Pc → Bool
  | attempt _ _ => true
  | _ => false

/-- Another attempt is to follow. -/
def Pc.isBackoff : Pc → Bool
  | backoff _ _ _ => true
  | _ => false

def RunResult.isResult : RunResult → Bool
  | result _ => true
  | _ => false

section Conditions

variable (cron : CronLib κ) (codec : Codec JobState V)

/-- No plugin run begins in a loop whose stop channel has been closed. -/
def Quiet (s : System κ V) : Event → Prop
  | .loop i move => ∀ l ∈ s.sched.loops[i]?, ∀ j ∈ s.sched.objects[l.job]?, j.stopped = true →
      ∀ r ∈ loopMove cron codec s.clock s.cancelled s.sched.stateStore j l.pc move,
        r.1.2.isAttempt = false
  | _ => True

end Conditions

/-- What the loop of a stopped job may do next: anything but begin the run at the start,
take the timer, or fail with retries left. -/
def Job.WindsUp (j : Job κ) : Pc → Move → Prop
  | .top, .go => ¬ (j.cfg.runOnStart = true ∧ isZero j.state.lastRun = true)
  | .attempt _ n, .ran r => r.isResult = true ∨ ¬ n < j.cfg.maxRetries
  | .armed _, .fire => False
  | _, _ => True

instance (j : Job κ) (pc : Pc) (move : Move) : Decidable (j.WindsUp pc move) := by
  unfold Job.WindsUp
  split <;> infer_instance

/-- The jobs are stopped while no loop of theirs is about to execute or sleeps before a
retry, and the loops of stopped jobs wind up. -/
def InTime (s : System κ V) : Event → Prop
  | .stop | .clear => ∀ l ∈ s.sched.loops, l.job ∈ s.sched.current →
      ∀ j ∈ s.sched.objects[l.job]?, j.started = true →
        l.pc.isEntering = false ∧ l.pc.isBackoff = false
  | .loop i move => ∀ l ∈ s.sched.loops[i]?, ∀ j ∈ s.sched.objects[l.job]?, j.stopped = true →
      j.WindsUp l.pc move
  | _ => True

instance (s : System κ V) : ∀ e, Decidable (InTime s e)
  | .stop => inferInstanceAs (Decidable (∀ l ∈ s.sched.loops, _))
  | .clear => inferInstanceAs (Decidable (∀ l ∈ s.sched.loops, _))
  | .loop i _ => inferInstanceAs (Decidable (∀ l ∈ s.sched.loops[i]?, _))
  | .tick _ => isTrue trivial
  | .cancel => isTrue trivial
  | .addJob _ => isTrue trivial
  | .start => isTrue trivial

/-! ## The invariant -/

/-- No loop of a stopped job is about to execute or sleeps before a retry. -/
def WoundUp (s : Scheduler κ V) : Prop :=
  ∀ l ∈ s.loops, ∀ j, s.objects[l.job]? = some j → j.stopped = true →
    l.pc.isEntering = false ∧ l.pc.isBackoff = false

variable {cron : CronLib κ} {codec : Codec JobState V}

/-- A loop that waits is neither about to execute nor before a retry. -/
lemma resume_pc (j : Job κ) (now : Time) (origin : Origin) :
    (j.resume cron now origin).2.isEntering = false ∧
      (j.resume cron now origin).2.isBackoff = false := by
  cases origin <;> exact ⟨rfl, rfl⟩

/-- A loop that winds up does not come to execute again. -/
lemma woundUp_of_windsUp {now : Time} {cancelled : Bool} {store store' : Option (BadgerStore V)}
    {j j' : Job κ} {pc pc' : Pc} {move : Move}
    (h : loopMove cron codec now cancelled store j pc move = some ((j', pc'), store'))
    (hwinds : j.WindsUp pc move) : pc'.isEntering = false ∧ pc'.isBackoff = false := by
  cases loopMove_cases h with
  | enter hstart => exact absurd hstart hwinds
  | skip origin => exact resume_pc j now origin
  | retry origin n r hr hretry =>
    rcases hwinds with hresult | hlast
    · cases r with
      | result status => exact absurd rfl (hr status)
      | _ => cases hresult
    · exact absurd hretry hlast
  | leave origin running => exact resume_pc _ now origin
  | fire deadline hdue => exact absurd hwinds id
  | _ => exact ⟨rfl, rfl⟩

/-- A run begins only where one was about to. -/
lemma isAttempt_of_loopMove {now : Time} {cancelled : Bool}
    {store store' : Option (BadgerStore V)} {j j' : Job κ} {pc pc' : Pc} {move : Move}
    (h : loopMove cron codec now cancelled store j pc move = some ((j', pc'), store'))
    (hbegins : pc'.isAttempt = true) : pc.isEntering = true ∨ pc.isBackoff = true := by
  cases loopMove_cases h with
  | begin origin => exact .inl rfl
  | again origin => exact .inr rfl
  | skip origin => exact .inl rfl
  | leave origin => cases origin <;> cases hbegins
  | _ => cases hbegins

variable {s t : System κ V}

lemma woundUp_stop (h : WoundUp s.sched) {sched : Scheduler κ V} (hstop : s.sched.stop = some sched)
    (htime : ∀ l ∈ s.sched.loops, l.job ∈ s.sched.current →
      ∀ j ∈ s.sched.objects[l.job]?, j.started = true →
        l.pc.isEntering = false ∧ l.pc.isBackoff = false) : WoundUp sched := by
  obtain rfl := Scheduler.stop_eq_some hstop
  intro l hl j hj hstopped
  rw [Scheduler.change_getElem?] at hj
  obtain ⟨x, hx, rfl⟩ := Option.map_eq_some_iff.mp hj
  by_cases hmem : l.job ∈ s.sched.currentWhere fun j => j.started
  · -- the job is stopped now
    obtain ⟨hcurrent, y, hy, hstarted⟩ := Scheduler.mem_currentWhere.mp hmem
    exact htime l hl hcurrent y hy hstarted
  · rw [if_neg hmem] at hstopped
    exact h l hl x hx hstopped

lemma woundUp_loop (h : WoundUp s.sched) {i : ℕ} {move : Move}
    (htime : InTime s (.loop i move)) (hstep : step cron codec s (.loop i move) = some t) :
    WoundUp t.sched := by
  obtain ⟨id, pc, j, j', pc', store, hl, hj, hmove, rfl⟩ := step_loop hstep
  have hspec := loopMove_spec hmove
  intro l hmem x hx hstopped
  dsimp only at hmem hx
  rw [Scheduler.moved_getElem? hj] at hx
  obtain ⟨y, hy, rfl⟩ := Option.map_eq_some_iff.mp hx
  have hsame : y.stopped = true := by
    by_cases hid : l.job = id
    · rw [if_pos hid, hspec.stopped] at hstopped
      rw [hid] at hy
      rwa [Option.some.inj (hy.symm.trans hj)]
    · rwa [if_neg hid] at hstopped
  rcases List.mem_or_eq_of_mem_set hmem with hold | rfl
  · exact h l hold y hy hsame
  · obtain rfl := Option.some.inj (hj.symm.trans hy)
    exact woundUp_of_windsUp hmove (htime ⟨id, pc⟩ hl j hj hsame)

lemma woundUp_step {e : Event} (h : WoundUp s.sched) (htime : InTime s e)
    (hstep : step cron codec s e = some t) : WoundUp t.sched := by
  cases e with
  | tick d =>
    obtain rfl := Option.some.inj hstep
    exact h
  | cancel =>
    obtain rfl := Option.some.inj hstep
    exact h
  | addJob cfg =>
    obtain rfl | ⟨sched, hadd, rfl⟩ := step_addJob hstep
    · exact h
    obtain ⟨spec, -, -, rfl⟩ := (Scheduler.addJob_eq_ok cron codec).mp hadd
    intro l hl j hj hstopped
    dsimp only at hj
    rw [List.getElem?_append] at hj
    split_ifs at hj
    · exact h l hl j hj hstopped
    · rw [List.mem_singleton.mp (List.mem_of_getElem? hj)] at hstopped
      cases hstopped
  | start =>
    obtain rfl := Option.some.inj hstep
    intro l hl j hj hstopped
    rcases List.mem_append.mp hl with hold | hnew
    · -- starting a job does not open its channel
      dsimp only at hj
      rw [Scheduler.start_getElem?] at hj
      obtain ⟨x, hx, rfl⟩ := Option.map_eq_some_iff.mp hj
      refine h l hold x hx ?_
      split_ifs at hstopped <;> exact hstopped
    · obtain ⟨id, -, rfl⟩ := List.mem_map.mp hnew
      exact ⟨rfl, rfl⟩
  | stop =>
    obtain ⟨sched, hstop, rfl⟩ := Option.map_eq_some_iff.mp hstep
    exact woundUp_stop h hstop htime
  | clear =>
    obtain ⟨sched, hclear, rfl⟩ := Option.map_eq_some_iff.mp hstep
    obtain ⟨u, hstop, rfl⟩ := Scheduler.clear_eq_some hclear
    have hwound : WoundUp u := woundUp_stop h hstop htime
    exact hwound
  | loop i move => exact woundUp_loop h htime hstep

/-- Where no loop of a stopped job is about to execute, none begins a run. -/
lemma quiet_of_woundUp {e : Event} (h : WoundUp s.sched) : Quiet cron codec s e := by
  cases e with
  | loop i move =>
    rintro l hl j hj hstopped ⟨⟨j', pc'⟩, store'⟩ hmove
    have hpc := h l (List.mem_of_getElem? hl) j hj hstopped
    rw [Bool.eq_false_iff]
    intro hbegins
    rcases isAttempt_of_loopMove hmove hbegins with hentering | hbackoff
    · rw [hpc.1] at hentering
      cases hentering
    · rw [hpc.2] at hbackoff
      cases hbackoff
  | _ => trivial

/-! ## All runs -/

/-- **A stopped job begins no plugin run** in a run in which jobs are stopped in time and
wind up. -/
theorem quiet_of_inTime (cron : CronLib κ) (codec : Codec JobState V)
    (stateStore : Option (BadgerStore V)) (clock : Time) (es : List Event)
    (h : Meets (step cron codec) InTime (.init stateStore clock) es) :
    Meets (step cron codec) (Quiet cron codec) (.init stateStore clock) es :=
  meets_of_meets (I := fun s => WoundUp s.sched) (fun _ _ _ hs htime => woundUp_step hs htime)
    (fun _ _ hs _ => quiet_of_woundUp hs) (fun _ hl => absurd hl List.not_mem_nil) h

/-- A job that is stopped while its plugin runs, which then succeeds. -/
def stopDuringRun : List Event :=
  [.addJob scan, .start, .loop 0 .go, .loop 0 .go, .stop, .loop 0 (.ran (.result .success)),
    .loop 0 .go, .loop 0 .go, .loop 0 .halt]

/-- It winds up. -/
theorem quiet_stopDuringRun :
    Meets (step noCron stateCodec) (Quiet noCron stateCodec) (.init none unixEpoch)
      stopDuringRun :=
  quiet_of_inTime noCron stateCodec none unixEpoch stopDuringRun (by decide +kernel)

/-- A job with one retry. -/
def scanTwice : JobConfig := { scan with maxRetries := 1 }

/-- The job is stopped while its plugin runs, the run fails, and the job is due again. -/
def stopBeforeRetry : List Event :=
  [.addJob scanTwice, .start, .loop 0 .go, .loop 0 .go, .stop,
    .loop 0 (.ran (.error "no such file")), .tick (2 * second).toNat]

/-- The plugin of a stopped job is run again. -/
theorem retry_after_stop :
    ¬ ∀ es : List Event,
      Meets (step noCron stateCodec) (Quiet noCron stateCodec) (.init none unixEpoch) es := by
  intro hclaim
  have hrun : ∃ s ∈ run (step noCron stateCodec) (.init none unixEpoch) stopBeforeRetry,
      ∃ l ∈ s.sched.loops[0]?, ∃ j ∈ s.sched.objects[l.job]?, j.stopped = true ∧
        ∃ r ∈ loopMove noCron stateCodec s.clock s.cancelled s.sched.stateStore j l.pc .go,
          r.1.2.isAttempt = true := by decide +kernel
  obtain ⟨s, hs, l, hl, j, hj, hstopped, r, hr, hbegins⟩ := hrun
  have hquiet := meets_append (hclaim (stopBeforeRetry ++ [.loop 0 .go])) hs
  have hnot := hquiet.1 l hl j hj hstopped r hr
  rw [hbegins] at hnot
  cases hnot

end Arcsent.Scheduling
