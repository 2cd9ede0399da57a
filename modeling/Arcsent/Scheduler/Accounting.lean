/-
# How the failures of a job are counted

What is known of a job is a record of the outcomes of its executions: the last times, the
last status, the last message and a count of failures.  It is compared here with the
outcomes themselves, which a log keeps beside the daemon, over restarts too.  The clock of
the daemon may be set, forwards or backwards.
-/
import Mathlib.Data.List.DropRight
import Arcsent.Scheduler.Restart

namespace Arcsent.Scheduling

open Arcsent.Go Arcsent.Scanner Arcsent.Storage Arcsent.Lib

variable {κ V : Type}

/-- An outcome that is a failure: an error, or a result that is marked as failed. -/
def hasFailed : Except String Status → Bool
  | .ok status => status = .failed
  | .error _ => true

/-- How many executions have failed since the last one that did not. -/
def failuresAtEnd (log : List (Except String Status)) : ℕ := (log.rtakeWhile hasFailed).length

/-- The state of a job agrees with its log. -/
structure Accounted (log : List (Except String Status)) (st : JobState) : Prop where
  failures : st.consecutiveFailures = failuresAtEnd log
  status : st.lastStatus = some .failed ↔ 0 < st.consecutiveFailures
  message : st.lastErrorMessage = "" ↔ st.consecutiveFailures = 0
  lastRun : st.lastRun = max st.lastSuccess st.lastError

/-- What happens to a daemon whose clock may be set. -/
inductive ClockedEvent
  | daemon (e : DaemonEvent)
  | setClock (now : Time)

/-- The daemon with a log of the outcomes of each job. -/
structure Logged (κ V : Type) where
  daemon : System κ V
  log : String → List (Except String Status)

section Definitions

variable (cron : CronLib κ) (codec : Codec JobState V)

def Logged.init (store : BadgerStore V) (clock : Time) : Logged κ V :=
  ⟨.init (some store) clock, fun _ => []⟩

/-- The outcome that is about to be recorded. -/
def Pc.outcome? : Pc → Option (Except String Status)
  | saving _ outcome => some outcome
  | _ => none

/-- The outcome that a step records, the state it finds and the name of the job. -/
def recorded (s : System κ V) : DaemonEvent → Option (String × JobState × Except String Status)
  | .loop i .go => do
    let l ← s.sched.loops[i]?
    let j : Job κ ← s.sched.objects[l.job]?
    let outcome ← l.pc.outcome?
    return (j.cfg.name, j.state, outcome)
  | _ => none

/-- The logs after a step. -/
def Logged.record (s : Logged κ V) (e : DaemonEvent) (name : String) :
    List (Except String Status) :=
  match recorded s.daemon e with
  | some (job, _, outcome) => if name = job then s.log name ++ [outcome] else s.log name
  | none => s.log name

/-- A step of the daemon, its clock and its log. -/
def loggedStep (s : Logged κ V) : ClockedEvent → Option (Logged κ V)
  | .daemon e => (daemonStep cron codec s.daemon e).map fun t => ⟨t, s.record e⟩
  | .setClock now => some { s with daemon := { s.daemon with clock := now } }

/-- The state of every job, in memory and in the store, agrees with its log. -/
structure AllAccounted (s : Logged κ V) : Prop where
  memory : ∀ (id : ℕ) (j : Job κ), s.daemon.sched.objects[id]? = some j →
    Accounted (s.log j.cfg.name) j.state
  stored : ∀ name, Accounted (s.log name) (loadState codec s.daemon.sched.stateStore name)

end Definitions

/-- An outcome that the state of a job can account for at a time. -/
def Accountable (st : JobState) (now : Time) : Except String Status → Prop
  | .ok status => status ≠ .failed ∧ st.lastError ≤ now
  | .error msg => msg ≠ "" ∧ st.lastSuccess ≤ now

instance (st : JobState) (now : Time) : ∀ outcome, Decidable (Accountable st now outcome)
  | .ok _ => inferInstanceAs (Decidable (_ ∧ _))
  | .error _ => inferInstanceAs (Decidable (_ ∧ _))

/-- An outcome that a step records is one of these. -/
def RecordsAccountable (s : Logged κ V) : ClockedEvent → Prop
  | .daemon e => ∀ r ∈ recorded s.daemon e, Accountable r.2.1 s.daemon.clock r.2.2
  | .setClock _ => True

instance (s : Logged κ V) : ∀ e, Decidable (RecordsAccountable s e)
  | .daemon e => inferInstanceAs (Decidable (∀ r ∈ recorded s.daemon e, _))
  | .setClock _ => isTrue trivial

/-! ## One outcome -/

variable {log : List (Except String Status)} {st : JobState} {now : Time}

lemma accounted_none : Accounted [] .none :=
  ⟨rfl, by decide, by decide, rfl⟩

lemma failuresAtEnd_concat (log : List (Except String Status)) (outcome : Except String Status) :
    failuresAtEnd (log ++ [outcome]) = if hasFailed outcome then failuresAtEnd log + 1 else 0 := by
  rw [failuresAtEnd, List.rtakeWhile_concat]
  split_ifs with hfailed
  · rw [List.length_append, failuresAtEnd, List.length_singleton]
  · rfl

/-- A result starts the count again, so that it must not be one that is marked as failed. -/
lemma Accounted.update_ok_iff (log : List (Except String Status)) (st : JobState) (now : Time)
    (status : Status) :
    Accounted (log ++ [.ok status]) (st.update now (.ok status)) ↔
      Accountable st now (.ok status) := by
  have hcount := failuresAtEnd_concat log (.ok status)
  constructor
  · intro hafter
    refine ⟨?_, ?_⟩
    · -- the count has been taken back
      rintro rfl
      have hzero : (0 : ℤ) = failuresAtEnd (log ++ [.ok .failed]) := hafter.failures
      rw [hcount, if_pos (by rfl)] at hzero
      omega
    · have hlast : now = max now st.lastError := hafter.lastRun
      exact max_eq_left_iff.mp hlast.symm
  · rintro ⟨hstatus, hlate⟩
    have hfine : hasFailed (.ok status) = false := by simpa [hasFailed] using hstatus
    rw [hfine, if_neg Bool.false_ne_true] at hcount
    refine ⟨?_, ?_, ?_, ?_⟩
    · rw [hcount]
      rfl
    · show some status = some .failed ↔ (0 : ℤ) < 0
      simpa using hstatus
    · show "" = "" ↔ (0 : ℤ) = 0
      simp
    · show now = max now st.lastError
      exact (max_eq_left hlate).symm

/-- An error goes on with the count, and its text must not be empty. -/
lemma Accounted.update_error_iff (h : Accounted log st) (now : Time) (msg : String) :
    Accounted (log ++ [.error msg]) (st.update now (.error msg)) ↔
      Accountable st now (.error msg) := by
  have hcount : failuresAtEnd (log ++ [.error msg]) = failuresAtEnd log + 1 := by
    rw [failuresAtEnd_concat, if_pos (by rfl)]
  have hnonneg : 0 ≤ st.consecutiveFailures := h.failures ▸ Int.natCast_nonneg _
  constructor
  · intro hafter
    refine ⟨?_, ?_⟩
    · rintro rfl
      have hzero : st.consecutiveFailures + 1 = 0 := hafter.message.mp rfl
      omega
    · have hlast : now = max st.lastSuccess now := hafter.lastRun
      exact max_eq_right_iff.mp hlast.symm
  · rintro ⟨hmsg, hlate⟩
    refine ⟨?_, ?_, ?_, ?_⟩
    · rw [hcount]
      show st.consecutiveFailures + 1 = ((failuresAtEnd log + 1 : ℕ) : ℤ)
      rw [h.failures]
      rfl
    · show some Status.failed = some .failed ↔ 0 < st.consecutiveFailures + 1
      simp only [true_iff]
      omega
    · show msg = "" ↔ st.consecutiveFailures + 1 = 0
      refine iff_of_false hmsg ?_
      omega
    · show now = max st.lastSuccess now
      exact (max_eq_right hlate).symm

/-- A state that agrees with a log still does after an outcome exactly when it can account
for it. -/
lemma Accounted.update_iff (h : Accounted log st) (now : Time) (outcome : Except String Status) :
    Accounted (log ++ [outcome]) (st.update now outcome) ↔ Accountable st now outcome := by
  cases outcome with
  | ok status => exact Accounted.update_ok_iff log st now status
  | error msg => exact h.update_error_iff now msg

/-! ## The steps -/

variable {cron : CronLib κ} {codec : Codec JobState V} {s t : System κ V} {e : DaemonEvent}

/-- The move of a loop that records an outcome updates the state with it; every other one
leaves it as it is. -/
lemma state_of_loopMove {cancelled : Bool} {store store' : Option (BadgerStore V)} {pc pc' : Pc}
    {move : Move} {j j' : Job κ}
    (hmove : loopMove cron codec now cancelled store j pc move = some ((j', pc'), store')) :
    (∃ outcome, pc.outcome? = some outcome ∧ move = .go ∧ j'.state = j.state.update now outcome) ∨
      pc.outcome? = none ∧ j'.state = j.state := by
  cases loopMove_cases hmove with
  | save origin outcome => exact .inl ⟨outcome, rfl, rfl, rfl⟩
  | skip origin => cases origin <;> exact .inr ⟨rfl, rfl⟩
  | leave origin => cases origin <;> exact .inr ⟨rfl, rfl⟩
  | _ => exact .inr ⟨rfl, rfl⟩

/-- The states after a step: that of the job whose outcome is recorded is updated, and the
others are kept. -/
structure StatesAfter (codec : Codec JobState V) (s t : System κ V) (e : DaemonEvent) : Prop where
  memory : ∀ (id : ℕ) (j : Job κ), t.sched.objects[id]? = some j →
    j.state = loadState codec t.sched.stateStore j.cfg.name
  stored : ∀ name, loadState codec t.sched.stateStore name =
    match recorded s e with
    | some (job, st, outcome) =>
      if name = job then st.update s.clock outcome else loadState codec s.sched.stateStore name
    | none => loadState codec s.sched.stateStore name
  before : ∀ r ∈ recorded s e, r.2.1 = loadState codec s.sched.stateStore r.1

/-- A step that is no move of a loop records nothing and keeps the store. -/
lemma store_of_step (hstep : daemonStep cron codec s e = some t)
    (hother : ∀ i move, e ≠ .loop i move) :
    recorded s e = none ∧ t.sched.stateStore = s.sched.stateStore := by
  cases e with
  | loop i move => exact absurd rfl (hother i move)
  | addJob cfg =>
    refine ⟨rfl, ?_⟩
    obtain rfl | ⟨sched, hadd, rfl⟩ := step_addJob hstep
    · rfl
    · obtain ⟨spec, -, -, rfl⟩ := (Scheduler.addJob_eq_ok cron codec).mp hadd
      rfl
  | _ =>
    obtain rfl := Option.some.inj hstep
    exact ⟨rfl, rfl⟩

lemma statesAfter_step (h : Kept codec s) (hstep : daemonStep cron codec s e = some t) :
    StatesAfter codec s t e := by
  have hkept := kept_step h hstep
  have hmemory (id : ℕ) (j : Job κ) (hj : t.sched.objects[id]? = some j) :
      j.state = loadState codec t.sched.stateStore j.cfg.name := (hkept.known id j hj).2.state
  by_cases hloop : ∃ i move, e = .loop i move
  · obtain ⟨i, move, rfl⟩ := hloop
    obtain ⟨id, pc, j, j', pc', store, hl, hj, hmove, rfl⟩ := step_loop hstep
    have hknown := (h.known id j hj).2
    obtain ⟨b, hb⟩ := Option.isSome_iff_exists.mp h.store
    obtain ⟨-, hload⟩ := loadState_of_loopMove (hb ▸ hknown) (hb ▸ hmove)
    have hcfg := (loopMove_spec hmove).cfg
    rw [← hb] at hload
    rcases state_of_loopMove hmove with ⟨outcome, hpc, rfl, hstate⟩ | ⟨hpc, hstate⟩
    · -- the outcome is recorded, and the state is saved with it
      have hrecorded : recorded s (.loop i .go) = some (j.cfg.name, j.state, outcome) := by
        simp [recorded, hl, hj, hpc]
      refine ⟨hmemory, ?_, ?_⟩
      · intro name
        have hafter := hload name
        rw [hstate, hcfg] at hafter
        rw [hrecorded]
        exact hafter
      · rw [hrecorded]
        rintro r ⟨⟩
        exact hknown.state
    · have hrecorded : recorded s (.loop i move) = none := by
        cases move <;> simp [recorded, hl, hj, hpc]
      refine ⟨hmemory, ?_, ?_⟩
      · intro name
        have hafter := hload name
        rw [hrecorded]
        split_ifs at hafter with hsame
        · -- the state in memory is the one that is saved
          rw [hstate, hknown.state, ← hcfg, ← hsame] at hafter
          exact hafter
        · exact hafter
      · rw [hrecorded]
        rintro r ⟨⟩
  · have hother : ∀ i move, e ≠ .loop i move := fun i move he => hloop ⟨i, move, he⟩
    obtain ⟨hnone, hstore⟩ := store_of_step hstep hother
    refine ⟨hmemory, ?_, ?_⟩
    · intro name
      rw [hnone, hstore]
    · rw [hnone]
      intro r hr
      cases hr

/-- An outcome that is about to be recorded can be recorded. -/
lemma step_ne_none_of_recorded {r : String × JobState × Except String Status}
    (h : r ∈ recorded s e) : daemonStep cron codec s e ≠ none := by
  cases e with
  | loop i move =>
    cases move with
    | go =>
      obtain ⟨⟨id, pc⟩, hl, h⟩ := Option.bind_eq_some_iff.mp h
      obtain ⟨j, hj, h⟩ := Option.bind_eq_some_iff.mp h
      obtain ⟨outcome, hpc, -⟩ := Option.bind_eq_some_iff.mp h
      cases pc with
      | saving origin outcome => simp [daemonStep, step, hl, hj, loopMove]
      | _ => cases hpc
    | _ => cases h
  | _ => cases h

/-! ## Runs -/

lemma kept_loggedStep {s t : Logged κ V} {e : ClockedEvent} (h : Kept codec s.daemon)
    (hstep : loggedStep cron codec s e = some t) : Kept codec t.daemon := by
  cases e with
  | setClock now =>
    obtain rfl := Option.some.inj hstep
    exact ⟨h.valid, h.store, h.known, h.once⟩
  | daemon e =>
    obtain ⟨u, hu, rfl⟩ := Option.map_eq_some_iff.mp hstep
    exact kept_step h hu

lemma allAccounted_init {b : BadgerStore V} (hb : ∀ name, loadState codec (some b) name = .none)
    (clock : Time) : AllAccounted codec (.init b clock : Logged κ V) := by
  refine ⟨?_, ?_⟩
  · intro id j hj
    exact absurd (List.mem_of_getElem? hj) List.not_mem_nil
  · intro name
    have hnone : loadState codec (some b) name = .none := hb name
    exact hnone ▸ accounted_none

/-- A step keeps all accounts exactly when what it records is accountable. -/
lemma allAccounted_step_iff {s t : Logged κ V} {e : ClockedEvent} (hkept : Kept codec s.daemon)
    (h : AllAccounted codec s) (hstep : loggedStep cron codec s e = some t) :
    AllAccounted codec t ↔ RecordsAccountable s e := by
  cases e with
  | setClock now =>
    obtain rfl := Option.some.inj hstep
    exact iff_of_true ⟨h.memory, h.stored⟩ trivial
  | daemon e =>
    obtain ⟨u, hu, rfl⟩ := Option.map_eq_some_iff.mp hstep
    have hafter := statesAfter_step hkept hu
    have hstored : AllAccounted codec ⟨u, s.record e⟩ ↔
        ∀ name, Accounted (s.record e name) (loadState codec u.sched.stateStore name) := by
      refine ⟨AllAccounted.stored, fun hall => ⟨fun id j hj => ?_, hall⟩⟩
      show Accounted (s.record e j.cfg.name) j.state
      rw [hafter.memory id j hj]
      exact hall j.cfg.name
    rw [hstored]
    simp only [hafter.stored, Logged.record]
    cases hrecorded : recorded s.daemon e with
    | none =>
      refine iff_of_true h.stored ?_
      rintro r hr
      rw [hrecorded] at hr
      cases hr
    | some r =>
      obtain ⟨job, st, outcome⟩ := r
      have hbefore : st = loadState codec s.daemon.sched.stateStore job :=
        hafter.before _ hrecorded
      have hjob : Accounted (s.log job) st := hbefore ▸ h.stored job
      have hmeets : RecordsAccountable s (.daemon e) ↔ Accountable st s.daemon.clock outcome := by
        show (∀ r ∈ recorded s.daemon e, Accountable r.2.1 s.daemon.clock r.2.2) ↔ _
        rw [hrecorded]
        simp
      rw [hmeets, ← hjob.update_iff s.daemon.clock outcome]
      constructor
      · intro hall
        simpa using hall job
      · intro hupdate name
        dsimp only
        split_ifs with hname
        · exact hname ▸ hupdate
        · exact h.stored name

/-- **The states of the jobs agree with the outcomes of their executions** in every state of a
run exactly when every outcome is accountable when it is recorded. -/
theorem accounted_iff (cron : CronLib κ) {codec : Codec JobState V} {b : BadgerStore V}
    (hb : ∀ name, loadState codec (some b) name = .none) (clock : Time)
    (es : List ClockedEvent) :
    Always (loggedStep cron codec) (AllAccounted codec) (.init b clock) es ↔
      Meets (loggedStep cron codec) RecordsAccountable (.init b clock) es := by
  refine always_iff_meets (I := fun s => Kept codec s.daemon) ?_ ?_ ?_ (kept_init b clock)
    (allAccounted_init hb clock) es
  · exact fun s e t hkept _ hstep _ => kept_loggedStep hkept hstep
  · exact fun s e t hkept h hstep => allAccounted_step_iff hkept h hstep
  · intro s e _ hdead
    cases e with
    | setClock now => cases hdead
    | daemon e =>
      intro r hr
      rw [loggedStep, Option.map_eq_none_iff] at hdead
      exact absurd hdead (step_ne_none_of_recorded hr)

lemma loadState_empty (codec : Codec JobState V) (name : String) :
    loadState codec (some .empty) name = .none := by
  rw [loadState, BadgerStore.get]
  split_ifs
  · rfl
  · simp [BadgerStore.empty]

/-- The job is executed at the start. -/
def atStart (r : RunResult) : List ClockedEvent :=
  ([.addJob scan, .start, .loop 0 .go, .loop 0 .go, .loop 0 (.ran r), .loop 0 .go] :
    List DaemonEvent).map .daemon

/-- It is executed by its timer after a restart. -/
def afterRestart (r : RunResult) : List ClockedEvent :=
  ([.restart, .addJob scan, .start, .loop 0 .go, .tick (20 * millisecond).toNat, .loop 0 .fire,
    .loop 0 .go, .loop 0 (.ran r), .loop 0 .go] : List DaemonEvent).map .daemon

/-- A failure, and a result that is not one. -/
theorem accounted_afterRestart :
    Always (loggedStep noCron stateCodec) (AllAccounted stateCodec) (.init .empty unixEpoch)
      (atStart (.error "timeout") ++ afterRestart (.result .partially)) :=
  (accounted_iff noCron (loadState_empty stateCodec) unixEpoch _).mpr (by decide +kernel)

/-- A result that is marked as failed is saved as a failed status and as a success. -/
theorem not_accounted_failed :
    ¬ Always (loggedStep noCron stateCodec) (AllAccounted stateCodec) (.init .empty unixEpoch)
      (atStart (.result .failed)) := by
  intro hclaim
  have hrun : ∃ s ∈ run (loggedStep noCron stateCodec) (.init .empty unixEpoch)
      (atStart (.result .failed)),
      let saved := loadState stateCodec s.daemon.sched.stateStore "scan"
      saved.lastStatus = some .failed ∧ saved.consecutiveFailures = 0 ∧
        saved.lastSuccess = unixEpoch := by
    decide +kernel
  obtain ⟨s, hs, hstatus, hcount, -⟩ := hrun
  have haccounted := (hclaim.last hs).stored "scan"
  have hpositive := haccounted.status.mp hstatus
  rw [hcount] at hpositive
  exact absurd hpositive (lt_irrefl 0)

end Arcsent.Scheduling
