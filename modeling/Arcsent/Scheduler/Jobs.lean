/-
# The job table

The scheduler of `internal/scheduler/scheduler.go` keeps a table from names to job
objects.  A loop is started for a job object, not for a name: it runs on with its object
after the table has been replaced, until it sees that the object's stop channel is closed.
-/
import Mathlib.Data.List.Nodup
import Arcsent.Scheduler.Schedule
import Arcsent.Storage.Badger

namespace Arcsent.Scheduling

open Arcsent.Go Arcsent.Scanner Arcsent.Storage

/-- A job object.  The timer, the overlap flag and the saved state are its own. -/
structure Job (κ : Type) where
  cfg : JobConfig
  spec : ScheduleSpec κ
  /-- The channel `stop` has been closed. -/
  stopped : Bool
  running : Bool
  started : Bool
  state : JobState
  nextRun : Time

/-- Where an execution returns to: the start of the loop runs on to the timer, the timer
goes back to the start. -/
inductive Origin
  | startup
  | timer
deriving DecidableEq

/-- What a run of a plugin returns. -/
inductive RunResult
  | result (status : Status)
  | nilResult
  | error (msg : String)

/-- How far the loop of a job has come. -/
inductive Pc
  /-- At the start of the loop. -/
  | top
  /-- Waiting for the timer, which fires at a time. -/
  | armed (deadline : Time)
  /-- In `executeJob`, before the overlap check. -/
  | entering (origin : Origin)
  /-- The plugin is running. -/
  | attempt (origin : Origin) (n : ℕ)
  /-- Sleeping until the next attempt. -/
  | backoff (origin : Origin) (n : ℕ) (deadline : Time)
  /-- Before the state of the job is updated. -/
  | saving (origin : Origin) (outcome : Except String Status)
  /-- After that, until `executeJob` returns. -/
  | leaving (origin : Origin)
  | exited

/-- The loop is between the overlap check and the end of `executeJob`. -/
def Pc.executing : Pc → Bool
  | attempt _ _ => true
  | backoff _ _ _ => true
  | saving _ _ => true
  | leaving _ => true
  | _ => false

/-- The loop is about to execute its job. -/
def Pc.isEntering : Pc → Bool
  | entering _ => true
  | _ => false

/-- The plugin of the job is running. -/
def Pc.inAttempt : Pc → Bool
  | attempt _ _ => true
  | _ => false

/-- A goroutine that runs `runJob`. -/
structure Loop where
  /-- The job object, by its number. -/
  job : ℕ
  pc : Pc

/-- The scheduler with its goroutines. -/
structure Scheduler (κ V : Type) where
  /-- All job objects made so far. -/
  objects : List (Job κ)
  /-- The map `jobs`. -/
  jobs : List (String × ℕ)
  loops : List Loop
  /-- The store for job states, if there is one. -/
  stateStore : Option (BadgerStore V)

variable {κ V : Type}

/-- The function `New`, with the state store set. -/
def Scheduler.new (stateStore : Option (BadgerStore V)) : Scheduler κ V := ⟨[], [], [], stateStore⟩

variable (cron : CronLib κ) (codec : Codec JobState V)

def stateBucket : Bytes := bytes "scheduler_state"

/-- The state saved for a name; none of the errors on the way is reported. -/
def loadState (stateStore : Option (BadgerStore V)) (name : String) : JobState :=
  match stateStore with
  | none => .none
  | some s =>
    match s.get stateBucket (bytes name) with
    | .error _ => .none
    | .ok raw => ((codec.unmarshal raw).toOption).getD .none

/-- The method `computeNextRun`. -/
def Job.computeNextRun (j : Job κ) (now : Time) : Time :=
  match j.spec with
  | .interval interval _ =>
    if isZero j.state.lastRun = false ∧ j.state.lastRun + interval > now then
      j.state.lastRun + interval
    else j.spec.next cron now
  | .cron _ _ => j.spec.next cron now

/-- A job object as `AddJob` makes it. -/
def newJob (stateStore : Option (BadgerStore V)) (cfg : JobConfig) (spec : ScheduleSpec κ)
    (now : Time) : Job κ :=
  let j : Job κ :=
    { cfg := cfg, spec := spec, stopped := false, running := false, started := false
      state := loadState codec stateStore cfg.name, nextRun := 0 }
  { j with nextRun := j.computeNextRun cron now }

namespace Scheduler

/-- The method `AddJob`. -/
def addJob (s : Scheduler κ V) (now : Time) (cfg : JobConfig) : Except String (Scheduler κ V) :=
  match cfg.check cron with
  | .error err => .error err
  | .ok spec =>
    let cfg := cfg.normalize
    if cfg.name ∈ s.jobs.map Prod.fst then .error ("job " ++ quote cfg.name ++ " already exists")
    else .ok { s with
      objects := s.objects ++ [newJob cron codec s.stateStore cfg spec now]
      jobs := s.jobs ++ [(cfg.name, s.objects.length)] }

/-- The job objects in the table. -/
def current (s : Scheduler κ V) : List ℕ := s.jobs.map Prod.snd

/-- The objects in the table that a predicate holds of. -/
def currentWhere (s : Scheduler κ V) (p : Job κ → Bool) : List ℕ :=
  s.current.filter fun i => (s.objects[i]?).any p

/-- Change some of the job objects. -/
def change (s : Scheduler κ V) (ids : List ℕ) (f : Job κ → Job κ) : Scheduler κ V :=
  { s with objects := s.objects.mapIdx fun i j => if i ∈ ids then f j else j }

/-- The method `Start`. -/
def start (s : Scheduler κ V) : Scheduler κ V :=
  let ids := s.currentWhere fun j => !j.started
  let s := s.change ids fun j => { j with started := true }
  { s with loops := s.loops ++ ids.map fun i => ⟨i, .top⟩ }

/-- The method `Stop`.  Closing a channel that is closed already panics; there is no state
after that. -/
def stop (s : Scheduler κ V) : Option (Scheduler κ V) :=
  if s.currentWhere (fun j => j.started && j.stopped) = [] then
    some (s.change (s.currentWhere fun j => j.started) fun j =>
      { j with stopped := true, started := false })
  else none

/-- The first part of `ReplaceJobs`: the loops are told to stop and the table is emptied. -/
def clear (s : Scheduler κ V) : Option (Scheduler κ V) :=
  s.stop.map fun s => { s with jobs := [] }

/-- The second part of `ReplaceJobs`: the jobs are added one by one, until one is refused. -/
def addJobs (now : Time) : List JobConfig → Scheduler κ V → Scheduler κ V × Option String
  | [], s => (s, none)
  | cfg :: cfgs, s =>
    match s.addJob cron codec now cfg with
    | .error err => (s, some err)
    | .ok s => addJobs now cfgs s

/-- The method `ReplaceJobs`: nothing when it panics, and otherwise the state it leaves and
the error it returns. -/
def replaceJobs (now : Time) (configs : List JobConfig) (s : Scheduler κ V) :
    Option (Scheduler κ V × Option String) :=
  s.clear.map fun s =>
    match addJobs cron codec now configs s with
    | (s, some err) => (s, some err)
    | (s, none) => (s.start, none)

/-! ## What the operations do -/

section Changes

variable {s : Scheduler κ V}

@[simp] lemma change_jobs (ids : List ℕ) (f : Job κ → Job κ) : (s.change ids f).jobs = s.jobs := rfl

@[simp] lemma change_loops (ids : List ℕ) (f : Job κ → Job κ) :
    (s.change ids f).loops = s.loops := rfl

@[simp] lemma change_current (ids : List ℕ) (f : Job κ → Job κ) :
    (s.change ids f).current = s.current := rfl

@[simp] lemma change_length (ids : List ℕ) (f : Job κ → Job κ) :
    (s.change ids f).objects.length = s.objects.length := by simp [change]

lemma change_getElem? (ids : List ℕ) (f : Job κ → Job κ) (i : ℕ) :
    (s.change ids f).objects[i]? = (s.objects[i]?).map fun j => if i ∈ ids then f j else j := by
  simp [change]

/-- A change that keeps the settings of each object keeps the list of them. -/
lemma change_map_cfg (ids : List ℕ) {f : Job κ → Job κ} (hf : ∀ j, (f j).cfg = j.cfg) :
    (s.change ids f).objects.map Job.cfg = s.objects.map Job.cfg := by
  refine List.ext_getElem? fun i => ?_
  rw [List.getElem?_map, List.getElem?_map, change_getElem?, Option.map_map]
  refine congrArg (fun g => (s.objects[i]?).map g) (funext fun j => ?_)
  rw [Function.comp_apply]
  split_ifs
  · exact hf j
  · rfl

lemma start_map_cfg (s : Scheduler κ V) : s.start.objects.map Job.cfg = s.objects.map Job.cfg :=
  s.change_map_cfg (f := fun j => { j with started := true }) _ fun _ => rfl

/-- What `Start` does to the objects. -/
lemma start_getElem? (s : Scheduler κ V) (id : ℕ) :
    s.start.objects[id]? = (s.objects[id]?).map fun j =>
      if id ∈ s.currentWhere (fun j => !j.started) then { j with started := true } else j :=
  s.change_getElem? _ _ id

lemma mem_currentWhere {p : Job κ → Bool} {i : ℕ} :
    i ∈ s.currentWhere p ↔ i ∈ s.current ∧ ∃ j, s.objects[i]? = some j ∧ p j = true := by
  rw [currentWhere, List.mem_filter, Option.any_eq_true]

/-- `Stop` marks the started jobs of the table and changes nothing else. -/
lemma stop_eq_some {t : Scheduler κ V} (h : s.stop = some t) :
    t = s.change (s.currentWhere fun j => j.started) fun j =>
      { j with stopped := true, started := false } := by
  rw [stop] at h
  split_ifs at h
  exact (Option.some.inj h).symm

lemma stop_map_cfg {t : Scheduler κ V} (h : s.stop = some t) :
    t.objects.map Job.cfg = s.objects.map Job.cfg := by
  rw [stop_eq_some h]
  exact s.change_map_cfg _ fun _ => rfl

lemma clear_eq_some {t : Scheduler κ V} (h : s.clear = some t) :
    ∃ u, s.stop = some u ∧ t = { u with jobs := [] } := by
  obtain ⟨u, hu, rfl⟩ := Option.map_eq_some_iff.mp h
  exact ⟨u, hu, rfl⟩

lemma clear_map_cfg {t : Scheduler κ V} (h : s.clear = some t) :
    t.objects.map Job.cfg = s.objects.map Job.cfg := by
  obtain ⟨u, hu, rfl⟩ := clear_eq_some h
  have hmap : u.objects.map Job.cfg = s.objects.map Job.cfg := stop_map_cfg hu
  exact hmap

/-- `AddJob` adds a fresh object under its name, if the name is free. -/
lemma addJob_eq_ok {now : Time} {cfg : JobConfig} {t : Scheduler κ V} :
    s.addJob cron codec now cfg = .ok t ↔ ∃ spec, cfg.check cron = .ok spec ∧
      cfg.name ∉ s.jobs.map Prod.fst ∧ t = { s with
        objects := s.objects ++ [newJob cron codec s.stateStore cfg.normalize spec now]
        jobs := s.jobs ++ [(cfg.name, s.objects.length)] } := by
  have hname : cfg.normalize.name = cfg.name := rfl
  rw [addJob]
  cases cfg.check cron with
  | error err => simp
  | ok spec =>
    dsimp only
    rw [hname]
    split_ifs with hmem
    · simp [hmem]
    · constructor
      · intro h
        exact ⟨spec, rfl, hmem, (Except.ok.inj h).symm⟩
      · rintro ⟨spec', hspec, -, rfl⟩
        rw [Except.ok.inj hspec]

/-- A job is refused for its settings or for its name. -/
lemma addJob_eq_error {now : Time} {cfg : JobConfig} {err : String}
    (h : s.addJob cron codec now cfg = .error err) :
    cfg.check cron = .error err ∨ cfg.name ∈ s.jobs.map Prod.fst := by
  by_contra hnot
  obtain ⟨hcheck, hname⟩ := not_or.mp hnot
  cases hspec : cfg.check cron with
  | error err' =>
    rw [addJob, hspec] at h
    rw [Except.error.inj h] at hspec
    exact hcheck hspec
  | ok spec =>
    obtain ⟨u, hu⟩ : ∃ u, s.addJob cron codec now cfg = .ok u :=
      ⟨_, (addJob_eq_ok cron codec).mpr ⟨spec, hspec, hname, rfl⟩⟩
    rw [h] at hu
    cases hu

end Changes

/-! ## The invariant of the table -/

/-- What holds of the table and the loops in every state. -/
structure Valid (s : Scheduler κ V) : Prop where
  /-- A name occurs once, -/
  names : (s.jobs.map Prod.fst).Nodup
  /-- with the number of an object, -/
  object : ∀ e ∈ s.jobs, ∃ j, s.objects[e.2]? = some j ∧ j.cfg.name = e.1
  /-- which is in the table once. -/
  current : s.current.Nodup
  /-- A loop runs for an object, and either that is in the table and started, or its
  channel has been closed. -/
  loop : ∀ l ∈ s.loops, ∃ j, s.objects[l.job]? = some j ∧
    (j.stopped = true ∨ l.job ∈ s.current ∧ j.started = true)

lemma valid_new (stateStore : Option (BadgerStore V)) :
    Valid (Scheduler.new stateStore : Scheduler κ V) :=
  ⟨by simp [new], by simp [new], by simp [new, Scheduler.current], by simp [new]⟩

lemma Valid.lt_length {s : Scheduler κ V} (h : Valid s) {i : ℕ} (hi : i ∈ s.current) :
    i < s.objects.length := by
  obtain ⟨e, he, rfl⟩ := List.mem_map.mp hi
  obtain ⟨j, hj, -⟩ := h.object e he
  exact (List.getElem?_eq_some_iff.mp hj).1

/-- Two objects of the table with one name are one. -/
lemma Valid.eq_of_name {s : Scheduler κ V} (h : Valid s) {id id' : ℕ} {j j' : Job κ}
    (hid : id ∈ s.current) (hid' : id' ∈ s.current) (hj : s.objects[id]? = some j)
    (hj' : s.objects[id']? = some j') (hname : j.cfg.name = j'.cfg.name) : id = id' := by
  obtain ⟨e, he, rfl⟩ := List.mem_map.mp hid
  obtain ⟨e', he', rfl⟩ := List.mem_map.mp hid'
  obtain ⟨x, hx, hxe⟩ := h.object e he
  obtain ⟨x', hx', hxe'⟩ := h.object e' he'
  obtain rfl : j = x := Option.some.inj (hj.symm.trans hx)
  obtain rfl : j' = x' := Option.some.inj (hj'.symm.trans hx')
  have heq : e = e' := List.inj_on_of_nodup_map h.names he he' (by rw [← hxe, ← hxe', hname])
  rw [heq]

/-- Changes that keep the settings and the two marks keep the invariant. -/
lemma Valid.change {s : Scheduler κ V} (h : Valid s) (ids : List ℕ) {f : Job κ → Job κ}
    (hname : ∀ j, (f j).cfg.name = j.cfg.name)
    (hmarks : ∀ i ∈ ids, ∀ j, s.objects[i]? = some j → (j.stopped = true → (f j).stopped = true) ∧
      (j.started = true → (f j).stopped = true ∨ (f j).started = true)) :
    Valid (s.change ids f) := by
  refine ⟨h.names, fun e he => ?_, h.current, fun l hl => ?_⟩
  · obtain ⟨j, hj, hcfg⟩ := h.object e he
    refine ⟨_, by rw [change_getElem?, hj]; rfl, ?_⟩
    dsimp only
    split_ifs
    · rw [hname, hcfg]
    · exact hcfg
  · obtain ⟨j, hj, hor⟩ := h.loop l hl
    refine ⟨_, by rw [change_getElem?, hj]; rfl, ?_⟩
    dsimp only
    split_ifs with hi
    · obtain ⟨hstopped, hstarted⟩ := hmarks l.job hi j hj
      rcases hor with hs | ⟨hc, hs⟩
      · exact .inl (hstopped hs)
      · exact (hstarted hs).imp_right fun hs => ⟨hc, hs⟩
    · exact hor

lemma Valid.start {s : Scheduler κ V} (h : Valid s) : Valid s.start := by
  have hchange := h.change (s.currentWhere fun j => !j.started)
    (f := fun j => { j with started := true }) (fun _ => rfl) fun _ _ _ _ =>
    ⟨id, fun _ => .inr rfl⟩
  refine ⟨hchange.names, hchange.object, hchange.current, fun l hl => ?_⟩
  rcases List.mem_append.mp hl with hl | hl
  · exact hchange.loop l hl
  · obtain ⟨i, hi, rfl⟩ := List.mem_map.mp hl
    obtain ⟨hcur, j, hj, -⟩ := mem_currentWhere.mp hi
    refine ⟨{ j with started := true }, ?_, .inr ⟨hcur, rfl⟩⟩
    change (s.change _ _).objects[i]? = _
    rw [change_getElem?, hj]
    exact congrArg some (if_pos hi)

lemma Valid.stop {s t : Scheduler κ V} (h : Valid s) (hstop : s.stop = some t) : Valid t := by
  rw [stop_eq_some hstop]
  exact h.change _ (fun _ => rfl) fun _ _ _ _ => ⟨fun _ => rfl, fun _ => .inl rfl⟩

/-- After `Stop` every loop has been told to stop. -/
lemma Valid.stopped_of_stop {s t : Scheduler κ V} (h : Valid s) (hstop : s.stop = some t)
    {l : Loop} (hl : l ∈ t.loops) : ∃ j, t.objects[l.job]? = some j ∧ j.stopped = true := by
  obtain rfl := stop_eq_some hstop
  obtain ⟨j, hj, hor⟩ := h.loop l hl
  refine ⟨_, by rw [change_getElem?, hj]; rfl, ?_⟩
  dsimp only
  split_ifs with hi
  · rfl
  · refine hor.resolve_right fun ⟨hcur, hstarted⟩ => hi ?_
    exact mem_currentWhere.mpr ⟨hcur, j, hj, hstarted⟩

lemma Valid.clear {s t : Scheduler κ V} (h : Valid s) (hclear : s.clear = some t) : Valid t := by
  obtain ⟨u, hu, rfl⟩ := clear_eq_some hclear
  refine ⟨by simp, by simp, by simp [Scheduler.current], fun l hl => ?_⟩
  obtain ⟨j, hj, hstopped⟩ := h.stopped_of_stop hu hl
  exact ⟨j, hj, .inl hstopped⟩

lemma nodup_concat {α : Type} {l : List α} {a : α} (h : l.Nodup) (ha : a ∉ l) :
    (l ++ [a]).Nodup := by
  simpa using List.Nodup.concat ha h

lemma Valid.addJob {s t : Scheduler κ V} (h : Valid s) {now : Time} {cfg : JobConfig}
    (hadd : s.addJob cron codec now cfg = .ok t) : Valid t := by
  obtain ⟨spec, -, hname, rfl⟩ := (addJob_eq_ok cron codec).mp hadd
  have hold : ∀ {i : ℕ} {j : Job κ}, s.objects[i]? = some j →
      (s.objects ++ [newJob cron codec s.stateStore cfg.normalize spec now])[i]? = some j := by
    intro i j hj
    rw [List.getElem?_append_left (List.getElem?_eq_some_iff.mp hj).1, hj]
  refine ⟨?_, fun e he => ?_, ?_, fun l hl => ?_⟩
  · rw [List.map_append, List.map_singleton]
    exact nodup_concat h.names hname
  · rcases List.mem_append.mp he with he | he
    · obtain ⟨j, hj, hcfg⟩ := h.object e he
      exact ⟨j, hold hj, hcfg⟩
    · obtain rfl := List.mem_singleton.mp he
      exact ⟨_, List.getElem?_concat_length, rfl⟩
  · rw [Scheduler.current, List.map_append, List.map_singleton]
    exact nodup_concat h.current fun hmem => absurd (h.lt_length hmem) (lt_irrefl _)
  · obtain ⟨j, hj, hor⟩ := h.loop l hl
    refine ⟨j, hold hj, hor.imp_right fun ⟨hcur, hs⟩ => ⟨?_, hs⟩⟩
    rw [Scheduler.current, List.map_append]
    exact List.mem_append_left _ hcur

end Scheduler

end Arcsent.Scheduling
