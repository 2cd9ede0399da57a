/-
# Overlapping executions

The flag that keeps two executions of a job apart belongs to the job object.  It keeps the
loops of one object apart, whatever else goes on.  `ReplaceJobs` makes a new object for the
name while an execution of the old one may still be in progress: the stop channel of a job
is only looked at between two executions.  So the executions of a name are apart as long as
no execution of it outlives its place in the table.
-/
import Mathlib.Data.Finset.Card
import Arcsent.Scheduler.Loops

namespace Arcsent.Scheduling

open Arcsent.Go Arcsent.Scanner Arcsent.Storage Arcsent.Lib

variable {κ V : Type}

namespace Scheduler

/-- The loop `i` is executing the object `id`, which is `j`. -/
structure Executing (s : Scheduler κ V) (i id : ℕ) (j : Job κ) : Prop where
  loop : ∃ pc, s.loops[i]? = some ⟨id, pc⟩ ∧ pc.executing = true
  object : s.objects[id]? = some j

/-- The loops that are executing a job of a name. -/
def executions (s : Scheduler κ V) (name : String) : List ℕ :=
  (List.range s.loops.length).filter fun i => (s.loops[i]?).any fun l =>
    l.pc.executing && (s.objects[l.job]?).any fun j => j.cfg.name == name

lemma mem_executions {s : Scheduler κ V} {name : String} {i : ℕ} :
    i ∈ s.executions name ↔ ∃ id j, s.Executing i id j ∧ j.cfg.name = name := by
  simp only [executions, List.mem_filter, List.mem_range, Option.any_eq_true, Bool.and_eq_true,
    beq_iff_eq]
  constructor
  · rintro ⟨-, ⟨id, pc⟩, hl, hpc, j, hj, hname⟩
    exact ⟨id, j, ⟨⟨pc, hl, hpc⟩, hj⟩, hname⟩
  · rintro ⟨id, j, ⟨⟨pc, hl, hpc⟩, hj⟩, hname⟩
    exact ⟨(List.getElem?_eq_some_iff.mp hl).1, ⟨id, pc⟩, hl, hpc, j, hj, hname⟩

lemma nodup_executions (s : Scheduler κ V) (name : String) : (s.executions name).Nodup :=
  List.nodup_range.filter _

lemma Executing.unique {s : Scheduler κ V} {i id id' : ℕ} {j j' : Job κ}
    (h : s.Executing i id j) (h' : s.Executing i id' j') : id = id' ∧ j = j' := by
  obtain ⟨pc, hl, -⟩ := h.loop
  obtain ⟨pc', hl', -⟩ := h'.loop
  obtain rfl : id = id' := congrArg Loop.job (Option.some.inj (hl.symm.trans hl'))
  exact ⟨rfl, Option.some.inj (h.object.symm.trans h'.object)⟩

end Scheduler

/-- At most one execution of a job name is in progress. -/
def AtMostOne (name : String) (s : System κ V) : Prop := (s.sched.executions name).length ≤ 1

instance (name : String) (s : System κ V) : Decidable (AtMostOne name s) :=
  inferInstanceAs (Decidable (_ ≤ 1))

lemma atMostOne_iff {name : String} {s : System κ V} :
    AtMostOne name s ↔ ∀ i i' id id' j j', s.sched.Executing i id j → j.cfg.name = name →
      s.sched.Executing i' id' j' → j'.cfg.name = name → i = i' := by
  rw [AtMostOne, ← List.toFinset_card_of_nodup (s.sched.nodup_executions name),
    Finset.card_le_one]
  simp only [List.mem_toFinset, Scheduler.mem_executions]
  constructor
  · intro h i i' id id' j j' hi hj hi' hj'
    exact h i ⟨id, j, hi, hj⟩ i' ⟨id', j', hi', hj'⟩
  · rintro h i ⟨id, j, hi, hj⟩ i' ⟨id', j', hi', hj'⟩
    exact h i i' id id' j j' hi hj hi' hj'

/-! ## The flag of one object -/

namespace Scheduler

/-- What the calls that change the table leave alone: the settings and the flags of the
objects, and the executions. -/
structure Calls (s t : Scheduler κ V) : Prop where
  objects : ∀ (id : ℕ) (j : Job κ), s.objects[id]? = some j →
    ∃ j', t.objects[id]? = some j' ∧ j'.cfg = j.cfg ∧ j'.running = j.running
  loops : ∀ (i : ℕ) (l : Loop), t.loops[i]? = some l → l.pc.executing = true →
    s.loops[i]? = some l

lemma calls_change (s : Scheduler κ V) (ids : List ℕ) {f : Job κ → Job κ}
    (hcfg : ∀ j, (f j).cfg = j.cfg) (hrunning : ∀ j, (f j).running = j.running) :
    Calls s (s.change ids f) := by
  refine ⟨fun id j hj => ⟨_, by rw [change_getElem?, hj]; rfl, ?_, ?_⟩, fun i l hl _ => hl⟩ <;>
    dsimp only <;> split_ifs <;> simp [hcfg, hrunning]

lemma calls_start (s : Scheduler κ V) : Calls s s.start := by
  have hchange := s.calls_change (s.currentWhere fun j => !j.started)
    (f := fun j => { j with started := true }) (fun _ => rfl) fun _ => rfl
  refine ⟨hchange.objects, fun i l hl hexec => ?_⟩
  have happ : (s.loops ++ (s.currentWhere fun j => !j.started).map fun id => Loop.mk id .top)[i]? =
      some l := hl
  rw [List.getElem?_append] at happ
  split_ifs at happ
  · exact happ
  · obtain ⟨id, -, rfl⟩ := List.mem_map.mp (List.mem_of_getElem? happ)
    simp [Pc.executing] at hexec

lemma calls_stop {s t : Scheduler κ V} (h : s.stop = some t) : Calls s t := by
  rw [stop_eq_some h]
  exact s.calls_change _ (fun _ => rfl) fun _ => rfl

lemma calls_clear {s t : Scheduler κ V} (h : s.clear = some t) : Calls s t := by
  obtain ⟨u, hu, rfl⟩ := clear_eq_some h
  exact ⟨(calls_stop hu).objects, (calls_stop hu).loops⟩

lemma calls_addJob {cron : CronLib κ} {codec : Codec JobState V} {s t : Scheduler κ V}
    {now : Time} {cfg : JobConfig} (h : s.addJob cron codec now cfg = .ok t) : Calls s t := by
  obtain ⟨spec, -, -, rfl⟩ := (addJob_eq_ok cron codec).mp h
  refine ⟨fun id j hj => ⟨j, ?_, rfl, rfl⟩, fun i l hl _ => hl⟩
  rw [List.getElem?_append_left (List.getElem?_eq_some_iff.mp hj).1, hj]

/-- An execution after a call was in progress before it. -/
lemma Executing.of_calls {s t : Scheduler κ V} (hvalid : Valid s) (h : Calls s t) {i id : ℕ}
    {j : Job κ} (hexec : t.Executing i id j) :
    ∃ j', s.Executing i id j' ∧ j.cfg = j'.cfg ∧ j.running = j'.running := by
  obtain ⟨pc, hl, hpc⟩ := hexec.loop
  have hold := h.loops i ⟨id, pc⟩ hl hpc
  obtain ⟨j', hj', -⟩ := hvalid.loop _ (List.mem_of_getElem? hold)
  obtain ⟨j'', hj'', hcfg, hrunning⟩ := h.objects id j' hj'
  obtain rfl : j = j'' := Option.some.inj (hexec.object.symm.trans hj'')
  exact ⟨j', ⟨⟨pc, hold, hpc⟩, hj'⟩, hcfg, hrunning⟩

/-- The loops of an object that does not allow overlaps exclude each other. -/
structure Exclusive (s : Scheduler κ V) : Prop where
  /-- An execution has taken the flag, -/
  flag : ∀ i id j, s.Executing i id j → j.cfg.allowOverlap = false → j.running = true
  /-- and it is the only one of its object. -/
  once : ∀ i i' id j, s.Executing i id j → s.Executing i' id j → j.cfg.allowOverlap = false →
    i = i'

lemma Exclusive.of_calls {s t : Scheduler κ V} (hvalid : Valid s) (h : Exclusive s)
    (hcalls : Calls s t) : Exclusive t := by
  constructor
  · intro i id j hexec hno
    obtain ⟨j', hexec', hcfg, hrunning⟩ := hexec.of_calls hvalid hcalls
    rw [hrunning]
    exact h.flag i id j' hexec' (hcfg ▸ hno)
  · intro i i' id j hexec hexec' hno
    obtain ⟨j₁, hexec₁, hcfg, -⟩ := hexec.of_calls hvalid hcalls
    obtain ⟨j₂, hexec₂, -, -⟩ := hexec'.of_calls hvalid hcalls
    obtain rfl : j₁ = j₂ := Option.some.inj (hexec₁.object.symm.trans hexec₂.object)
    exact h.once i i' id j₁ hexec₁ hexec₂ (hcfg ▸ hno)

/-- The executions after a step of a loop. -/
lemma executing_moved {s : Scheduler κ V} {i id : ℕ} {pc pc' : Pc} {j j' : Job κ}
    {store : Option (BadgerStore V)} (hl : s.loops[i]? = some ⟨id, pc⟩)
    (hj : s.objects[id]? = some j) {k id' : ℕ} {x : Job κ} :
    (s.moved i id j' pc' store).Executing k id' x ↔
      (k = i ∧ id' = id ∧ x = j' ∧ pc'.executing = true) ∨
      (k ≠ i ∧ ∃ y, s.Executing k id' y ∧ x = if id' = id then j' else y) := by
  have hi := (List.getElem?_eq_some_iff.mp hl).1
  have hid := (List.getElem?_eq_some_iff.mp hj).1
  by_cases hk : k = i
  · subst hk
    constructor
    · rintro ⟨⟨pc₁, hloop, hpc₁⟩, hobject⟩
      change (s.loops.set k ⟨id, pc'⟩)[k]? = _ at hloop
      change (s.objects.set id j')[id']? = _ at hobject
      rw [List.getElem?_set_self hi] at hloop
      obtain ⟨rfl, rfl⟩ := Loop.mk.inj (Option.some.inj hloop)
      rw [List.getElem?_set_self hid] at hobject
      exact .inl ⟨rfl, rfl, (Option.some.inj hobject).symm, hpc₁⟩
    · rintro (⟨-, rfl, rfl, hpc'⟩ | ⟨hne, -⟩)
      · exact ⟨⟨pc', List.getElem?_set_self hi, hpc'⟩, List.getElem?_set_self hid⟩
      · exact absurd rfl hne
  · have hloops : (s.moved i id j' pc' store).loops[k]? = s.loops[k]? :=
      List.getElem?_set_ne (Ne.symm hk)
    have hobjects : (s.moved i id j' pc' store).objects[id']? = _ := moved_getElem? hj id'
    constructor
    · rintro ⟨⟨pc₁, hloop, hpc₁⟩, hobject⟩
      rw [hloops] at hloop
      rw [hobjects] at hobject
      obtain ⟨y, hy, rfl⟩ := Option.map_eq_some_iff.mp hobject
      exact .inr ⟨hk, y, ⟨⟨pc₁, hloop, hpc₁⟩, hy⟩, rfl⟩
    · rintro (⟨rfl, -⟩ | ⟨-, y, ⟨⟨pc₁, hloop, hpc₁⟩, hy⟩, rfl⟩)
      · exact absurd rfl hk
      · exact ⟨⟨pc₁, hloops ▸ hloop, hpc₁⟩, by rw [hobjects, hy]; rfl⟩

/-- A step of a loop keeps the executions of one object apart. -/
lemma Exclusive.moved {s : Scheduler κ V} (h : Exclusive s) {i id : ℕ} {pc pc' : Pc}
    {j j' : Job κ} {store : Option (BadgerStore V)} (hl : s.loops[i]? = some ⟨id, pc⟩)
    (hj : s.objects[id]? = some j) (hstep : LoopStep j j' pc pc') :
    Exclusive (s.moved i id j' pc' store) := by
  have hother {k : ℕ} {y : Job κ} (hk : k ≠ i) (hexec : s.Executing k id y)
      (hno : j.cfg.allowOverlap = false) :
      pc'.executing = false ∧ pc.executing = false ∧ j'.running = j.running ∧ j.running = true := by
    -- another loop executes the object, so this one neither executes it nor may start to
    obtain rfl : j = y := Option.some.inj (hj.symm.trans hexec.object)
    have hflag := h.flag k id j hexec hno
    have hpc : pc.executing = false := by
      by_contra hpc
      exact hk (h.once k i id j hexec ⟨⟨pc, hl, by simpa using hpc⟩, hj⟩ hno)
    rcases hstep.change with ⟨hsame, hrun⟩ | ⟨-, -, hstart⟩ | ⟨hend, -⟩
    · exact ⟨hsame.trans hpc, hpc, hrun, hflag⟩
    · rw [hflag] at hstart
      exact absurd (hstart hno).1 (by simp)
    · exact absurd (hend.symm.trans hpc) (by simp)
  constructor
  · intro k id' x hexec hno
    rcases (executing_moved hl hj).mp hexec with ⟨rfl, rfl, rfl, hpc'⟩ | ⟨hk, y, hy, rfl⟩
    · rw [hstep.cfg] at hno
      rcases hstep.change with ⟨hsame, hrun⟩ | ⟨-, -, hstart⟩ | ⟨-, hend⟩
      · rw [hrun]
        exact h.flag k id' j ⟨⟨pc, hl, hsame ▸ hpc'⟩, hj⟩ hno
      · exact (hstart hno).2
      · exact absurd (hpc'.symm.trans hend) (by simp)
    · split_ifs at hno ⊢ with hid
      · subst hid
        rw [hstep.cfg] at hno
        obtain ⟨-, -, hrun, hflag⟩ := hother hk hy hno
        exact hrun.trans hflag
      · exact h.flag k id' y hy hno
  · intro k k' id' x hexec hexec' hno
    rcases (executing_moved hl hj).mp hexec with ⟨rfl, rfl, rfl, hpc'⟩ | ⟨hk, y, hy, hx⟩ <;>
      rcases (executing_moved hl hj).mp hexec' with ⟨rfl, hid, hx', hpc''⟩ | ⟨hk', y', hy', hx'⟩
    · rfl
    · rw [hstep.cfg] at hno
      exact absurd (hpc'.symm.trans (hother hk' hy' hno).1) (by simp)
    · subst hid hx'
      rw [hstep.cfg] at hno
      exact absurd (hpc''.symm.trans (hother hk hy hno).1) (by simp)
    · obtain rfl : y = y' := Option.some.inj (hy.object.symm.trans hy'.object)
      refine h.once k k' id' y hy hy' ?_
      rw [hx] at hno
      split_ifs at hno with hid
      · subst hid
        obtain rfl : j = y := Option.some.inj (hj.symm.trans hy.object)
        exact hstep.cfg ▸ hno
      · exact hno

/-- The loop `i` is about to execute an object of a name that is not in the table. -/
def strays (s : Scheduler κ V) (name : String) (i : ℕ) : Bool :=
  (s.loops[i]?).any fun l =>
    l.pc.isEntering && decide (l.job ∉ s.current) &&
      (s.objects[l.job]?).any fun j => j.cfg.name == name && !j.running

end Scheduler

/-! ## All runs -/

/-- `ReplaceJobs` begins while no execution of the name is in progress, and no loop begins
to execute an object of the name that is not in the table any more. -/
def Calm (name : String) (s : System κ V) : Event → Prop
  | .clear => s.sched.executions name = []
  | .loop i _ => s.sched.strays name i = false
  | _ => True

instance (name : String) (s : System κ V) : ∀ e, Decidable (Calm name s e)
  | .clear => inferInstanceAs (Decidable (_ = _))
  | .loop _ _ => inferInstanceAs (Decidable (_ = _))
  | .tick _ => isTrue trivial
  | .cancel => isTrue trivial
  | .addJob _ => isTrue trivial
  | .start => isTrue trivial
  | .stop => isTrue trivial

/-- A job of the name that is added does not allow overlaps. -/
def Event.Protects (name : String) : Event → Prop
  | .addJob cfg => cfg.name = name → cfg.allowOverlap = false
  | _ => True

/-- What keeps the executions of a name apart. -/
structure Apart (name : String) (s : System κ V) : Prop where
  valid : s.sched.Valid
  exclusive : s.sched.Exclusive
  cfg : ∀ (id : ℕ) (j : Job κ), s.sched.objects[id]? = some j → j.cfg.name = name →
    j.cfg.allowOverlap = false
  /-- Only objects in the table are executed. -/
  current : ∀ i id j, s.sched.Executing i id j → j.cfg.name = name → id ∈ s.sched.current

lemma Apart.atMostOne {name : String} {s : System κ V} (h : Apart name s) : AtMostOne name s := by
  refine atMostOne_iff.mpr fun i i' id id' j j' hi hj hi' hj' => ?_
  obtain rfl : id = id' := h.valid.eq_of_name (h.current i id j hi hj) (h.current i' id' j' hi' hj')
    hi.object hi'.object (hj.trans hj'.symm)
  obtain rfl : j = j' := Option.some.inj (hi.object.symm.trans hi'.object)
  exact h.exclusive.once i i' id j hi hi' (h.cfg id j hi.object hj)

section Steps

variable {cron : CronLib κ} {codec : Codec JobState V} {name : String} {s t : System κ V}

/-- The jobs of the name still allow no overlaps when the settings are the same. -/
lemma Apart.cfg_of_map_eq (h : Apart name s)
    (hmap : t.sched.objects.map Job.cfg = s.sched.objects.map Job.cfg) (id : ℕ) (j : Job κ)
    (hj : t.sched.objects[id]? = some j) (hname : j.cfg.name = name) :
    j.cfg.allowOverlap = false := by
  have hget := congrArg (fun l => l[id]?) hmap
  rw [List.getElem?_map, List.getElem?_map, hj] at hget
  obtain ⟨j', hj', hcfg⟩ := Option.map_eq_some_iff.mp hget.symm
  rw [← hcfg] at hname ⊢
  exact h.cfg id j' hj' hname

/-- A call that drops no job from the table keeps the executions apart. -/
lemma Apart.of_calls (h : Apart name s) (hvalid : t.sched.Valid)
    (hcalls : s.sched.Calls t.sched)
    (hcfg : ∀ (id : ℕ) (j : Job κ), t.sched.objects[id]? = some j → j.cfg.name = name →
      j.cfg.allowOverlap = false)
    (hcurrent : ∀ id ∈ s.sched.current, id ∈ t.sched.current) : Apart name t := by
  refine ⟨hvalid, h.exclusive.of_calls h.valid hcalls, hcfg, fun i id j hexec hname => ?_⟩
  obtain ⟨j', hexec', heq, -⟩ := hexec.of_calls h.valid hcalls
  exact hcurrent id (h.current i id j' hexec' (heq ▸ hname))

lemma Apart.addJob (h : Apart name s) {cfg : JobConfig} {sched : Scheduler κ V}
    (hcfg : cfg.name = name → cfg.allowOverlap = false)
    (hadd : s.sched.addJob cron codec s.clock cfg = .ok sched) :
    Apart name { s with sched := sched } := by
  have hcalls := Scheduler.calls_addJob hadd
  refine h.of_calls (h.valid.addJob cron codec hadd) hcalls ?_ ?_ <;>
    obtain ⟨spec, -, -, rfl⟩ := (Scheduler.addJob_eq_ok cron codec).mp hadd
  · intro id j hj hname
    change (_ ++ _)[id]? = _ at hj
    rw [List.getElem?_append] at hj
    split_ifs at hj
    · exact h.cfg id j hj hname
    · obtain rfl := List.mem_singleton.mp (List.mem_of_getElem? hj)
      exact hcfg hname
  · intro id hid
    rw [Scheduler.current, List.map_append]
    exact List.mem_append_left _ hid

lemma Apart.clear (h : Apart name s) {sched : Scheduler κ V}
    (hcalm : s.sched.executions name = []) (hclear : s.sched.clear = some sched) :
    Apart name { s with sched := sched } := by
  have hcalls := Scheduler.calls_clear hclear
  have hmap := Scheduler.clear_map_cfg hclear
  refine ⟨h.valid.clear hclear, h.exclusive.of_calls h.valid hcalls,
    h.cfg_of_map_eq (t := { s with sched := sched }) hmap, fun i id j hexec hname => ?_⟩
  -- an execution after the call was in progress before it, and there was none
  obtain ⟨j', hexec', heq, -⟩ := hexec.of_calls h.valid hcalls
  have hmem := Scheduler.mem_executions.mpr ⟨id, j', hexec', heq ▸ hname⟩
  rw [hcalm] at hmem
  exact absurd hmem List.not_mem_nil

lemma Apart.loop (h : Apart name s) {i id : ℕ} {pc pc' : Pc} {j j' : Job κ}
    {store : Option (BadgerStore V)} (hcalm : s.sched.strays name i = false)
    (hl : s.sched.loops[i]? = some ⟨id, pc⟩) (hj : s.sched.objects[id]? = some j)
    (hstep : LoopStep j j' pc pc') :
    Apart name { s with sched := s.sched.moved i id j' pc' store } := by
  have hmap : (s.sched.moved i id j' pc' store).objects.map Job.cfg = s.sched.objects.map Job.cfg :=
    Scheduler.moved_map_cfg hj hstep
  refine ⟨h.valid.moved hl hj hstep, h.exclusive.moved hl hj hstep,
    h.cfg_of_map_eq (t := { s with sched := s.sched.moved i id j' pc' store }) hmap,
    fun k id' x hexec hname => ?_⟩
  rcases (Scheduler.executing_moved hl hj).mp hexec with ⟨rfl, rfl, rfl, hpc'⟩ | ⟨hk, y, hy, rfl⟩
  · rw [hstep.cfg] at hname
    change id' ∈ s.sched.current
    rcases hstep.change with ⟨hsame, -⟩ | ⟨⟨origin, rfl⟩, -, hstart⟩ | ⟨-, hend⟩
    · exact h.current k id' j ⟨⟨pc, hl, hsame ▸ hpc'⟩, hj⟩ hname
    · -- an execution that begins is not a stray one
      by_contra hstray
      have hrunning := (hstart (h.cfg id' j hj hname)).1
      have : s.sched.strays name k = true := by
        simp [Scheduler.strays, hl, hj, hname, hrunning, hstray, Pc.isEntering]
      rw [this] at hcalm
      exact absurd hcalm (by simp)
    · exact absurd (hpc'.symm.trans hend) (by simp)
  · refine h.current k id' y hy ?_
    split_ifs at hname with hid
    · subst hid
      obtain rfl : j = y := Option.some.inj (hj.symm.trans hy.object)
      exact hstep.cfg ▸ hname
    · exact hname

/-- Every step that meets the condition keeps the executions apart. -/
lemma apart_step {e : Event} (h : Apart name s) (hcalm : Calm name s e) (hcfg : e.Protects name)
    (hstep : step cron codec s e = some t) : Apart name t := by
  have hvalid := valid_step h.valid hstep
  cases e with
  | tick d =>
    obtain rfl := Option.some.inj hstep
    exact ⟨h.valid, h.exclusive, h.cfg, h.current⟩
  | cancel =>
    obtain rfl := Option.some.inj hstep
    exact ⟨h.valid, h.exclusive, h.cfg, h.current⟩
  | addJob cfg =>
    obtain rfl | ⟨sched, hadd, rfl⟩ := step_addJob hstep
    · exact h
    · exact h.addJob hcfg hadd
  | start =>
    obtain rfl := Option.some.inj hstep
    have hmap := s.sched.start_map_cfg
    exact h.of_calls hvalid s.sched.calls_start
      (h.cfg_of_map_eq (t := { s with sched := s.sched.start }) hmap) fun _ hid => hid
  | stop =>
    obtain ⟨sched, hstop, rfl⟩ := Option.map_eq_some_iff.mp hstep
    have hmap := Scheduler.stop_map_cfg hstop
    refine h.of_calls hvalid (Scheduler.calls_stop hstop)
      (h.cfg_of_map_eq (t := { s with sched := sched }) hmap) fun id hid => ?_
    obtain rfl := Scheduler.stop_eq_some hstop
    exact hid
  | clear =>
    obtain ⟨sched, hclear, rfl⟩ := Option.map_eq_some_iff.mp hstep
    exact h.clear hcalm hclear
  | loop i move =>
    obtain ⟨id, pc, j, j', pc', store, hl, hj, hmove, rfl⟩ := step_loop hstep
    exact h.loop hcalm hl hj (loopMove_spec hmove)

/-! ### A job that is replaced during an execution -/

/-- The loop `k` comes to execute its object, and disturbs no execution of another. -/
def ComesToExecute (cron : CronLib κ) (codec : Codec JobState V) (s : System κ V) (k n : ℕ)
    (cfg : JobConfig) : Prop :=
  ∃ es t, run (step cron codec) s es = some t ∧ (∀ e ∈ es, ∀ cfg, e ≠ .addJob cfg) ∧
    (∃ j, t.sched.Executing k n j ∧ j.cfg = cfg) ∧
    ∀ i id j, i ≠ k → id ≠ n → s.sched.Executing i id j → t.sched.Executing i id j

/-- A step of the loop leads to a state from which it comes to execute its object. -/
lemma ComesToExecute.step {k n : ℕ} {pc pc' : Pc} {j j' : Job κ} {cfg : JobConfig} {move : Move}
    {store : Option (BadgerStore V)} (hl : s.sched.loops[k]? = some ⟨n, pc⟩)
    (hj : s.sched.objects[n]? = some j)
    (hmove : loopMove cron codec s.clock s.cancelled s.sched.stateStore j pc move =
      some ((j', pc'), store))
    (h : ComesToExecute cron codec { s with sched := s.sched.moved k n j' pc' store } k n cfg) :
    ComesToExecute cron codec s k n cfg := by
  obtain ⟨es, t, hrun, hes, hexec, hothers⟩ := h
  refine ⟨.loop k move :: es, t, ?_, ?_, hexec, fun i id x hi hid hx => hothers i id x hi hid ?_⟩
  · rw [run_cons_eq_some]
    exact ⟨_, by simp [Scheduling.step, hl, hj, hmove], hrun⟩
  · rintro e (_ | ⟨_, he⟩) cfg
    · simp
    · exact hes e he cfg
  · exact (Scheduler.executing_moved hl hj).mpr (.inr ⟨hi, x, hx, by rw [if_neg hid]⟩)

/-- The overlap check lets the only loop of an object through. -/
lemma comesToExecute_of_entering {k n : ℕ} {origin : Origin} {j : Job κ}
    (hl : s.sched.loops[k]? = some ⟨n, .entering origin⟩) (hj : s.sched.objects[n]? = some j)
    (hno : j.cfg.allowOverlap = false) (hfree : j.running = false) :
    ComesToExecute cron codec s k n j.cfg := by
  refine ComesToExecute.step hl hj (by rw [loopMove, hno, hfree]; rfl)
    ⟨[], _, rfl, by simp, ⟨{ j with running := true }, ?_, rfl⟩, fun _ _ _ _ _ hx => hx⟩
  exact (Scheduler.executing_moved hl hj).mpr (.inl ⟨rfl, rfl, rfl, rfl⟩)

/-- A loop comes to execute its object by its timer. -/
lemma comesToExecute_of_armed {k n : ℕ} {deadline : Time} {j : Job κ}
    (hl : s.sched.loops[k]? = some ⟨n, .armed deadline⟩) (hj : s.sched.objects[n]? = some j)
    (hno : j.cfg.allowOverlap = false) (hfree : j.running = false) :
    ComesToExecute cron codec s k n j.cfg := by
  have hlate : deadline ≤ s.clock + ((deadline - s.clock).toNat : ℤ) :=
    sub_le_iff_le_add'.mp (Int.self_le_toNat (deadline - s.clock))
  have hfire : ComesToExecute cron codec
      { s with clock := s.clock + ((deadline - s.clock).toNat : ℤ) } k n j.cfg :=
    ComesToExecute.step hl hj
      (by rw [loopMove, if_pos hlate])
      (comesToExecute_of_entering (moved_loops_self hl) (moved_objects_self hj) hno hfree)
  obtain ⟨es, t, hrun, hes, hexec, hothers⟩ := hfire
  refine ⟨.tick (deadline - s.clock).toNat :: es, t, ?_, ?_, hexec, hothers⟩
  · rw [run_cons_eq_some]
    exact ⟨_, rfl, hrun⟩
  · rintro e (_ | ⟨_, he⟩) cfg
    · simp
    · exact hes e he cfg

lemma comesToExecute_of_top {k n : ℕ} {j : Job κ}
    (hl : s.sched.loops[k]? = some ⟨n, .top⟩) (hj : s.sched.objects[n]? = some j)
    (hno : j.cfg.allowOverlap = false) (hfree : j.running = false) :
    ComesToExecute cron codec s k n j.cfg := by
  by_cases hstart : j.cfg.runOnStart = true ∧ isZero j.state.lastRun = true
  · exact ComesToExecute.step hl hj (by rw [loopMove, if_pos hstart])
      (comesToExecute_of_entering (moved_loops_self hl) (moved_objects_self hj) hno hfree)
  · have hmove : loopMove cron codec s.clock s.cancelled s.sched.stateStore j .top .go =
        some (((j.arm cron s.clock).1, (j.arm cron s.clock).2), s.sched.stateStore) := by
      rw [loopMove, if_neg hstart]
    exact ComesToExecute.step hl hj hmove (comesToExecute_of_armed (j := (j.arm cron s.clock).1)
      (moved_loops_self hl) (moved_objects_self hj) hno hfree)

/-- The only job of a table, just added and started, is about to be executed by a new loop. -/
lemma start_singleton {s t : Scheduler κ V} {now : Time} {cfg : JobConfig}
    (hempty : s.jobs = []) (hadd : s.addJob cron codec now cfg = .ok t) :
    t.start.loops = s.loops ++ [⟨s.objects.length, .top⟩] ∧
    ∃ j, t.start.objects[s.objects.length]? = some j ∧ j.cfg = cfg.normalize ∧
      j.running = false := by
  obtain ⟨spec, -, -, rfl⟩ := (Scheduler.addJob_eq_ok cron codec).mp hadd
  set j := newJob cron codec s.stateStore cfg.normalize spec now with hj
  have hids : (Scheduler.currentWhere
      { s with
        objects := s.objects ++ [j]
        jobs := s.jobs ++ [(cfg.name, s.objects.length)] } fun j => !j.started) =
      [s.objects.length] := by
    simp [Scheduler.currentWhere, Scheduler.current, hempty, hj, newJob]
  refine ⟨?_, { j with started := true }, ?_, rfl, rfl⟩
  · rw [Scheduler.start]
    dsimp only
    rw [hids]
    rfl
  · rw [Scheduler.start]
    dsimp only
    rw [hids, Scheduler.change_getElem?]
    simp

/-- When `ReplaceJobs` begins during an execution of a name and keeps the name, two
executions of it may come to be in progress. -/
lemma overlap_of_clear {i id : ℕ} {j : Job κ} {cfg : JobConfig} {sched : Scheduler κ V}
    {spec : ScheduleSpec κ} (hexec : s.sched.Executing i id j)
    (hname : j.cfg.name = name) (hclear : s.sched.clear = some sched)
    (hcheck : cfg.check cron = .ok spec) (hcfg : cfg.name = name)
    (hno : cfg.allowOverlap = false) :
    ∃ es t, run (step cron codec) s (.clear :: .addJob cfg :: .start :: es) = some t ∧
      (∀ e ∈ es, ∀ cfg, e ≠ .addJob cfg) ∧ ¬ AtMostOne name t := by
  have hempty : sched.jobs = [] ∧ sched.loops = s.sched.loops := by
    obtain ⟨u, hu, rfl⟩ := Scheduler.clear_eq_some hclear
    rw [Scheduler.stop_eq_some hu]
    exact ⟨rfl, rfl⟩
  obtain ⟨added, hadd⟩ : ∃ added, sched.addJob cron codec s.clock cfg = .ok added :=
    ⟨_, (Scheduler.addJob_eq_ok cron codec).mpr ⟨spec, hcheck, by simp [hempty.1], rfl⟩⟩
  obtain ⟨hloops, new, hnew, hnewcfg, hfree⟩ := start_singleton hempty.1 hadd
  -- the old execution goes on, as that of another object by another loop
  obtain ⟨old, hold, holdcfg, hlt⟩ : ∃ old, added.start.objects[id]? = some old ∧
      old.cfg = j.cfg ∧ id < sched.objects.length := by
    obtain ⟨j₁, hj₁, hcfg₁, -⟩ := (Scheduler.calls_clear hclear).objects id j hexec.object
    obtain ⟨j₂, hj₂, hcfg₂, -⟩ := (Scheduler.calls_addJob hadd).objects id j₁ hj₁
    obtain ⟨j₃, hj₃, hcfg₃, -⟩ := added.calls_start.objects id j₂ hj₂
    exact ⟨j₃, hj₃, hcfg₃.trans (hcfg₂.trans hcfg₁), (List.getElem?_eq_some_iff.mp hj₁).1⟩
  obtain ⟨pc, hl, hpc⟩ := hexec.loop
  have hi := (List.getElem?_eq_some_iff.mp hl).1
  have hgoes : added.start.Executing i id old := by
    refine ⟨⟨pc, ?_, hpc⟩, hold⟩
    rw [hloops, hempty.2, List.getElem?_append_left hi, hl]
  -- the new loop comes to execute the new object
  have hcomes : ComesToExecute cron codec { s with sched := added.start } s.sched.loops.length
      sched.objects.length new.cfg := by
    refine comesToExecute_of_top ?_ hnew (by rw [hnewcfg]; exact hno) hfree
    rw [hloops, hempty.2]
    exact List.getElem?_concat_length
  obtain ⟨es, t, hrun, hes, ⟨j', hexec', hcfg'⟩, hothers⟩ := hcomes
  refine ⟨es, t, ?_, hes, fun hone => ?_⟩
  · rw [run_cons_eq_some]
    refine ⟨{ s with sched := sched }, by simp [step, hclear], ?_⟩
    rw [run_cons_eq_some]
    refine ⟨{ s with sched := added }, by simp [step, hadd], ?_⟩
    rw [run_cons_eq_some]
    exact ⟨_, rfl, hrun⟩
  · have hsame := atMostOne_iff.mp hone i _ id _ old j' (hothers i id old hi.ne hlt.ne hgoes)
      (holdcfg ▸ hname) hexec' (by rw [hcfg', hnewcfg]; exact hcfg)
    exact hi.ne hsame

end Steps

section Runs

variable (cron : CronLib κ) (codec : Codec JobState V)

/-- **Executions of a name do not overlap** in any run of the system in which `ReplaceJobs`
only begins while no execution of the name is in progress, and no loop executes an object
of the name that the table has lost.  Where `ReplaceJobs` does begin during an execution and
keeps the name, two executions can come to overlap. -/
theorem atMostOne_of_calm (name : String) (stateStore : Option (BadgerStore V)) (clock : Time)
    (es : List Event) (hcfg : ∀ e ∈ es, e.Protects name) :
    (Meets (step cron codec) (Calm name) (.init stateStore clock) es →
      Always (step cron codec) (AtMostOne name) (.init stateStore clock) es) ∧
    ∀ s sched cfg, run (step cron codec) (.init stateStore clock) es = some s →
      s.sched.executions name ≠ [] → s.sched.clear = some sched → cfg.name = name →
      cfg.allowOverlap = false → (∃ spec, cfg.check cron = .ok spec) →
      ∃ more t, run (step cron codec) s (.clear :: .addJob cfg :: .start :: more) = some t ∧
        (∀ e ∈ more, ∀ cfg, e ≠ .addJob cfg) ∧ ¬ AtMostOne name t := by
  constructor
  · intro hcalm
    have hinit : Apart name (System.init stateStore clock : System κ V) := by
      have hidle (i id : ℕ) (j : Job κ) :
          ¬ (System.init stateStore clock : System κ V).sched.Executing i id j := by
        rintro ⟨⟨pc, hl, -⟩, -⟩
        simp [System.init, Scheduler.new] at hl
      refine ⟨Scheduler.valid_new stateStore, ⟨?_, ?_⟩, ?_, ?_⟩
      · exact fun i id j hexec => absurd hexec (hidle i id j)
      · exact fun i _ id j hexec => absurd hexec (hidle i id j)
      · intro id j hj
        simp [System.init, Scheduler.new] at hj
      · exact fun i id j hexec => absurd hexec (hidle i id j)
    exact always_of_meets (C := fun s e => Calm name s e ∧ e.Protects name)
      (fun s e t h hC => apart_step h hC.1 hC.2) (fun _ h => h.atMostOne) hinit
      (meets_and hcalm (meets_of_forall_mem hcfg))
  · rintro s sched cfg - hne hclear hname hno ⟨spec, hcheck⟩
    obtain ⟨i, hi⟩ := List.exists_mem_of_ne_nil _ hne
    obtain ⟨id, j, hexec, hj⟩ := Scheduler.mem_executions.mp hi
    exact overlap_of_clear hexec hj hclear hcheck hname hno

end Runs

/-! ### A reload between two executions, and one during an execution -/

/-- The job is started and its loop begins to execute it. -/
def beginScan : List Event := [.addJob scan, .start, .loop 0 .go, .loop 0 .go]

/-- The execution ends, and then the jobs are replaced. -/
def calmReload : List Event :=
  beginScan ++ [.loop 0 (.ran (.result .success)), .loop 0 .go, .loop 0 .go, .clear,
    .loop 0 .halt, .addJob scan, .start, .loop 1 .go, .loop 1 .go]

/-- The jobs are replaced during the execution. -/
def hastyReload : List Event :=
  beginScan ++ [.clear, .addJob scan, .start, .loop 1 .go, .loop 1 .go]

/-- A reload between two executions keeps them apart, one during an execution need not. -/
theorem atMostOne_calmReload :
    Always (step noCron stateCodec) (AtMostOne "scan") (.init none unixEpoch) calmReload ∧
    ∃ s ∈ run (step noCron stateCodec) (.init none unixEpoch) beginScan,
      ∃ more t, run (step noCron stateCodec) s (.clear :: .addJob scan :: .start :: more) = some t ∧
        ¬ AtMostOne "scan" t := by
  have hprotects : ∀ es : List Event, (∀ cfg, .addJob cfg ∈ es → cfg = scan) →
      ∀ e ∈ es, e.Protects "scan" := by
    intro es hes e he
    cases e with
    | addJob cfg => exact fun _ => by rw [hes cfg he]; rfl
    | _ => trivial
  have hcalm := hprotects calmReload (by simp [calmReload, beginScan])
  have hbegin := hprotects beginScan (by simp [beginScan])
  refine ⟨(atMostOne_of_calm noCron stateCodec "scan" none unixEpoch calmReload hcalm).1
    (by decide +kernel), ?_⟩
  have hrun : ∃ s ∈ run (step noCron stateCodec) (.init none unixEpoch) beginScan,
      s.sched.executions "scan" ≠ [] ∧ s.sched.clear.isSome = true := by decide +kernel
  obtain ⟨s, hs, hne, hclear⟩ := hrun
  obtain ⟨sched, hsched⟩ := Option.isSome_iff_exists.mp hclear
  obtain ⟨more, t, hmore, -, hover⟩ :=
    (atMostOne_of_calm noCron stateCodec "scan" none unixEpoch beginScan hbegin).2 s sched scan hs
      hne hsched rfl rfl ⟨.interval (20 * millisecond) "20ms", by decide +kernel⟩
  exact ⟨s, hs, more, t, hmore, hover⟩

/-- The old execution is still in progress when the new one begins. -/
theorem executions_overlap_after_reload :
    ¬ ∀ (name : String) (es : List Event), (∀ e ∈ es, e.Protects name) →
      Always (step noCron stateCodec) (AtMostOne name) (.init none unixEpoch) es := by
  intro hclaim
  have hprotects : ∀ e ∈ hastyReload, e.Protects "scan" := by
    simp [hastyReload, beginScan, Event.Protects, scan]
  have hrun : ∃ s ∈ run (step noCron stateCodec) (.init none unixEpoch) hastyReload,
      ¬ AtMostOne "scan" s := by decide +kernel
  obtain ⟨s, hs, hover⟩ := hrun
  exact hover ((hclaim "scan" hastyReload hprotects).last hs)

end Arcsent.Scheduling
