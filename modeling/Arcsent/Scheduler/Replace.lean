/-
# Replacing the jobs

`ReplaceJobs` stops the loops and empties the table before it looks at the first of the new
jobs, and adds them one by one until one is refused.  Nothing is put back then.
-/
import Mathlib.Data.List.Count
import Arcsent.Scheduler.Loops

namespace Arcsent.Scheduling

open Arcsent.Go Arcsent.Scanner Arcsent.Storage Arcsent.Lib

variable {κ V : Type}

/-- The loop has returned. -/
def Pc.hasExited : Pc → Bool
  | exited => true
  | _ => false

namespace Scheduler

/-- A loop is running: it has not returned and has not been told to stop. -/
def isRunning (s : Scheduler κ V) (l : Loop) : Bool :=
  !l.pc.hasExited && (s.objects[l.job]?).any fun j => !j.stopped

/-- The loops that are running. -/
def runningLoops (s : Scheduler κ V) : List ℕ :=
  (List.range s.loops.length).filter fun i => (s.loops[i]?).any s.isRunning

/-- The table has the jobs of a list, with the settings that `AddJob` completes, and each of
its objects has one running loop. -/
structure Serves (s : Scheduler κ V) (configs : List JobConfig) : Prop where
  jobs : (s.jobs.map fun e => (e.1, (s.objects[e.2]?).map Job.cfg)) =
    configs.map fun cfg => (cfg.name, some cfg.normalize)
  loops : ∀ id, (s.loops.countP fun l => s.isRunning l && l.job == id) =
    if id ∈ s.current then 1 else 0

end Scheduler

section Calls

variable (cron : CronLib κ) (codec : Codec JobState V)

/-- `ReplaceJobs` is all or nothing: after an error the table and the running loops are what
they were, and otherwise the table serves the new jobs.  The entries of the table are
compared as the objects they are. -/
def AllOrNothing (now : Time) (configs : List JobConfig) (s : Scheduler κ V) : Prop :=
  match s.replaceJobs cron codec now configs with
  | none => True
  | some (t, some _) => t.jobs = s.jobs ∧ t.runningLoops = s.runningLoops
  | some (t, none) => t.Serves configs

/-- Every job of the list is one that `AddJob` takes, and no name comes twice. -/
def Acceptable (configs : List JobConfig) : Prop :=
  (∀ cfg ∈ configs, ∃ spec, cfg.check cron = .ok spec) ∧ (configs.map JobConfig.name).Nodup

end Calls

/-! ## What is added -/

/-- The jobs of a list have been added to the table, none of them started. -/
structure Added (s t : Scheduler κ V) (configs : List JobConfig) (new : List (Job κ)) : Prop where
  objects : t.objects = s.objects ++ new
  cfg : new.map Job.cfg = configs.map JobConfig.normalize
  idle : ∀ j ∈ new, j.stopped = false ∧ j.started = false
  jobs : t.jobs = s.jobs ++ (configs.map JobConfig.name).zipIdx s.objects.length
  loops : t.loops = s.loops

section AddJobs

variable {cron : CronLib κ} {codec : Codec JobState V} {now : Time} {s t : Scheduler κ V}

lemma added_nil (s : Scheduler κ V) : Added s s [] [] :=
  ⟨by simp, rfl, by simp, by simp, rfl⟩

lemma Added.cons {u : Scheduler κ V} {cfg : JobConfig} {configs : List JobConfig}
    {new : List (Job κ)} (hadd : s.addJob cron codec now cfg = .ok t)
    (h : Added t u configs new) : ∃ j, Added s u (cfg :: configs) (j :: new) := by
  obtain ⟨spec, -, -, rfl⟩ := (Scheduler.addJob_eq_ok cron codec).mp hadd
  refine ⟨newJob cron codec s.stateStore cfg.normalize spec now, ?_, ?_, ?_, ?_, h.loops⟩
  · rw [h.objects, List.append_assoc, List.singleton_append]
  · rw [List.map_cons, List.map_cons, h.cfg]
    rfl
  · intro j hj
    rcases List.mem_cons.mp hj with rfl | hj
    · exact ⟨rfl, rfl⟩
    · exact h.idle j hj
  · rw [h.jobs, List.map_cons, List.zipIdx_cons, List.append_assoc, List.singleton_append,
      List.length_append, List.length_singleton]

variable (cron codec now) in
/-- Either all jobs are added, or those before the first one that is refused. -/
lemma addJobs_cases (configs : List JobConfig) (s : Scheduler κ V) :
    (∃ t new, s.addJobs cron codec now configs = (t, none) ∧ Added s t configs new ∧
      Acceptable cron configs ∧ ∀ cfg ∈ configs, cfg.name ∉ s.jobs.map Prod.fst) ∨
    ∃ good bad rest t new err, configs = good ++ bad :: rest ∧
      s.addJobs cron codec now configs = (t, some err) ∧ Added s t good new ∧
      (∀ cfg ∈ good, ∃ spec, cfg.check cron = .ok spec) ∧
      t.addJob cron codec now bad = .error err := by
  induction configs generalizing s with
  | nil => exact .inl ⟨s, [], rfl, added_nil s, ⟨by simp, by simp⟩, by simp⟩
  | cons cfg configs ih =>
    cases hadd : s.addJob cron codec now cfg with
    | error err =>
      exact .inr ⟨[], cfg, configs, s, [], err, rfl, by rw [Scheduler.addJobs, hadd], added_nil s,
        by simp, hadd⟩
    | ok u =>
      have haddJobs : s.addJobs cron codec now (cfg :: configs) =
          u.addJobs cron codec now configs := by
        rw [Scheduler.addJobs, hadd]
      rw [haddJobs]
      rcases ih u with ⟨t, new, ht, hnew, ⟨hok, hnodup⟩, hfree⟩ |
        ⟨good, bad, rest, t, new, err, hconfigs, ht, hnew, hok, herr⟩
      · obtain ⟨j, hj⟩ := hnew.cons hadd
        obtain ⟨spec, hcheck, hname, rfl⟩ := (Scheduler.addJob_eq_ok cron codec).mp hadd
        have hfree' : ∀ c ∈ configs, c.name ∉ s.jobs.map Prod.fst ∧ c.name ≠ cfg.name := by
          intro c hc
          simpa [not_or] using hfree c hc
        refine .inl ⟨t, j :: new, ht, hj, ⟨?_, ?_⟩, ?_⟩
        · rw [List.forall_mem_cons]
          exact ⟨⟨spec, hcheck⟩, hok⟩
        · rw [List.map_cons, List.nodup_cons]
          refine ⟨fun hmem => ?_, hnodup⟩
          obtain ⟨c, hc, hsame⟩ := List.mem_map.mp hmem
          exact (hfree' c hc).2 hsame
        · rw [List.forall_mem_cons]
          exact ⟨hname, fun c hc => (hfree' c hc).1⟩
      · obtain ⟨j, hj⟩ := hnew.cons hadd
        obtain ⟨spec, hcheck, -, -⟩ := (Scheduler.addJob_eq_ok cron codec).mp hadd
        refine .inr ⟨cfg :: good, bad, rest, t, j :: new, err, by rw [hconfigs]; rfl, ht, hj, ?_,
          herr⟩
        rw [List.forall_mem_cons]
        exact ⟨⟨spec, hcheck⟩, hok⟩

/-- After the jobs before the first refused one, the list is not acceptable. -/
lemma not_acceptable {good rest : List JobConfig} {bad : JobConfig} {new : List (Job κ)}
    {err : String} (hempty : s.jobs = []) (hnew : Added s t good new)
    (herr : t.addJob cron codec now bad = .error err) :
    ¬ Acceptable cron (good ++ bad :: rest) := by
  rintro ⟨hok, hnodup⟩
  rcases Scheduler.addJob_eq_error cron codec herr with hcheck | hname
  · obtain ⟨spec, hspec⟩ := hok bad (by simp)
    rw [hcheck] at hspec
    cases hspec
  · rw [hnew.jobs, hempty, List.nil_append, List.zipIdx_map_fst] at hname
    rw [List.map_append, List.map_cons, List.nodup_append] at hnodup
    exact hnodup.2.2 _ hname _ (List.mem_cons_self ..) rfl

end AddJobs

/-! ## The loops -/

section Loops

variable {s t : Scheduler κ V}

lemma runningLoops_eq_nil (h : ∀ l ∈ s.loops, s.isRunning l = false) : s.runningLoops = [] := by
  refine List.filter_eq_nil_iff.mpr fun i _ hi => ?_
  obtain ⟨l, hl, hrunning⟩ := (Option.any_eq_true ..).mp hi
  rw [h l (List.mem_of_getElem? hl)] at hrunning
  cases hrunning

/-- No loop of the cleared scheduler is running, whatever jobs are added to it. -/
lemma idle_of_clear {u : Scheduler κ V} (hvalid : s.Valid) (hclear : s.clear = some u)
    {configs : List JobConfig} {new : List (Job κ)} (hnew : Added u t configs new) {l : Loop}
    (hl : l ∈ u.loops) : ∃ j, t.objects[l.job]? = some j ∧ j.stopped = true := by
  obtain ⟨v, hv, rfl⟩ := Scheduler.clear_eq_some hclear
  obtain ⟨j, hj, hstopped⟩ := hvalid.stopped_of_stop hv hl
  refine ⟨j, ?_, hstopped⟩
  rw [hnew.objects, List.getElem?_append_left (List.getElem?_eq_some_iff.mp hj).1]
  exact hj

lemma not_isRunning {l : Loop} {j : Job κ} (hj : s.objects[l.job]? = some j)
    (hstopped : j.stopped = true) : s.isRunning l = false := by
  simp [Scheduler.isRunning, hj, hstopped]

/-- The objects of the table are those that were added. -/
lemma Added.current {u : Scheduler κ V} {configs : List JobConfig} {new : List (Job κ)}
    (hempty : u.jobs = []) (hnew : Added u t configs new) {id : ℕ} (hid : id ∈ t.current) :
    ∃ j ∈ new, t.objects[id]? = some j := by
  have hlength : new.length = configs.length := by
    rw [← List.length_map Job.cfg, hnew.cfg, List.length_map]
  rw [Scheduler.current, hnew.jobs, hempty, List.nil_append, List.zipIdx_map_snd,
    List.length_map, List.mem_range'_1] at hid
  obtain ⟨k, rfl⟩ := Nat.exists_eq_add_of_le hid.1
  have hk : k < new.length := by omega
  refine ⟨new[k], List.getElem_mem hk, ?_⟩
  rw [hnew.objects, List.getElem?_append_right (Nat.le_add_right ..), Nat.add_sub_cancel_left]
  exact List.getElem?_eq_getElem hk

/-- The table names the settings it was filled with, in their order. -/
lemma Added.table {u : Scheduler κ V} {configs : List JobConfig} {new : List (Job κ)}
    (hempty : u.jobs = []) (hnew : Added u t configs new) :
    (t.jobs.map fun e => (e.1, (t.objects[e.2]?).map Job.cfg)) =
      configs.map fun cfg => (cfg.name, some cfg.normalize) := by
  refine List.ext_getElem? fun i => ?_
  have hentry : (new[i]?).map Job.cfg = (configs[i]?).map JobConfig.normalize := by
    rw [← List.getElem?_map, ← List.getElem?_map, hnew.cfg]
  rw [hnew.jobs, hempty, List.nil_append, List.getElem?_map, List.getElem?_map,
    List.getElem?_zipIdx, List.getElem?_map, Option.map_map, Option.map_map, hnew.objects]
  cases hi : configs[i]? with
  | none => rfl
  | some cfg =>
    rw [hi] at hentry
    simpa [List.getElem?_append_right] using hentry

/-- Every object of the filled table is about to be started. -/
lemma Added.currentWhere {u : Scheduler κ V} {configs : List JobConfig} {new : List (Job κ)}
    (hempty : u.jobs = []) (hnew : Added u t configs new) :
    (t.currentWhere fun j => !j.started) = t.current := by
  refine List.filter_eq_self.mpr fun id hid => ?_
  obtain ⟨j, hj, hget⟩ := hnew.current hempty hid
  simp [hget, (hnew.idle j hj).2]

/-- The loops that run after the start are the new ones, one for each object of the table. -/
lemma Added.countP_start {u : Scheduler κ V} {configs : List JobConfig} {new : List (Job κ)}
    (hempty : u.jobs = []) (hnew : Added u t configs new)
    (hidle : ∀ l ∈ u.loops, ∃ j, t.objects[l.job]? = some j ∧ j.stopped = true) (id : ℕ) :
    t.start.loops.countP (fun l => t.start.isRunning l && l.job == id) = t.current.count id := by
  have hids := hnew.currentWhere hempty
  have hobjects (i : ℕ) : t.start.objects[i]? =
      (t.objects[i]?).map fun j => if i ∈ t.current then { j with started := true } else j := by
    rw [Scheduler.start]
    dsimp only
    rw [hids, Scheduler.change_getElem?]
  have hloops : t.start.loops = u.loops ++ t.current.map fun i => ⟨i, .top⟩ := by
    rw [Scheduler.start]
    dsimp only
    rw [hids, Scheduler.change_loops, hnew.loops]
  -- the old loops serve stopped objects, and starting does not revive them
  have hold : u.loops.countP (fun l => t.start.isRunning l && l.job == id) = 0 := by
    refine List.countP_eq_zero.mpr fun l hl hrunning => ?_
    obtain ⟨j, hj, hstopped⟩ := hidle l hl
    have hget := hobjects l.job
    rw [hj, Option.map_some] at hget
    rw [not_isRunning hget (by split_ifs <;> exact hstopped)] at hrunning
    cases hrunning
  rw [hloops, List.countP_append, List.countP_map, hold, Nat.zero_add, List.count]
  refine List.countP_congr fun i hi => ?_
  obtain ⟨j, hj, hget⟩ := hnew.current hempty hi
  have hrunning : t.start.isRunning ⟨i, .top⟩ = true := by
    simp [Scheduler.isRunning, Pc.hasExited, hobjects, hget, hi, (hnew.idle j hj).1]
  rw [Function.comp_apply, hrunning, Bool.true_and]

/-- The table that was filled and then started serves the jobs it was filled with. -/
lemma serves_start {u : Scheduler κ V} {configs : List JobConfig} {new : List (Job κ)}
    (hempty : u.jobs = []) (hnew : Added u t configs new) (hvalid : t.Valid)
    (hidle : ∀ l ∈ u.loops, ∃ j, t.objects[l.job]? = some j ∧ j.stopped = true) :
    t.start.Serves configs := by
  constructor
  · rw [← hnew.table hempty]
    refine List.map_congr_left fun e _ => ?_
    rw [← List.getElem?_map, ← List.getElem?_map, t.start_map_cfg]
  · intro id
    change _ = if id ∈ t.current then 1 else 0
    rw [hnew.countP_start hempty hidle, hvalid.current.count]

/-- An error leaves everything as it was only if there was nothing and the first job is the
one that is refused. -/
lemma unchanged_iff {u : Scheduler κ V} (hvalid : s.Valid) (hclear : s.clear = some u)
    {good : List JobConfig} {new : List (Job κ)} (hnew : Added u t good new) :
    t.jobs = s.jobs ∧ t.runningLoops = s.runningLoops ↔ s.jobs = [] ∧ good = [] := by
  have hu : u.jobs = [] ∧ u.objects.length = s.objects.length := by
    obtain ⟨v, hv, rfl⟩ := Scheduler.clear_eq_some hclear
    rw [Scheduler.stop_eq_some hv]
    exact ⟨rfl, Scheduler.change_length ..⟩
  have hjobs : t.jobs = (good.map JobConfig.name).zipIdx s.objects.length := by
    rw [hnew.jobs, hu.1, hu.2, List.nil_append]
  constructor
  · rintro ⟨hsame, -⟩
    rw [hjobs] at hsame
    cases good with
    | nil => exact ⟨hsame.symm, rfl⟩
    | cons cfg good =>
      -- the first new entry has a number that no old one has
      rw [List.map_cons, List.zipIdx_cons] at hsame
      have hmem : s.objects.length ∈ s.current :=
        List.mem_map.mpr ⟨(cfg.name, s.objects.length), hsame ▸ List.mem_cons_self, rfl⟩
      exact absurd (hvalid.lt_length hmem) (lt_irrefl _)
  · rintro ⟨hnone, rfl⟩
    refine ⟨hjobs.trans hnone.symm, ?_⟩
    rw [runningLoops_eq_nil, runningLoops_eq_nil]
    · intro l hl
      obtain ⟨j, hj, hor⟩ := hvalid.loop l hl
      refine not_isRunning hj (hor.resolve_right fun ⟨hcurrent, _⟩ => ?_)
      rw [Scheduler.current, hnone] at hcurrent
      cases hcurrent
    · intro l hl
      rw [hnew.loops] at hl
      obtain ⟨j, hj, hstopped⟩ := idle_of_clear hvalid hclear hnew hl
      exact not_isRunning hj hstopped

end Loops

/-! ## All or nothing -/

lemma valid_addJobs {cron : CronLib κ} {codec : Codec JobState V} {now : Time}
    (configs : List JobConfig) {s t : Scheduler κ V} (h : s.Valid) {err : Option String}
    (hadd : s.addJobs cron codec now configs = (t, err)) : t.Valid := by
  induction configs generalizing s with
  | nil =>
    obtain ⟨rfl, -⟩ := Prod.mk.inj hadd
    exact h
  | cons cfg configs ih =>
    rw [Scheduler.addJobs] at hadd
    split at hadd
    · obtain ⟨rfl, -⟩ := Prod.mk.inj hadd
      exact h
    · next u hu => exact ih (h.addJob cron codec hu) hadd

/-- **`ReplaceJobs` is all or nothing** in a state of the daemon exactly when it panics, when
all the jobs of the list are acceptable, or when there are no jobs to lose and the first job
of the list is refused. -/
theorem allOrNothing_iff (cron : CronLib κ) (codec : Codec JobState V)
    (stateStore : Option (BadgerStore V)) (clock : Time) (es : List Event) (s : System κ V)
    (hrun : run (step cron codec) (.init stateStore clock) es = some s) (now : Time)
    (configs : List JobConfig) :
    AllOrNothing cron codec now configs s.sched ↔
      s.sched.clear = none ∨ Acceptable cron configs ∨
      s.sched.jobs = [] ∧
        ∃ cfg rest, configs = cfg :: rest ∧ ∃ err, cfg.check cron = .error err := by
  have hvalid := valid_of_run hrun
  rw [AllOrNothing, Scheduler.replaceJobs]
  cases hclear : s.sched.clear with
  | none => simp
  | some u =>
    have hempty : u.jobs = [] := by
      obtain ⟨v, -, rfl⟩ := Scheduler.clear_eq_some hclear
      rfl
    rw [Option.map_some]
    rcases addJobs_cases cron codec now configs u with
      ⟨t, new, ht, hnew, hok, -⟩ | ⟨good, bad, rest, t, new, err, rfl, ht, hnew, hgood, herr⟩
    · rw [ht]
      have hserves : t.start.Serves configs :=
        serves_start hempty hnew (valid_addJobs configs (hvalid.clear hclear) ht)
          fun _ hl => idle_of_clear hvalid hclear hnew hl
      exact ⟨fun _ => .inr (.inl hok), fun _ => hserves⟩
    · rw [ht]
      have hnot : ¬ Acceptable cron (good ++ bad :: rest) := not_acceptable hempty hnew herr
      refine (unchanged_iff hvalid hclear hnew).trans ⟨?_, ?_⟩
      · rintro ⟨hnone, rfl⟩
        -- the first job cannot be refused for its name: the table is empty
        have hname : bad.name ∉ t.jobs.map Prod.fst := by
          rw [hnew.jobs, hempty]
          exact List.not_mem_nil
        have hcheck := (Scheduler.addJob_eq_error cron codec herr).resolve_right hname
        exact .inr (.inr ⟨hnone, bad, rest, rfl, err, hcheck⟩)
      · rintro (hpanic | hok | ⟨hnone, cfg, rest', hcons, err', hcheck⟩)
        · cases hpanic
        · exact absurd hok hnot
        · refine ⟨hnone, ?_⟩
          cases good with
          | nil => rfl
          | cons cfg' good =>
            obtain ⟨spec, hspec⟩ := hgood cfg' List.mem_cons_self
            rw [(List.cons.inj hcons).1, hcheck] at hspec
            cases hspec

/-- A running job is replaced by itself. -/
theorem allOrNothing_same : ∃ s ∈ run (step noCron stateCodec) (.init none unixEpoch)
    [.addJob scan, .start], s.sched.jobs = [("scan", 0)] ∧
      AllOrNothing noCron stateCodec unixEpoch [scan] s.sched := by
  have hrun : ∃ s ∈ run (step noCron stateCodec) (.init none unixEpoch) [.addJob scan, .start],
      s.sched.jobs = [("scan", 0)] := by decide +kernel
  obtain ⟨s, hs, hjobs⟩ := hrun
  have hok : Acceptable noCron [scan] :=
    ⟨by simpa using ⟨.interval (20 * millisecond) "20ms", by decide +kernel⟩, by simp⟩
  exact ⟨s, hs, hjobs, (allOrNothing_iff noCron stateCodec none unixEpoch _ s hs unixEpoch
    [scan]).mpr (.inr (.inl hok))⟩

/-- A job with a schedule that cannot be read. -/
def misspelt : JobConfig := { scan with schedule := "often" }

/-- The running job is lost when it is replaced by one that is refused. -/
theorem jobs_lost_when_refused :
    ¬ ∀ (es : List Event) (s : System Unit JobState) (now : Time) (configs : List JobConfig),
      run (step noCron stateCodec) (.init none unixEpoch) es = some s →
        AllOrNothing noCron stateCodec now configs s.sched := by
  intro hclaim
  have hrun : ∃ s ∈ run (step noCron stateCodec) (.init none unixEpoch) [.addJob scan, .start],
      ∃ r ∈ s.sched.replaceJobs noCron stateCodec unixEpoch [misspelt],
        r.2.isSome = true ∧ r.1.jobs ≠ s.sched.jobs := by decide +kernel
  obtain ⟨s, hs, ⟨t, err⟩, hr, herr, hlost⟩ := hrun
  obtain ⟨err, rfl⟩ := Option.isSome_iff_exists.mp herr
  have hall := hclaim _ s unixEpoch [misspelt] hs
  rw [AllOrNothing, Option.mem_def.mp hr] at hall
  exact hlost hall.1

end Arcsent.Scheduling
