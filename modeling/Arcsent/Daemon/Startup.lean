/-
# Which accepted scanners become jobs

`Validate` and `AddJob` check a scanner entry independently.  Of a schedule the first only
asks that it is not empty, and it never compares two names; the second parses the schedule
and refuses a name that is taken.
-/
import Arcsent.Daemon.Runner
import Arcsent.Scheduler.Replace

namespace Arcsent.Daemon

open Arcsent.Go Arcsent.Storage Arcsent.Scheduling

variable {κ V : Type} (cron : CronLib κ) (codec : Codec JobState V)

/-! ## The two loops that add jobs -/

/-- The jobs of the enabled entries, in their order. -/
def enabledJobs (c : Config) : List JobConfig :=
  (c.scanners.filter ScannerConfig.enabled).map jobConfig

/-- The loop of the startup: an error of `AddJob` is logged and the loop goes on.  Every
call reads the clock; the logged errors are returned. -/
def startJobs : (ℕ → Time) → List JobConfig → Scheduler κ V → Scheduler κ V × List String
  | _, [], s => (s, [])
  | clock, cfg :: cfgs, s =>
    match s.addJob cron codec (clock 0) cfg with
    | .error err =>
      let (s, errs) := startJobs (fun i => clock (i + 1)) cfgs s
      (s, err :: errs)
    | .ok s => startJobs (fun i => clock (i + 1)) cfgs s

/-- No enabled entry is left out: on a fresh scheduler neither the startup nor a reload is
refused any of the jobs, and the table has all their names. -/
structure NoneLeftOut (stateStore : Option (BadgerStore V)) (clock : ℕ → Time) (now : Time)
    (c : Config) : Prop where
  startup : (startJobs cron codec clock (enabledJobs c) (.new stateStore)).2 = []
  reload : ((Scheduler.new stateStore).addJobs cron codec now (enabledJobs c)).2 = none
  scheduled : ∀ sc ∈ c.scanners, sc.enabled = true →
    sc.name ∈ (startJobs cron codec clock (enabledJobs c) (.new stateStore)).1.jobs.map Prod.fst

/-- The schedules of the enabled entries are ones that the scheduler can read, and their
names are different. -/
structure Schedulable (c : Config) : Prop where
  schedules : ∀ sc ∈ c.scanners, sc.enabled = true →
    ∃ spec, parseSchedule cron sc.schedule = .ok spec
  names : ((c.scanners.filter ScannerConfig.enabled).map ScannerConfig.name).Nodup

variable {cron codec}

/-- What a call of `AddJob` that succeeds does to the names of the table. -/
lemma names_of_addJob {s t : Scheduler κ V} {now : Time} {cfg : JobConfig}
    (h : s.addJob cron codec now cfg = .ok t) :
    t.jobs.map Prod.fst = s.jobs.map Prod.fst ++ [cfg.name] := by
  obtain ⟨spec, -, -, rfl⟩ := (Scheduler.addJob_eq_ok cron codec).mp h
  simp

/-- The startup logs no error exactly when the jobs are acceptable and their names free. -/
lemma startJobs_eq_nil_iff (clock : ℕ → Time) (configs : List JobConfig) (s : Scheduler κ V) :
    (startJobs cron codec clock configs s).2 = [] ↔
      Acceptable cron configs ∧ ∀ cfg ∈ configs, cfg.name ∉ s.jobs.map Prod.fst := by
  induction configs generalizing clock s with
  | nil => simp [startJobs, Acceptable]
  | cons cfg configs ih =>
    rw [startJobs]
    cases hadd : s.addJob cron codec (clock 0) cfg with
    | error err =>
      refine iff_of_false (by simp) ?_
      rintro ⟨⟨hok, -⟩, hfree⟩
      obtain ⟨spec, hspec⟩ := hok cfg List.mem_cons_self
      rcases Scheduler.addJob_eq_error cron codec hadd with hcheck | hname
      · rw [hspec] at hcheck
        cases hcheck
      · exact hfree cfg List.mem_cons_self hname
    | ok t =>
      obtain ⟨spec, hcheck, hname, -⟩ := (Scheduler.addJob_eq_ok cron codec).mp hadd
      dsimp only
      rw [ih, names_of_addJob hadd]
      constructor
      · rintro ⟨⟨hok, hnodup⟩, hfree⟩
        have hother : ∀ c ∈ configs, c.name ∉ s.jobs.map Prod.fst ∧ c.name ≠ cfg.name := by
          intro c hc
          simpa [not_or] using hfree c hc
        refine ⟨⟨List.forall_mem_cons.mpr ⟨⟨spec, hcheck⟩, hok⟩, ?_⟩,
          List.forall_mem_cons.mpr ⟨hname, fun c hc => (hother c hc).1⟩⟩
        rw [List.map_cons, List.nodup_cons]
        refine ⟨fun hmem => ?_, hnodup⟩
        obtain ⟨c, hc, hsame⟩ := List.mem_map.mp hmem
        exact (hother c hc).2 hsame
      · rintro ⟨⟨hok, hnodup⟩, hfree⟩
        rw [List.map_cons, List.nodup_cons] at hnodup
        refine ⟨⟨fun c hc => hok c (List.mem_cons_of_mem _ hc), hnodup.2⟩, fun c hc hmem => ?_⟩
        rcases List.mem_append.mp hmem with hold | hnew
        · exact hfree c (List.mem_cons_of_mem _ hc) hold
        · exact hnodup.1 (List.mem_singleton.mp hnew ▸ List.mem_map_of_mem hc)

/-- The names of the jobs that the startup adds without an error. -/
lemma names_startJobs {clock : ℕ → Time} {configs : List JobConfig} {s : Scheduler κ V}
    (h : (startJobs cron codec clock configs s).2 = []) :
    (startJobs cron codec clock configs s).1.jobs.map Prod.fst
      = s.jobs.map Prod.fst ++ configs.map JobConfig.name := by
  induction configs generalizing clock s with
  | nil => simp [startJobs]
  | cons cfg configs ih =>
    rw [startJobs] at h ⊢
    cases hadd : s.addJob cron codec (clock 0) cfg with
    | error err => simp [hadd] at h
    | ok t =>
      rw [hadd] at h
      dsimp only at h ⊢
      rw [ih h, names_of_addJob hadd, List.append_assoc]
      rfl

/-- A reload into an empty table is refused no job exactly when the jobs are acceptable. -/
lemma addJobs_eq_none_iff (now : Time) (configs : List JobConfig) {s : Scheduler κ V}
    (hempty : s.jobs = []) :
    (s.addJobs cron codec now configs).2 = none ↔ Acceptable cron configs := by
  rcases addJobs_cases cron codec now configs s with
    ⟨t, new, ht, -, hok, -⟩ | ⟨good, bad, rest, t, new, err, rfl, ht, hnew, -, herr⟩
  · rw [ht]
    exact iff_of_true rfl hok
  · rw [ht]
    exact iff_of_false (by simp) (not_acceptable hempty hnew herr)

/-! ## What `Validate` promises -/

/-- An accepted entry has a name and a plugin. -/
lemma entry_of_validate {euid : ℕ} {c : Config} (h : c.validate euid = .ok ())
    {sc : ScannerConfig} (hsc : sc ∈ c.scanners) : sc.name ≠ "" ∧ sc.plugin ≠ "" := by
  rw [Config.validate_eq_ok] at h
  simp only [Config.validateErrors, List.append_eq_nil_iff] at h
  obtain ⟨⟨⟨⟨-, hscanners⟩, -⟩, -⟩, -⟩ := h
  obtain ⟨i, hi, rfl⟩ := List.getElem_of_mem hsc
  have hentry : ScannerConfig.errors i c.scanners[i] = [] := by
    refine List.flatten_eq_nil_iff.mp hscanners _ ?_
    exact List.mem_mapIdx.mpr ⟨i, hi, rfl⟩
  simp only [ScannerConfig.errors, List.append_eq_nil_iff, Config.failing_eq_nil] at hentry
  simpa using hentry.1.1.1.1

/-- For such an entry, `AddJob` only has the schedule left to check. -/
lemma check_jobConfig {sc : ScannerConfig} (hname : sc.name ≠ "") (hplugin : sc.plugin ≠ "") :
    (jobConfig sc).check cron = parseSchedule cron sc.schedule := by
  rw [JobConfig.check]
  exact (if_neg hname).trans (if_neg hplugin)

lemma acceptable_enabledJobs {euid : ℕ} {c : Config} (h : c.validate euid = .ok ()) :
    Acceptable cron (enabledJobs c) ↔ Schedulable cron c := by
  have hcheck : ∀ sc ∈ c.scanners, (jobConfig sc).check cron = parseSchedule cron sc.schedule :=
    fun sc hsc =>
      let hentry := entry_of_validate h hsc
      check_jobConfig hentry.1 hentry.2
  have hnames : (enabledJobs c).map JobConfig.name
      = (c.scanners.filter ScannerConfig.enabled).map ScannerConfig.name := by
    rw [enabledJobs, List.map_map]
    rfl
  rw [Acceptable, hnames]
  constructor
  · rintro ⟨hok, hnodup⟩
    refine ⟨fun sc hsc henabled => ?_, hnodup⟩
    rw [← hcheck sc hsc]
    exact hok _ (List.mem_map_of_mem (List.mem_filter.mpr ⟨hsc, henabled⟩))
  · rintro ⟨hok, hnodup⟩
    refine ⟨fun cfg hcfg => ?_, hnodup⟩
    obtain ⟨sc, hsc, rfl⟩ := List.mem_map.mp hcfg
    obtain ⟨hsc, henabled⟩ := List.mem_filter.mp hsc
    rw [hcheck sc hsc]
    exact hok sc hsc henabled

/-- **No enabled scanner of an accepted configuration is left out** exactly when the
scheduler can read all the schedules and no name comes twice. -/
theorem noneLeftOut_iff_schedulable (cron : CronLib κ) (codec : Codec JobState V)
    (stateStore : Option (BadgerStore V)) (clock : ℕ → Time) (now : Time) (euid : ℕ) (c : Config)
    (h : c.validate euid = .ok ()) :
    NoneLeftOut cron codec stateStore clock now c ↔ Schedulable cron c := by
  rw [← acceptable_enabledJobs h]
  constructor
  · intro hnone
    exact (addJobs_eq_none_iff now _ rfl).mp hnone.reload
  · intro hok
    have hstartup : (startJobs cron codec clock (enabledJobs c) (.new stateStore)).2 = [] :=
      (startJobs_eq_nil_iff clock _ _).mpr ⟨hok, by simp [Scheduler.new]⟩
    refine ⟨hstartup, (addJobs_eq_none_iff now _ rfl).mpr hok, fun sc hsc henabled => ?_⟩
    rw [names_startJobs hstartup, enabledJobs, List.map_map]
    exact List.mem_append_right _ (List.mem_map.mpr
      ⟨sc, List.mem_filter.mpr ⟨hsc, henabled⟩, rfl⟩)

/-- Two disks under different names are both scheduled. -/
theorem noneLeftOut_twoDisks :
    NoneLeftOut noCron stateCodec none (fun i => unixEpoch + i) unixEpoch twoDisks := by
  refine (noneLeftOut_iff_schedulable noCron stateCodec none _ unixEpoch 1000 twoDisks
    (by decide +kernel)).mpr ⟨fun sc hsc _ => ?_, by decide⟩
  have hparse : parseSchedule noCron "5m" = .ok (.interval (5 * minute) "5m") := by
    decide +kernel
  have hschedule : sc.schedule = "5m" := by
    revert sc
    decide
  exact ⟨_, hschedule ▸ hparse⟩

/-- The default configuration with a disk that is to be watched often. -/
def oftenDisk : Config :=
  { Config.default with scanners := [{ diskEntry "root-disk" "/" with schedule := "often" }] }

/-- A schedule that nobody can read is accepted, and the scanner never runs. -/
theorem unreadable_schedule_accepted :
    ¬ ∀ (c : Config) (stateStore : Option (BadgerStore JobState)) (clock : ℕ → Time)
      (now : Time), c.validate 1000 = .ok () →
      NoneLeftOut noCron stateCodec stateStore clock now c := by
  intro hclaim
  have hnone := hclaim oftenDisk none (fun _ => unixEpoch) unixEpoch (by decide +kernel)
  have herrs : (startJobs noCron stateCodec (fun _ => unixEpoch) (enabledJobs oftenDisk)
      (.new none)).2 ≠ [] := by decide +kernel
  exact herrs hnone.startup

end Arcsent.Daemon
