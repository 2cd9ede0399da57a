/-
# Starting the jobs, and reloading them

The startup of `internal/daemon/runner.go` and its reload closure, as far as plugins and
jobs are concerned.  Every scanner entry of the configuration initialises the plugin that it
names, and then the enabled entries become jobs.  A job keeps the name of its plugin only:
the plugin itself, with its settings, is shared by all the jobs that name it.
-/
import Mathlib.Data.List.Induction
import Arcsent.Config.Validate
import Arcsent.Plugins.Init
import Arcsent.Scheduler.Loops

namespace Arcsent.Daemon

open Arcsent.Go Arcsent.Storage Arcsent.Scanner Arcsent.Plugins Arcsent.Scheduling Arcsent.Lib

/-- The job of a scanner entry. -/
def jobConfig (sc : ScannerConfig) : JobConfig where
  name := sc.name
  plugin := sc.plugin
  schedule := sc.schedule
  timeout := sc.timeoutDuration
  maxRetries := sc.maxRetries
  retryBackoff := sc.retryBackoffDuration
  retryMax := sc.retryMaxDuration
  allowOverlap := sc.allowOverlap
  runOnStart := sc.runOnStart

/-- The body of the loop that initialises the plugins; an error of `Init` is logged. -/
def initEntry (m : Manager) (sc : ScannerConfig) : Manager :=
  match m.get sc.plugin with
  | .error _ => m
  | .ok _ => m.initPlugin sc.plugin sc.config

variable {κ V : Type}

/-- The plugin that `runOnce` of the scheduler runs for a job. -/
def runOnce (m : Manager) (j : Job κ) : Except String Plugin := m.get j.cfg.plugin

/-- How far the startup or a reload has come: which entries are still to be gone through,
and all of them. -/
inductive Phase
  | initialising (startup : Bool) (left scanners : List ScannerConfig)
  | adding (startup : Bool) (left scanners : List ScannerConfig)
  /-- The jobs have been started. -/
  | running (scanners : List ScannerConfig)
  /-- `ReplaceJobs` has returned an error. -/
  | failed
deriving DecidableEq

/-- The daemon, with the entry that each job object was made for and, for the record only,
the entries by which plugins have been initialised. -/
structure Runner (κ V : Type) where
  manager : Manager
  sys : System κ V
  entries : List ScannerConfig
  initialised : List ScannerConfig
  phase : Phase

/-- A step of the daemon. -/
inductive Event
  /-- The startup or the reload goes on. -/
  | next
  | reload (c : Config)
  | tick (d : ℕ)
  | cancel
  | loop (i : ℕ) (move : Move)

/-- The daemon with a configuration, at the loop that initialises the plugins. -/
def Runner.init (c : Config) (stateStore : Option (BadgerStore V)) (clock : Time) : Runner κ V :=
  ⟨.new, .init stateStore clock, [], [], .initialising true c.scanners c.scanners⟩

variable (cron : CronLib κ) (codec : Codec JobState V)

/-- The startup or the reload goes on.  A job that is refused is logged at the startup and
ends `ReplaceJobs`. -/
def Runner.next (r : Runner κ V) : Option (Runner κ V) :=
  match r.phase with
  | .initialising startup (sc :: left) scanners =>
    some { r with
      manager := initEntry r.manager sc
      initialised := r.initialised ++ [sc]
      phase := .initialising startup left scanners }
  | .initialising true [] scanners => some { r with phase := .adding true scanners scanners }
  | .initialising false [] scanners => r.sys.sched.clear.map fun sched =>
    { r with sys := { r.sys with sched := sched }, phase := .adding false scanners scanners }
  | .adding startup (sc :: left) scanners =>
    if !sc.enabled then some { r with phase := .adding startup left scanners }
    else match r.sys.sched.addJob cron codec r.sys.clock (jobConfig sc) with
      | .ok sched =>
        some { r with
          sys := { r.sys with sched := sched }
          entries := r.entries ++ [sc]
          phase := .adding startup left scanners }
      | .error _ =>
        some { r with phase := if startup then .adding startup left scanners else .failed }
  | .adding _ [] scanners =>
    some { r with sys := { r.sys with sched := r.sys.sched.start }, phase := .running scanners }
  | .running _ => none
  | .failed => none

/-- A step of the daemon, run by the user `euid`. -/
def runnerStep (euid : ℕ) (r : Runner κ V) : Daemon.Event → Option (Runner κ V)
  | .next => r.next cron codec
  | .reload c =>
    match r.phase with
    | .running _ | .failed =>
      match c.validate euid with
      | .error _ => some r
      | .ok () => some { r with phase := .initialising false c.scanners c.scanners }
    | _ => none
  | .tick d => (step cron codec r.sys (.tick d)).map fun sys => { r with sys := sys }
  | .cancel => (step cron codec r.sys .cancel).map fun sys => { r with sys := sys }
  | .loop i move => (step cron codec r.sys (.loop i move)).map fun sys => { r with sys := sys }

/-! ## The entries that become jobs -/

/-- The entries that have become jobs, and the next entry. -/
def takeEntry (taken : List ScannerConfig) (sc : ScannerConfig) : List ScannerConfig :=
  if sc.enabled ∧ ((jobConfig sc).check cron).toOption.isSome ∧
      sc.name ∉ taken.map ScannerConfig.name then taken ++ [sc]
  else taken

/-- The entries that become jobs: the enabled ones that pass the checks of `AddJob` and
whose name is not taken by an earlier one. -/
def takenEntries (scanners : List ScannerConfig) : List ScannerConfig :=
  scanners.foldl (takeEntry cron) []

/-- The last entry that names a plugin. -/
def lastNaming (plugin : String) (scanners : List ScannerConfig) : Option ScannerConfig :=
  (scanners.filter fun sc => sc.plugin = plugin).getLast?

/-! ## What the loop over the entries does to the plugins -/

lemma lookup_initEntry (m : Manager) (sc : ScannerConfig) (name : String) :
    (initEntry m sc).plugins.lookup name = (m.plugins.lookup name).map fun p =>
      if name = sc.plugin then p.initialised sc.config else p := by
  rw [initEntry]
  cases hget : m.get sc.plugin with
  | error err =>
    have hnone : m.plugins.lookup sc.plugin = none := by
      rw [Option.eq_none_iff_forall_ne_some]
      intro p hp
      rw [Manager.get_eq_ok.mpr hp] at hget
      cases hget
    by_cases hname : name = sc.plugin
    · rw [hname, hnone]
      rfl
    · simp [hname]
  | ok p => exact m.lookup_initPlugin sc.plugin sc.config name

lemma alike_initEntry {m n : Manager} (h : m.Alike n) (sc : ScannerConfig) :
    (initEntry m sc).Alike n := by
  rw [initEntry]
  split
  · exact h
  · exact h.initPlugin sc.plugin sc.config

lemma lastNaming_concat (plugin : String) (scanners : List ScannerConfig) (sc : ScannerConfig) :
    lastNaming plugin (scanners ++ [sc]) =
      if plugin = sc.plugin then some sc else lastNaming plugin scanners := by
  rw [lastNaming, lastNaming, List.filter_append]
  by_cases h : plugin = sc.plugin
  · simp [h]
  · simp [h, Ne.symm h]

/-- After the loop a plugin has the settings of the last entry that names it. -/
lemma lookup_initEntries (m : Manager) (scanners : List ScannerConfig) (name : String) :
    (scanners.foldl initEntry m).plugins.lookup name = (m.plugins.lookup name).map fun p =>
      (lastNaming name scanners).elim p fun sc => p.initialised sc.config := by
  induction scanners using List.reverseRecOn with
  | nil => simp [lastNaming]
  | append_singleton scanners sc ih =>
    rw [List.foldl_concat, lookup_initEntry, ih, Option.map_map, lastNaming_concat]
    refine congrArg (fun f => (m.plugins.lookup name).map f) (funext fun p => ?_)
    rw [Function.comp_apply]
    split_ifs
    · cases lastNaming name scanners <;> simp
    · rfl

lemma alike_initEntries {m n : Manager} (h : m.Alike n) (scanners : List ScannerConfig) :
    (scanners.foldl initEntry m).Alike n := by
  induction scanners generalizing m with
  | nil => exact h
  | cons sc scanners ih => exact ih (alike_initEntry h sc)

/-! ## The jobs and their entries -/

/-- The objects are those of the entries, in order. -/
def MadeFrom (r : Runner κ V) : Prop :=
  r.sys.sched.objects.map Job.cfg = r.entries.map fun sc => (jobConfig sc).normalize

/-- The table has a job for each of the entries, under its name. -/
def Filled (r : Runner κ V) (taken : List ScannerConfig) : Prop :=
  (r.sys.sched.jobs.map fun e => (e.1, r.entries[e.2]?)) = taken.map fun sc => (sc.name, some sc)

lemma Filled.names {r : Runner κ V} {taken : List ScannerConfig} (h : Filled r taken) :
    r.sys.sched.jobs.map Prod.fst = taken.map ScannerConfig.name := by
  have hnames := congrArg (List.map Prod.fst) h
  rw [List.map_map, List.map_map] at hnames
  exact hnames

lemma plugin_of_madeFrom {r : Runner κ V} (h : MadeFrom r) {id : ℕ} {j : Job κ}
    {sc : ScannerConfig} (hj : r.sys.sched.objects[id]? = some j)
    (hsc : r.entries[id]? = some sc) : j.cfg.plugin = sc.plugin := by
  have hcfg := congrArg (fun l => l[id]?) h
  rw [List.getElem?_map, List.getElem?_map, hj, hsc] at hcfg
  rw [Option.some.inj hcfg]
  rfl

lemma exists_object {r : Runner κ V} (h : MadeFrom r) {id : ℕ} {sc : ScannerConfig}
    (hsc : r.entries[id]? = some sc) : ∃ j, r.sys.sched.objects[id]? = some j := by
  have hlength : r.sys.sched.objects.length = r.entries.length := by
    simpa using congrArg List.length h
  have hid := (List.getElem?_eq_some_iff.mp hsc).1
  exact ⟨_, List.getElem?_eq_getElem (hlength ▸ hid)⟩

/-- The entries of the table are those that it was filled with. -/
lemma mem_taken_iff {r : Runner κ V} {taken : List ScannerConfig} (h : Filled r taken)
    {sc : ScannerConfig} :
    sc ∈ taken ↔ ∃ id ∈ r.sys.sched.current, r.entries[id]? = some sc := by
  constructor
  · intro hsc
    have hmem : (sc.name, some sc) ∈ r.sys.sched.jobs.map fun e => (e.1, r.entries[e.2]?) := by
      rw [h]
      exact List.mem_map_of_mem hsc
    obtain ⟨e, he, heq⟩ := List.mem_map.mp hmem
    exact ⟨e.2, List.mem_map_of_mem he, (Prod.mk.inj heq).2⟩
  · rintro ⟨id, hid, hsc⟩
    obtain ⟨e, he, rfl⟩ := List.mem_map.mp hid
    have hmem : (e.1, some sc) ∈ taken.map fun sc => (sc.name, some sc) := by
      rw [← h, ← hsc]
      exact List.mem_map_of_mem he
    obtain ⟨sc', hsc', heq⟩ := List.mem_map.mp hmem
    obtain rfl := Option.some.inj (Prod.mk.inj heq).2
    exact hsc'

/-- The job of an entry is added. -/
lemma filled_addJob {cron : CronLib κ} {codec : Codec JobState V} {r t : Runner κ V}
    {taken : List ScannerConfig} (h : Filled r taken) (hmade : MadeFrom r) {sc : ScannerConfig}
    {sched : Scheduler κ V} (hon : sc.enabled = true)
    (hadd : r.sys.sched.addJob cron codec r.sys.clock (jobConfig sc) = .ok sched)
    (hsched : t.sys.sched = sched) (hentries : t.entries = r.entries ++ [sc]) :
    MadeFrom t ∧ Filled t (takeEntry cron taken sc) := by
  obtain ⟨spec, hcheck, hname, rfl⟩ := (Scheduler.addJob_eq_ok cron codec).mp hadd
  have hlength : r.sys.sched.objects.length = r.entries.length := by
    simpa using congrArg List.length hmade
  have hnames := h.names
  constructor
  · rw [MadeFrom, hsched, hentries, List.map_append, List.map_append, hmade]
    rfl
  · have htake : takeEntry cron taken sc = taken ++ [sc] := by
      rw [takeEntry, if_pos]
      exact ⟨hon, by rw [hcheck]; rfl, hnames ▸ hname⟩
    -- the jobs that are there keep their entries, the new one has the last
    have hold : (r.sys.sched.jobs.map fun e => (e.1, (r.entries ++ [sc])[e.2]?)) =
        r.sys.sched.jobs.map fun e => (e.1, r.entries[e.2]?) := by
      refine List.map_congr_left fun e he => ?_
      have hmem : (e.1, r.entries[e.2]?) ∈ taken.map fun sc => (sc.name, some sc) :=
        h ▸ List.mem_map_of_mem he
      obtain ⟨sc', -, heq⟩ := List.mem_map.mp hmem
      have hsome := (Prod.mk.inj heq).2
      rw [List.getElem?_append_left (List.getElem?_eq_some_iff.mp hsome.symm).1]
    rw [Filled, hsched, hentries, htake, List.map_append, List.map_append, hold, h, hlength]
    simp [jobConfig]

/-- An entry that is refused is not taken. -/
lemma takeEntry_of_error {cron : CronLib κ} {codec : Codec JobState V} {r : Runner κ V}
    {taken : List ScannerConfig} (h : Filled r taken) {sc : ScannerConfig} {err : String}
    (hadd : r.sys.sched.addJob cron codec r.sys.clock (jobConfig sc) = .error err) :
    takeEntry cron taken sc = taken := by
  have hnames := h.names
  rw [takeEntry, if_neg]
  rintro ⟨-, hcheck, hname⟩
  rcases Scheduler.addJob_eq_error cron codec hadd with herr | hmem
  · simp [herr, Except.toOption] at hcheck
  · exact hname (hnames ▸ hmem)

/-- The plugins are as the loop over the entries has left them. -/
def InitialisedBy (m : Manager) (scanners : List ScannerConfig) : Prop :=
  ∃ m₀, m₀.Alike .new ∧ m = scanners.foldl initEntry m₀

/-- What holds in each phase. -/
def PhaseFits (r : Runner κ V) : Phase → Prop
  | .initialising startup left scanners =>
    (startup = true → r.sys.sched.jobs = []) ∧
      ∃ done, scanners = done ++ left ∧ InitialisedBy r.manager done
  | .adding _ left scanners =>
    InitialisedBy r.manager scanners ∧
      ∃ done, scanners = done ++ left ∧ Filled r (takenEntries cron done)
  | .running scanners =>
    InitialisedBy r.manager scanners ∧ Filled r (takenEntries cron scanners)
  | .failed => r.manager.Alike .new

/-- What holds of the daemon in every state. -/
def Fits (r : Runner κ V) : Prop := MadeFrom r ∧ PhaseFits cron r r.phase

lemma InitialisedBy.alike {m : Manager} {scanners : List ScannerConfig}
    (h : InitialisedBy m scanners) : m.Alike .new := by
  obtain ⟨m₀, halike, rfl⟩ := h
  exact alike_initEntries halike scanners

variable {cron codec}

lemma exists_lastNaming {sc : ScannerConfig} {scanners : List ScannerConfig} (h : sc ∈ scanners) :
    ∃ last, lastNaming sc.plugin scanners = some last := by
  have hmem : sc ∈ scanners.filter fun x => x.plugin = sc.plugin := by
    simpa [List.mem_filter] using h
  exact ⟨_, List.getLast?_eq_some_getLast (List.ne_nil_of_mem hmem)⟩

lemma mem_of_mem_takenEntries {sc : ScannerConfig} {scanners : List ScannerConfig}
    (h : sc ∈ takenEntries cron scanners) : sc ∈ scanners := by
  induction scanners using List.reverseRecOn with
  | nil => simp [takenEntries] at h
  | append_singleton scanners last ih =>
    rw [takenEntries, List.foldl_concat, takeEntry] at h
    split_ifs at h
    · rcases List.mem_append.mp h with h | h
      · exact List.mem_append_left _ (ih h)
      · exact List.mem_append_right _ h
    · exact List.mem_append_left _ (ih h)

/-! ## What a step keeps -/

lemma MadeFrom.congr {r t : Runner κ V} (h : MadeFrom r) (hentries : t.entries = r.entries)
    (hcfg : t.sys.sched.objects.map Job.cfg = r.sys.sched.objects.map Job.cfg) : MadeFrom t := by
  rw [MadeFrom, hcfg, hentries]
  exact h

lemma Filled.congr {r t : Runner κ V} {taken : List ScannerConfig} (h : Filled r taken)
    (hentries : t.entries = r.entries) (hjobs : t.sys.sched.jobs = r.sys.sched.jobs) :
    Filled t taken := by
  rw [Filled, hjobs, hentries]
  exact h

/-- The time, the loops and the cancellation change neither the table nor the settings of
the jobs. -/
lemma sys_step {s t : System κ V} {e : Scheduling.Event}
    (he : (∃ d, e = .tick d) ∨ e = .cancel ∨ ∃ i move, e = .loop i move)
    (hstep : step cron codec s e = some t) :
    t.sched.jobs = s.sched.jobs ∧ t.sched.objects.map Job.cfg = s.sched.objects.map Job.cfg := by
  rcases he with ⟨d, rfl⟩ | rfl | ⟨i, move, rfl⟩
  · obtain rfl := Option.some.inj hstep
    exact ⟨rfl, rfl⟩
  · obtain rfl := Option.some.inj hstep
    exact ⟨rfl, rfl⟩
  · obtain ⟨id, pc, j, j', pc', store, -, hj, hmove, rfl⟩ := step_loop hstep
    exact ⟨rfl, Scheduler.moved_map_cfg hj (loopMove_spec hmove)⟩

lemma takenEntries_concat (done : List ScannerConfig) (sc : ScannerConfig) :
    takenEntries cron (done ++ [sc]) = takeEntry cron (takenEntries cron done) sc :=
  List.foldl_concat ..

lemma takeEntry_of_disabled {sc : ScannerConfig} (hoff : sc.enabled = false)
    (taken : List ScannerConfig) : takeEntry cron taken sc = taken := by
  rw [takeEntry, if_neg]
  rintro ⟨hon, -⟩
  exact absurd (hoff.symm.trans hon) (by decide)

/-- Initialising the plugin of the next entry. -/
lemma fits_initEntry {r : Runner κ V} {startup : Bool} {sc : ScannerConfig}
    {left scanners : List ScannerConfig} (h : Fits cron r)
    (hp : r.phase = .initialising startup (sc :: left) scanners) :
    Fits cron { r with
      manager := initEntry r.manager sc
      initialised := r.initialised ++ [sc]
      phase := .initialising startup left scanners } := by
  obtain ⟨hmade, hphase⟩ := h
  rw [hp] at hphase
  obtain ⟨hnone, done, hscanners, m₀, halike, hmanager⟩ := hphase
  have hdone : scanners = (done ++ [sc]) ++ left := by
    rw [hscanners, List.append_assoc, List.singleton_append]
  refine ⟨hmade, hnone, done ++ [sc], hdone, m₀, halike, ?_⟩
  rw [List.foldl_concat, hmanager]

/-- Going from the plugins to the jobs, with an empty table. -/
lemma fits_adding {r : Runner κ V} {startup startup' : Bool} {scanners : List ScannerConfig}
    {sched : Scheduler κ V} (h : Fits cron r) (hp : r.phase = .initialising startup [] scanners)
    (hmap : sched.objects.map Job.cfg = r.sys.sched.objects.map Job.cfg)
    (hempty : sched.jobs = []) :
    Fits cron { r with
      sys := { r.sys with sched := sched }
      phase := .adding startup' scanners scanners } := by
  obtain ⟨hmade, hphase⟩ := h
  rw [hp] at hphase
  obtain ⟨-, done, hscanners, hinit⟩ := hphase
  rw [List.append_nil] at hscanners
  refine ⟨hmade.congr rfl hmap, hscanners ▸ hinit, [], rfl, ?_⟩
  rw [Filled, hempty]
  rfl

/-- Passing over an entry that does not become a job. -/
lemma fits_skip {r : Runner κ V} {startup : Bool} {sc : ScannerConfig}
    {left scanners : List ScannerConfig} (h : Fits cron r)
    (hp : r.phase = .adding startup (sc :: left) scanners)
    (hskip : ∀ taken, Filled r taken → takeEntry cron taken sc = taken) :
    Fits cron { r with phase := .adding startup left scanners } := by
  obtain ⟨hmade, hphase⟩ := h
  rw [hp] at hphase
  obtain ⟨hinit, done, hscanners, hfilled⟩ := hphase
  have hdone : scanners = (done ++ [sc]) ++ left := by
    rw [hscanners, List.append_assoc, List.singleton_append]
  refine ⟨hmade, hinit, done ++ [sc], hdone, ?_⟩
  rw [takenEntries_concat, hskip _ hfilled]
  exact hfilled

/-- Making a job of an entry. -/
lemma fits_addJob {r : Runner κ V} {startup : Bool} {sc : ScannerConfig}
    {left scanners : List ScannerConfig} {sched : Scheduler κ V} (h : Fits cron r)
    (hp : r.phase = .adding startup (sc :: left) scanners) (hon : sc.enabled = true)
    (hadd : r.sys.sched.addJob cron codec r.sys.clock (jobConfig sc) = .ok sched) :
    Fits cron { r with
      sys := { r.sys with sched := sched }
      entries := r.entries ++ [sc]
      phase := .adding startup left scanners } := by
  obtain ⟨hmade, hphase⟩ := h
  rw [hp] at hphase
  obtain ⟨hinit, done, hscanners, hfilled⟩ := hphase
  have hdone : scanners = (done ++ [sc]) ++ left := by
    rw [hscanners, List.append_assoc, List.singleton_append]
  obtain ⟨hmade', hfilled'⟩ := filled_addJob (t := { r with
    sys := { r.sys with sched := sched }
    entries := r.entries ++ [sc]
    phase := .adding startup left scanners }) hfilled hmade hon hadd rfl rfl
  refine ⟨hmade', hinit, done ++ [sc], hdone, ?_⟩
  rw [takenEntries_concat]
  exact hfilled'

lemma fits_next {r t : Runner κ V} (h : Fits cron r) (hnext : r.next cron codec = some t) :
    Fits cron t := by
  unfold Runner.next at hnext
  split at hnext
  · next startup sc left scanners hp =>
    obtain rfl := Option.some.inj hnext
    exact fits_initEntry h hp
  · next scanners hp =>
    obtain rfl := Option.some.inj hnext
    have hphase := h.2
    rw [hp] at hphase
    exact fits_adding h hp rfl (hphase.1 rfl)
  · next scanners hp =>
    -- the reload empties the table first
    obtain ⟨sched, hclear, rfl⟩ := Option.map_eq_some_iff.mp hnext
    obtain ⟨u, -, hu⟩ := Scheduler.clear_eq_some hclear
    exact fits_adding h hp (Scheduler.clear_map_cfg hclear) (congrArg Scheduler.jobs hu)
  · next startup sc left scanners hp =>
    split at hnext
    · next hoff =>
      obtain rfl := Option.some.inj hnext
      exact fits_skip h hp fun taken _ => takeEntry_of_disabled (by simpa using hoff) taken
    · next hon =>
      split at hnext
      · next sched hadd =>
        obtain rfl := Option.some.inj hnext
        exact fits_addJob h hp (by simpa using hon) hadd
      · next err hadd =>
        obtain rfl := Option.some.inj hnext
        cases startup with
        | true => exact fits_skip h hp fun _ hfilled => takeEntry_of_error hfilled hadd
        | false =>
          -- the reload gives up, and the plugins stay as they are
          obtain ⟨hmade, hphase⟩ := h
          rw [hp] at hphase
          exact ⟨hmade, hphase.1.alike⟩
  · next startup scanners hp =>
    obtain rfl := Option.some.inj hnext
    obtain ⟨hmade, hphase⟩ := h
    rw [hp] at hphase
    obtain ⟨hinit, done, hscanners, hfilled⟩ := hphase
    rw [List.append_nil] at hscanners
    exact ⟨hmade.congr rfl r.sys.sched.start_map_cfg, hinit, (hscanners ▸ hfilled).congr rfl rfl⟩
  · cases hnext
  · cases hnext

/-- A reload begins, or its configuration is not accepted. -/
lemma step_reload {euid : ℕ} {r t : Runner κ V} {c : Config}
    (hstep : runnerStep cron codec euid r (.reload c) = some t) :
    t = r ∨ t = { r with phase := .initialising false c.scanners c.scanners } ∧
      ((∃ scanners, r.phase = .running scanners) ∨ r.phase = .failed) := by
  rw [runnerStep] at hstep
  split at hstep
  · next scanners hp =>
    split at hstep
    · exact .inl (Option.some.inj hstep).symm
    · exact .inr ⟨(Option.some.inj hstep).symm, .inl ⟨scanners, hp⟩⟩
  · next hp =>
    split at hstep
    · exact .inl (Option.some.inj hstep).symm
    · exact .inr ⟨(Option.some.inj hstep).symm, .inr hp⟩
  · cases hstep

/-- A step of the scheduler keeps what holds of the daemon, and its phase. -/
lemma Fits.sys {r : Runner κ V} (h : Fits cron r) {sys : System κ V} {e : Scheduling.Event}
    (he : (∃ d, e = .tick d) ∨ e = .cancel ∨ ∃ i move, e = .loop i move)
    (hstep : step cron codec r.sys e = some sys) : Fits cron { r with sys := sys } := by
  obtain ⟨hmade, hphase⟩ := h
  obtain ⟨hjobs, hcfg⟩ := sys_step he hstep
  refine ⟨hmade.congr rfl hcfg, ?_⟩
  change PhaseFits cron _ r.phase
  cases hp : r.phase with
  | initialising startup left scanners =>
    rw [hp] at hphase
    exact ⟨fun hs => hjobs.trans (hphase.1 hs), hphase.2⟩
  | adding startup left scanners =>
    rw [hp] at hphase
    obtain ⟨hinit, done, hscanners, hfilled⟩ := hphase
    exact ⟨hinit, done, hscanners, hfilled.congr rfl hjobs⟩
  | running scanners =>
    rw [hp] at hphase
    exact ⟨hphase.1, hphase.2.congr rfl hjobs⟩
  | failed =>
    rw [hp] at hphase
    exact hphase

lemma fits_step {euid : ℕ} {r t : Runner κ V} {e : Daemon.Event} (h : Fits cron r)
    (hstep : runnerStep cron codec euid r e = some t) : Fits cron t := by
  cases e with
  | next => exact fits_next h hstep
  | reload c =>
    obtain rfl | ⟨rfl, hphase⟩ := step_reload hstep
    · exact h
    · have halike : r.manager.Alike .new := by
        obtain ⟨-, hfits⟩ := h
        rcases hphase with ⟨scanners, hp⟩ | hp <;> rw [hp] at hfits
        · exact hfits.1.alike
        · exact hfits
      exact ⟨h.1, nofun, [], rfl, r.manager, halike, rfl⟩
  | tick d =>
    rw [runnerStep] at hstep
    obtain ⟨sys, hsys, rfl⟩ := Option.map_eq_some_iff.mp hstep
    exact h.sys (.inl ⟨d, rfl⟩) hsys
  | cancel =>
    rw [runnerStep] at hstep
    obtain ⟨sys, hsys, rfl⟩ := Option.map_eq_some_iff.mp hstep
    exact h.sys (.inr (.inl rfl)) hsys
  | loop i move =>
    rw [runnerStep] at hstep
    obtain ⟨sys, hsys, rfl⟩ := Option.map_eq_some_iff.mp hstep
    exact h.sys (.inr (.inr ⟨i, move, rfl⟩)) hsys

lemma fits_init (c : Config) (stateStore : Option (BadgerStore V)) (clock : Time) :
    Fits cron (Runner.init c stateStore clock : Runner κ V) :=
  ⟨rfl, fun _ => rfl, [], rfl, .new, fun _ => rfl, rfl⟩

/-! ## Two disks -/

/-- An entry that watches the disk of a path. -/
def diskEntry (name path : String) : ScannerConfig :=
  { name := name, plugin := "system.disk_usage", enabled := true, schedule := "5m", timeout := ""
    maxRetries := 0, retryBackoff := "", retryMax := "", allowOverlap := false, runOnStart := true
    config := ⟨[("path", .string path)], by simp⟩ }

/-- The default configuration with two disks to watch. -/
def twoDisks : Config :=
  { Config.default with scanners := [diskEntry "root-disk" "/", diskEntry "data-disk" "/data"] }

end Arcsent.Daemon
