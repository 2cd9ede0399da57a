/-
# Whose settings a job runs with

A plugin is looked up anew for every attempt, and the one object of that name is initialised
again by every entry of the startup and of a reload, whether jobs that use it are executed
meanwhile or not.  An attempt therefore runs with the settings of the last entry that has
named its plugin.
-/
import Arcsent.Daemon.Runner

namespace Arcsent.Daemon

open Arcsent.Go Arcsent.Storage Arcsent.Scanner Arcsent.Plugins Arcsent.Scheduling Arcsent.Lib

variable {κ V : Type}

/-! ## The property -/

/-- The plugin that a job object runs has the settings that `Init` makes from the map of the
entry that the object was made for. -/
def HasOwnSettings (r : Runner κ V) (id : ℕ) : Prop :=
  ∀ j sc p, r.sys.sched.objects[id]? = some j → r.entries[id]? = some sc →
    runOnce r.manager j = .ok p → p = p.initialised sc.config

/-- Every attempt that is in progress runs a plugin with the settings of the job's own entry,
whatever the daemon does meanwhile and whether the job is still in the table or not. -/
def OwnSettings (r : Runner κ V) : Prop :=
  ∀ l ∈ r.sys.sched.loops, l.pc.inAttempt = true → HasOwnSettings r l.job

/-! ## The condition -/

/-- From the maps of two entries `Init` makes the same settings of the plugin that the first
one names. -/
def SameSettings (sc sc' : ScannerConfig) : Prop :=
  ∀ p ∈ Manager.new.plugins.lookup sc.plugin, p.initialised sc'.config = p.initialised sc.config

/-- Of the entries gone through so far, enabled or not, the last one that names the plugin of
a job has the settings of the job's own entry. -/
def LastNamesAlike (r : Runner κ V) (id : ℕ) : Prop :=
  ∀ own ∈ r.entries[id]?, ∀ last ∈ lastNaming own.plugin r.initialised, SameSettings own last

variable (cron : CronLib κ) (codec : Codec JobState V)

/-- The move of a loop begins an attempt of a job object, the first one or a further one. -/
def Begins (r : Runner κ V) (i : ℕ) (move : Move) (id : ℕ) : Prop :=
  ∃ t pc, step cron codec r.sys (.loop i move) = some t ∧ t.sched.loops[i]? = some ⟨id, pc⟩ ∧
    pc.inAttempt = true

/-- `Init` is called on a plugin only for an entry that has the settings of every job on that
plugin of which an attempt is in progress, and an attempt only begins when the last entry that
has named its plugin has the settings of its own. -/
def KeepsSettings (r : Runner κ V) : Daemon.Event → Prop
  | .next => ∀ startup sc left scanners, r.phase = .initialising startup (sc :: left) scanners →
      ∀ l ∈ r.sys.sched.loops, l.pc.inAttempt = true → ∀ own ∈ r.entries[l.job]?,
        own.plugin = sc.plugin → SameSettings own sc
  | .loop i move => ∀ id, Begins cron codec r i move id → LastNamesAlike r id
  | _ => True

/-- For every entry that becomes a job, the last entry that names its plugin, enabled or not,
has its settings. -/
def Undivided (scanners : List ScannerConfig) : Prop :=
  ∀ sc ∈ takenEntries cron scanners, ∀ last ∈ lastNaming sc.plugin scanners, SameSettings sc last

/-! ## What is known of the plugins -/

/-- The entries that are still to become jobs, if they are enabled. -/
def Phase.unadded : Phase → List ScannerConfig
  | .initialising _ _ scanners => scanners
  | .adding _ left _ => left
  | _ => []

/-- The entries that are still to be gone through. -/
def Phase.unnamed : Phase → List ScannerConfig
  | .initialising _ left _ => left
  | _ => []

/-- The plugins are those that the entries gone through have made, and no job is made for an
entry that has not been gone through. -/
structure Traced (r : Runner κ V) : Prop where
  valid : r.sys.sched.Valid
  made : MadeFrom r
  manager : r.manager = r.initialised.foldl initEntry .new
  entries : ∀ sc ∈ r.entries, sc ∈ r.initialised
  unadded : ∀ sc ∈ r.phase.unadded, sc ∈ r.initialised ∨ sc ∈ r.phase.unnamed

variable {cron codec} {r t : Runner κ V}

lemma traced_init (c : Config) (stateStore : Option (BadgerStore V)) (clock : Time) :
    Traced (Runner.init c stateStore clock : Runner κ V) :=
  ⟨Scheduler.valid_new stateStore, rfl, rfl, fun _ h => absurd h List.not_mem_nil,
    fun _ h => .inr h⟩

/-- A job has its own settings when the last entry that names its plugin has them. -/
lemma Traced.hasOwnSettings_iff (h : Traced r) (id : ℕ) :
    HasOwnSettings r id ↔ LastNamesAlike r id := by
  have hlookup (sc : ScannerConfig) : r.manager.plugins.lookup sc.plugin =
      (Manager.new.plugins.lookup sc.plugin).map fun p =>
        (lastNaming sc.plugin r.initialised).elim p fun last => p.initialised last.config := by
    rw [h.manager]
    exact lookup_initEntries .new r.initialised sc.plugin
  constructor
  · intro hown sc hsc last hlast p hp
    obtain ⟨j, hj⟩ := exists_object h.made hsc
    have hrun : runOnce r.manager j = .ok (p.initialised last.config) := by
      rw [runOnce, plugin_of_madeFrom h.made hj hsc, Manager.get_eq_ok, hlookup,
        Option.mem_def.mp hp, Option.mem_def.mp hlast]
      rfl
    have hset := hown j sc _ hj hsc hrun
    rwa [initialised_initialised] at hset
  · intro halike j sc p hj hsc hrun
    obtain ⟨last, hlast⟩ := exists_lastNaming (h.entries sc (List.mem_of_getElem? hsc))
    rw [runOnce, plugin_of_madeFrom h.made hj hsc, Manager.get_eq_ok, hlookup, hlast] at hrun
    obtain ⟨p₀, hp₀, rfl⟩ := Option.map_eq_some_iff.mp hrun
    rw [Option.elim_some, initialised_initialised]
    exact halike sc hsc last hlast p₀ hp₀

/-! ## What a step does -/

/-- The entry of an object that a loop runs for stays the same. -/
lemma Traced.entry_append (h : Traced r) {l : Loop} (hl : l ∈ r.sys.sched.loops)
    (sc : ScannerConfig) : (r.entries ++ [sc])[l.job]? = r.entries[l.job]? := by
  obtain ⟨j, hj, -⟩ := h.valid.loop l hl
  have hlength : r.sys.sched.objects.length = r.entries.length := by
    simpa using congrArg List.length h.made
  have hlt := (List.getElem?_eq_some_iff.mp hj).1
  exact List.getElem?_append_left (hlength ▸ hlt)

/-- Steps that leave the attempts, their entries and the entries gone through as they are. -/
lemma OwnSettings.congr (h : Traced r) (ht : Traced t) (hown : OwnSettings r)
    (hloops : ∀ l ∈ t.sys.sched.loops, l.pc.inAttempt = true → l ∈ r.sys.sched.loops)
    (hentries : ∀ l ∈ r.sys.sched.loops, t.entries[l.job]? = r.entries[l.job]?)
    (hinit : t.initialised = r.initialised) : OwnSettings t := by
  intro l hl hattempt
  have hl' := hloops l hl hattempt
  have halike := (h.hasOwnSettings_iff l.job).mp (hown l hl' hattempt)
  rw [ht.hasOwnSettings_iff, LastNamesAlike, hentries l hl', hinit]
  exact halike

/-- The next entry is gone through: the attempts in progress keep their settings exactly when
it has them. -/
lemma ownSettings_initEntry_iff (h : Traced r) (ht : Traced t) (hown : OwnSettings r)
    {sc : ScannerConfig} (hsys : t.sys = r.sys) (hentries : t.entries = r.entries)
    (hinit : t.initialised = r.initialised ++ [sc]) :
    OwnSettings t ↔ ∀ l ∈ r.sys.sched.loops, l.pc.inAttempt = true → ∀ own ∈ r.entries[l.job]?,
      own.plugin = sc.plugin → SameSettings own sc := by
  have hlast (own : ScannerConfig) : lastNaming own.plugin t.initialised =
      if own.plugin = sc.plugin then some sc else lastNaming own.plugin r.initialised := by
    rw [hinit]
    exact lastNaming_concat own.plugin r.initialised sc
  constructor
  · intro hown' l hl hattempt own hentry hsame
    have halike := (ht.hasOwnSettings_iff l.job).mp (hown' l (hsys ▸ hl) hattempt)
    refine halike own (hentries ▸ hentry) sc ?_
    rw [hlast, if_pos hsame]
    rfl
  · intro hcond l hl hattempt
    rw [hsys] at hl
    have halike := (h.hasOwnSettings_iff l.job).mp (hown l hl hattempt)
    rw [ht.hasOwnSettings_iff, LastNamesAlike, hentries]
    intro own hentry last hmem
    rw [hlast] at hmem
    split_ifs at hmem with hsame
    · obtain rfl := Option.some.inj hmem
      exact hcond l hl hattempt own hentry hsame
    · exact halike own hentry last hmem

/-- The move of a loop: the one attempt that can be new is the one that the move begins. -/
lemma ownSettings_loop_iff (h : Traced r) {sys : System κ V} {i : ℕ} {move : Move}
    (hown : OwnSettings r) (hstep : step cron codec r.sys (.loop i move) = some sys)
    (ht : Traced { r with sys := sys }) :
    OwnSettings { r with sys := sys } ↔ KeepsSettings cron codec r (.loop i move) := by
  obtain ⟨id, pc, j, j', pc', store, hl, hj, hmove, hsys⟩ := step_loop hstep
  have hloops : sys.sched.loops = r.sys.sched.loops.set i ⟨id, pc'⟩ := by
    rw [hsys]
    rfl
  have hself : sys.sched.loops[i]? = some ⟨id, pc'⟩ := by
    rw [hsys]
    exact moved_loops_self hl
  constructor
  · rintro hown' id' ⟨u, pc'', hu, hul, hattempt⟩
    obtain rfl : sys = u := Option.some.inj (hstep.symm.trans hu)
    have hmem : (⟨id', pc''⟩ : Loop) ∈ sys.sched.loops := List.mem_of_getElem? hul
    have hset := hown' _ hmem hattempt
    exact (ht.hasOwnSettings_iff id').mp hset
  · intro hcond l hl' hattempt
    rw [ht.hasOwnSettings_iff]
    have hmem : l ∈ r.sys.sched.loops.set i ⟨id, pc'⟩ := hloops ▸ hl'
    rcases List.mem_or_eq_of_mem_set hmem with hold | rfl
    · exact (h.hasOwnSettings_iff l.job).mp (hown l hold hattempt)
    · exact hcond id ⟨sys, pc', hstep, hself, hattempt⟩

/-! ## What is known stays known -/

lemma Traced.sys (h : Traced r) {sys : System κ V} {e : Scheduling.Event}
    (he : (∃ d, e = .tick d) ∨ e = .cancel ∨ ∃ i move, e = .loop i move)
    (hstep : step cron codec r.sys e = some sys) : Traced { r with sys := sys } :=
  ⟨valid_step h.valid hstep, h.made.congr rfl (sys_step he hstep).2, h.manager, h.entries,
    h.unadded⟩

lemma Traced.next (h : Traced r) (hfits : Fits cron r) (hnext : r.next cron codec = some t) :
    Traced t := by
  have hmade : MadeFrom t := (fits_next hfits hnext).1
  have hunadded := h.unadded
  unfold Runner.next at hnext
  split at hnext
  · next startup sc left scanners hp =>
    obtain rfl := Option.some.inj hnext
    rw [hp] at hunadded
    -- one entry is gone through: it moves from the unnamed to the initialised ones
    refine ⟨h.valid, hmade, ?_, ?_, ?_⟩
    · dsimp only
      rw [List.foldl_concat, ← h.manager]
    · intro own hown
      exact List.mem_append_left _ (h.entries own hown)
    · intro own hown
      rcases hunadded own hown with hold | hleft
      · exact .inl (List.mem_append_left _ hold)
      · rcases List.mem_cons.mp hleft with rfl | hlater
        · exact .inl List.mem_concat_self
        · exact .inr hlater
  · next scanners hp =>
    obtain rfl := Option.some.inj hnext
    rw [hp] at hunadded
    exact ⟨h.valid, hmade, h.manager, h.entries, hunadded⟩
  · next scanners hp =>
    obtain ⟨sched, hclear, rfl⟩ := Option.map_eq_some_iff.mp hnext
    rw [hp] at hunadded
    exact ⟨h.valid.clear hclear, hmade, h.manager, h.entries, hunadded⟩
  · next startup sc left scanners hp =>
    rw [hp] at hunadded
    have hleft : ∀ own ∈ left, own ∈ r.initialised ∨ own ∈ ([] : List ScannerConfig) :=
      fun own hown => hunadded own (List.mem_cons_of_mem _ hown)
    split at hnext
    · obtain rfl := Option.some.inj hnext
      exact ⟨h.valid, hmade, h.manager, h.entries, hleft⟩
    · split at hnext
      · next sched hadd =>
        obtain rfl := Option.some.inj hnext
        -- the job that is added is that of the first entry left, which has been gone through
        refine ⟨h.valid.addJob cron codec hadd, hmade, h.manager, ?_, hleft⟩
        intro own hown
        rcases List.mem_append.mp hown with hold | hnew
        · exact h.entries own hold
        · obtain rfl := List.mem_singleton.mp hnew
          exact (hunadded own List.mem_cons_self).resolve_right List.not_mem_nil
      · obtain rfl := Option.some.inj hnext
        cases startup with
        | true => exact ⟨h.valid, hmade, h.manager, h.entries, hleft⟩
        | false =>
          exact ⟨h.valid, hmade, h.manager, h.entries, fun _ hown => absurd hown List.not_mem_nil⟩
  · next startup scanners hp =>
    obtain rfl := Option.some.inj hnext
    exact ⟨h.valid.start, hmade, h.manager, h.entries, fun _ hown => absurd hown List.not_mem_nil⟩
  · cases hnext
  · cases hnext

lemma traced_step {euid : ℕ} {e : Daemon.Event} (h : Traced r) (hfits : Fits cron r)
    (hstep : runnerStep cron codec euid r e = some t) : Traced t := by
  cases e with
  | next => exact h.next hfits hstep
  | reload c =>
    obtain rfl | ⟨rfl, -⟩ := step_reload hstep
    · exact h
    · exact ⟨h.valid, h.made, h.manager, h.entries, fun _ hown => .inr hown⟩
  | tick d =>
    rw [runnerStep] at hstep
    obtain ⟨sys, hsys, rfl⟩ := Option.map_eq_some_iff.mp hstep
    exact h.sys (.inl ⟨d, rfl⟩) hsys
  | cancel =>
    rw [runnerStep] at hstep
    obtain ⟨sys, hsys, rfl⟩ := Option.map_eq_some_iff.mp hstep
    exact h.sys (.inr (.inl rfl)) hsys
  | loop i move =>
    rw [runnerStep] at hstep
    obtain ⟨sys, hsys, rfl⟩ := Option.map_eq_some_iff.mp hstep
    exact h.sys (.inr (.inr ⟨i, move, rfl⟩)) hsys

/-- The loops that are started with the jobs are in no attempt yet. -/
lemma mem_loops_of_start {s : Scheduler κ V} {l : Loop} (hl : l ∈ s.start.loops)
    (hattempt : l.pc.inAttempt = true) : l ∈ s.loops := by
  rcases List.mem_append.mp hl with hold | hnew
  · exact hold
  · obtain ⟨id, -, rfl⟩ := List.mem_map.mp hnew
    cases hattempt

lemma ownSettings_next_iff (h : Traced r) (ht : Traced t) (hown : OwnSettings r)
    (hnext : r.next cron codec = some t) :
    OwnSettings t ↔ KeepsSettings cron codec r .next := by
  -- outside the first loop there is nothing to be met
  have hfree (hp : ∀ startup sc left scanners,
      r.phase ≠ .initialising startup (sc :: left) scanners) (hown' : OwnSettings t) :
      OwnSettings t ↔ KeepsSettings cron codec r .next :=
    ⟨fun _ startup sc left scanners hphase => absurd hphase (hp startup sc left scanners),
      fun _ => hown'⟩
  unfold Runner.next at hnext
  split at hnext
  · next startup sc left scanners hp =>
    obtain rfl := Option.some.inj hnext
    rw [ownSettings_initEntry_iff h ht hown rfl rfl rfl]
    constructor
    · intro hcond startup' sc' left' scanners' hphase
      obtain ⟨-, heq, -⟩ := Phase.initialising.inj (hp.symm.trans hphase)
      obtain ⟨rfl, -⟩ := List.cons.inj heq
      exact hcond
    · intro hcond
      exact hcond startup sc left scanners hp
  · next scanners hp =>
    obtain rfl := Option.some.inj hnext
    exact hfree (by simp [hp]) (hown.congr h ht (fun _ hl _ => hl) (fun _ _ => rfl) rfl)
  · next scanners hp =>
    obtain ⟨sched, hclear, rfl⟩ := Option.map_eq_some_iff.mp hnext
    obtain ⟨u, hstop, rfl⟩ := Scheduler.clear_eq_some hclear
    have hloops : u.loops = r.sys.sched.loops := by rw [Scheduler.stop_eq_some hstop]; rfl
    refine hfree (by simp [hp]) (hown.congr h ht (fun l hl _ => ?_) (fun _ _ => rfl) rfl)
    exact hloops ▸ hl
  · next startup sc left scanners hp =>
    split at hnext
    · obtain rfl := Option.some.inj hnext
      exact hfree (by simp [hp]) (hown.congr h ht (fun _ hl _ => hl) (fun _ _ => rfl) rfl)
    · split at hnext
      · next sched hadd =>
        obtain rfl := Option.some.inj hnext
        obtain ⟨spec, -, -, rfl⟩ := (Scheduler.addJob_eq_ok cron codec).mp hadd
        exact hfree (by simp [hp]) (hown.congr h ht (fun _ hl _ => hl)
          (fun l hl => h.entry_append hl sc) rfl)
      · obtain rfl := Option.some.inj hnext
        exact hfree (by simp [hp]) (hown.congr h ht (fun _ hl _ => hl) (fun _ _ => rfl) rfl)
  · next startup scanners hp =>
    obtain rfl := Option.some.inj hnext
    exact hfree (by simp [hp]) (hown.congr h ht (fun _ hl hattempt =>
      mem_loops_of_start hl hattempt) (fun _ _ => rfl) rfl)
  · cases hnext
  · cases hnext

/-- A step keeps the attempts to their own settings exactly when it meets the condition. -/
lemma ownSettings_step_iff {euid : ℕ} {e : Daemon.Event} (h : Traced r) (hfits : Fits cron r)
    (hown : OwnSettings r) (hstep : runnerStep cron codec euid r e = some t) :
    OwnSettings t ↔ KeepsSettings cron codec r e := by
  have ht := traced_step h hfits hstep
  cases e with
  | next => exact ownSettings_next_iff h ht hown hstep
  | reload c =>
    refine ⟨fun _ => trivial, fun _ => ?_⟩
    obtain rfl | ⟨rfl, -⟩ := step_reload hstep
    · exact hown
    · exact hown.congr h ht (fun _ hl _ => hl) (fun _ _ => rfl) rfl
  | tick d =>
    rw [runnerStep] at hstep
    obtain ⟨sys, hsys, rfl⟩ := Option.map_eq_some_iff.mp hstep
    obtain rfl := Option.some.inj hsys
    exact ⟨fun _ => trivial, fun _ => hown.congr h ht (fun _ hl _ => hl) (fun _ _ => rfl) rfl⟩
  | cancel =>
    rw [runnerStep] at hstep
    obtain ⟨sys, hsys, rfl⟩ := Option.map_eq_some_iff.mp hstep
    obtain rfl := Option.some.inj hsys
    exact ⟨fun _ => trivial, fun _ => hown.congr h ht (fun _ hl _ => hl) (fun _ _ => rfl) rfl⟩
  | loop i move =>
    rw [runnerStep] at hstep
    obtain ⟨sys, hsys, rfl⟩ := Option.map_eq_some_iff.mp hstep
    exact ownSettings_loop_iff h hown hsys ht

/-! ## The jobs of the table -/

/-- The entries gone through end with those of the configuration, once its jobs are started. -/
def EndsWith (r : Runner κ V) : Phase → Prop
  | .initialising _ left scanners => ∃ before done, scanners = done ++ left ∧
      r.initialised = before ++ done
  | .adding _ _ scanners => ∃ before, r.initialised = before ++ scanners
  | .running scanners => ∃ before, r.initialised = before ++ scanners
  | .failed => True

lemma endsWith_next (h : EndsWith r r.phase) (hnext : r.next cron codec = some t) :
    EndsWith t t.phase := by
  unfold Runner.next at hnext
  split at hnext
  · next startup sc left scanners hp =>
    obtain rfl := Option.some.inj hnext
    rw [hp] at h
    obtain ⟨before, done, hscanners, hinit⟩ := h
    -- the entry is gone through: it is the last of those that have been
    refine ⟨before, done ++ [sc], by rw [hscanners, List.append_assoc, List.singleton_append], ?_⟩
    dsimp only
    rw [hinit, List.append_assoc]
  · next scanners hp =>
    obtain rfl := Option.some.inj hnext
    rw [hp] at h
    obtain ⟨before, done, hscanners, hinit⟩ := h
    exact ⟨before, by rw [hscanners, List.append_nil]; exact hinit⟩
  · next scanners hp =>
    obtain ⟨sched, -, rfl⟩ := Option.map_eq_some_iff.mp hnext
    rw [hp] at h
    obtain ⟨before, done, hscanners, hinit⟩ := h
    exact ⟨before, by rw [hscanners, List.append_nil]; exact hinit⟩
  · next startup sc left scanners hp =>
    rw [hp] at h
    split at hnext
    · obtain rfl := Option.some.inj hnext
      exact h
    · split at hnext
      · obtain rfl := Option.some.inj hnext
        exact h
      · obtain rfl := Option.some.inj hnext
        cases startup with
        | true => exact h
        | false => trivial
  · next startup scanners hp =>
    obtain rfl := Option.some.inj hnext
    rw [hp] at h
    exact h
  · cases hnext
  · cases hnext

lemma endsWith_step {euid : ℕ} {e : Daemon.Event} (h : EndsWith r r.phase)
    (hstep : runnerStep cron codec euid r e = some t) : EndsWith t t.phase := by
  have hsame {s t : Runner κ V} (hs : EndsWith s s.phase) (hphase : t.phase = s.phase)
      (hinit : t.initialised = s.initialised) : EndsWith t t.phase := by
    rw [hphase]
    revert hs
    cases s.phase <;> simp only [EndsWith, hinit, imp_self]
  cases e with
  | next => exact endsWith_next h hstep
  | reload c =>
    obtain rfl | ⟨rfl, -⟩ := step_reload hstep
    · exact h
    · exact ⟨r.initialised, [], rfl, (List.append_nil _).symm⟩
  | tick d =>
    rw [runnerStep] at hstep
    obtain ⟨sys, -, rfl⟩ := Option.map_eq_some_iff.mp hstep
    exact hsame h rfl rfl
  | cancel =>
    rw [runnerStep] at hstep
    obtain ⟨sys, -, rfl⟩ := Option.map_eq_some_iff.mp hstep
    exact hsame h rfl rfl
  | loop i move =>
    rw [runnerStep] at hstep
    obtain ⟨sys, -, rfl⟩ := Option.map_eq_some_iff.mp hstep
    exact hsame h rfl rfl

/-- Entries in front make no difference to the plugins that are named behind them. -/
lemma lastNaming_append {sc : ScannerConfig} {before scanners : List ScannerConfig}
    (h : sc ∈ scanners) :
    lastNaming sc.plugin (before ++ scanners) = lastNaming sc.plugin scanners := by
  obtain ⟨last, hlast⟩ := exists_lastNaming h
  rw [hlast, lastNaming, List.filter_append, List.getLast?_append]
  rw [lastNaming] at hlast
  rw [hlast, Option.some_or]

/-- When the jobs are started, all of them have their own settings exactly when the list of
entries is not divided about a plugin. -/
lemma table_iff (h : Traced r) (hfits : Fits cron r) {scanners : List ScannerConfig}
    (hphase : r.phase = .running scanners) (hends : EndsWith r r.phase) :
    (∀ id ∈ r.sys.sched.current, HasOwnSettings r id) ↔ Undivided cron scanners := by
  rw [hphase] at hends
  obtain ⟨before, hinit⟩ := hends
  have hfilled : Filled r (takenEntries cron scanners) := by
    have hfit := hfits.2
    rw [hphase] at hfit
    exact hfit.2
  constructor
  · intro hown sc hsc last hlast
    obtain ⟨id, hid, hentry⟩ := (mem_taken_iff hfilled).mp hsc
    refine (h.hasOwnSettings_iff id).mp (hown id hid) sc hentry last ?_
    rw [hinit, lastNaming_append (mem_of_mem_takenEntries hsc)]
    exact hlast
  · intro hundivided id hid
    rw [h.hasOwnSettings_iff]
    intro own hentry last hlast
    have hown : own ∈ takenEntries cron scanners := (mem_taken_iff hfilled).mpr ⟨id, hid, hentry⟩
    rw [hinit, lastNaming_append (mem_of_mem_takenEntries hown)] at hlast
    exact hundivided own hown last hlast

/-! ## All runs of the daemon -/

/-- **Every attempt of a job runs with the job's own settings**, in every state of a run of the
daemon, exactly when an attempt only ever begins while the last entry that has named its plugin
has its settings, and `Init` is only called meanwhile for an entry that has them too.  When jobs
have just been started, at the startup or by a reload, all of them are so exactly if the list of
entries is not divided about a plugin. -/
theorem ownSettings_iff_keepsSettings (cron : CronLib κ) (codec : Codec JobState V) (euid : ℕ)
    (c : Config) (stateStore : Option (BadgerStore V)) (clock : Time) (es : List Daemon.Event) :
    (Always (runnerStep cron codec euid) OwnSettings (.init c stateStore clock) es ↔
      Meets (runnerStep cron codec euid) (KeepsSettings cron codec) (.init c stateStore clock)
        es) ∧
    ∀ r scanners, run (runnerStep cron codec euid) (.init c stateStore clock) es = some r →
      r.phase = .running scanners →
      ((∀ id ∈ r.sys.sched.current, HasOwnSettings r id) ↔ Undivided cron scanners) := by
  let known (r : Runner κ V) : Prop := Fits cron r ∧ Traced r ∧ EndsWith r r.phase
  have hknown : ∀ r e t, known r → runnerStep cron codec euid r e = some t → known t :=
    fun r e t h hstep =>
      ⟨fits_step h.1 hstep, traced_step h.2.1 h.1 hstep, endsWith_step h.2.2 hstep⟩
  have hinit : known (.init c stateStore clock) :=
    ⟨fits_init c stateStore clock, traced_init c stateStore clock, [], [], rfl, rfl⟩
  refine ⟨?_, fun r scanners hrun hphase => ?_⟩
  · refine always_iff_meets (I := known) (fun r e t h _ hstep _ => hknown r e t h hstep)
      (fun r e t h hown hstep => ownSettings_step_iff h.2.1 h.1 hown hstep) ?_ hinit
      (fun l hl => absurd hl List.not_mem_nil) es
    intro r e _ hdead
    -- an event that cannot happen meets the condition
    cases e with
    | next =>
      intro startup sc left scanners hp
      simp [runnerStep, Runner.next, hp] at hdead
    | loop i move =>
      rintro id ⟨t, pc, ht, -⟩
      rw [runnerStep, ht] at hdead
      cases hdead
    | _ => trivial
  · have hr := inv_of_run hknown hinit hrun
    exact table_iff hr.2.1 hr.1 hphase hr.2.2

instance (sc sc' : ScannerConfig) : Decidable (SameSettings sc sc') :=
  inferInstanceAs (Decidable (∀ p ∈ Manager.new.plugins.lookup sc.plugin,
    p.initialised sc'.config = p.initialised sc.config))

instance (scanners : List ScannerConfig) : Decidable (Undivided cron scanners) :=
  inferInstanceAs (Decidable (∀ sc ∈ takenEntries cron scanners,
    ∀ last ∈ lastNaming sc.plugin scanners, SameSettings sc last))

/-- The default configuration with one disk to watch under two names. -/
def oneDiskTwice : Config :=
  { Config.default with scanners := [diskEntry "root-disk" "/", diskEntry "system-disk" "/"] }

/-- Both jobs watch their disk. -/
theorem ownSettings_oneDiskTwice :
    ∃ r ∈ run (runnerStep noCron stateCodec 1000) (.init oneDiskTwice none unixEpoch)
      (List.replicate 6 .next), ∀ id ∈ r.sys.sched.current, HasOwnSettings r id := by
  have hrun : ∃ r ∈ run (runnerStep noCron stateCodec 1000) (.init oneDiskTwice none unixEpoch)
      (List.replicate 6 .next), r.phase = .running oneDiskTwice.scanners := by decide +kernel
  obtain ⟨r, hr, hphase⟩ := hrun
  have hundivided : Undivided noCron oneDiskTwice.scanners := by decide +kernel
  have htable := (ownSettings_iff_keepsSettings noCron stateCodec 1000 oneDiskTwice none unixEpoch
    (List.replicate 6 .next)).2 r oneDiskTwice.scanners hr hphase
  exact ⟨r, hr, htable.mpr hundivided⟩

/-- After the startup, the job that is to watch the first disk watches the second. -/
theorem first_disk_unwatched :
    ¬ ∀ (c : Config) (es : List Daemon.Event), c.validate 1000 = .ok () →
      Always (runnerStep noCron stateCodec 1000) OwnSettings (.init c none unixEpoch) es := by
  intro hclaim
  have hrun : ∃ r ∈ run (runnerStep noCron stateCodec 1000) (.init twoDisks none unixEpoch)
      (List.replicate 6 .next ++ [.loop 0 .go, .loop 0 .go]),
        ∃ l ∈ r.sys.sched.loops, l.pc.inAttempt = true ∧
          ∃ j ∈ r.sys.sched.objects[l.job]?,
            r.entries[l.job]? = some (diskEntry "root-disk" "/") ∧
            runOnce r.manager j = .ok (.diskUsage "/data" 85 95) := by decide +kernel
  obtain ⟨r, hr, l, hl, hpc, j, hj, hentry, hplugin⟩ := hrun
  have hown := (hclaim twoDisks _ (by decide +kernel)).last hr
  have hset := hown l hl hpc j _ _ hj hentry hplugin
  have hpath : Plugin.diskUsage "/data" 85 95 ≠
      (Plugin.diskUsage "/data" 85 95).initialised (diskEntry "root-disk" "/").config := by
    decide +kernel
  exact hpath hset

end Arcsent.Daemon
