/-
# A reload against a restart

A reload keeps the plugins with their settings and the scheduler with its store, and goes
through the entries of the new configuration as the startup does.  What it leaves behind is
compared here with what a daemon has that is started with that configuration.
-/
import Arcsent.Daemon.Runner
import Arcsent.Servers.Handlers

namespace Arcsent.Daemon

open Arcsent.Go Arcsent.Storage Arcsent.Scanner Arcsent.Plugins Arcsent.Scheduling Arcsent.Lib
open Arcsent.Servers (listJobs)

variable {κ V : Type}

/-! ## The configurations that are taken up -/

/-- The configuration of a reload that passes the validation. -/
def Event.accepted (euid : ℕ) : Daemon.Event → Option Config
  | .reload c => (c.validate euid).toOption.map fun _ => c
  | _ => none

/-- The configurations that a daemon has taken up, that of the startup first. -/
def takenUp (euid : ℕ) (c : Config) (es : List Daemon.Event) : List Config :=
  c :: es.filterMap (Event.accepted euid)

/-- The entries that are still to be initialised. -/
def Phase.uninitialised : Phase → List ScannerConfig
  | .initialising _ left _ => left
  | _ => []

/-- All entries of the configuration, unless its jobs have been refused. -/
def Phase.scanners : Phase → Option (List ScannerConfig)
  | .initialising _ _ scanners => some scanners
  | .adding _ _ scanners => some scanners
  | .running scanners => some scanners
  | .failed => none

/-- The plugins have been initialised by all entries of the configurations up to the point
that has been reached, and the entries at hand are those of the last configuration. -/
structure Initialised (cs : List Config) (r : Runner κ V) : Prop where
  plugins : ∃ done, cs.flatMap Config.scanners = done ++ r.phase.uninitialised ∧
    r.manager = done.foldl initEntry .new
  last : ∀ scanners ∈ r.phase.scanners, ∃ c, cs.getLast? = some c ∧ c.scanners = scanners

lemma initialised_init (c : Config) (stateStore : Option (BadgerStore V)) (clock : Time) :
    Initialised [c] (Runner.init c stateStore clock : Runner κ V) :=
  ⟨⟨[], by simp [Runner.init, Phase.uninitialised], rfl⟩,
    fun scanners h => ⟨c, rfl, Option.some.inj h⟩⟩

/-- Nothing that the invariant is about has changed. -/
lemma Initialised.congr {cs : List Config} {r t : Runner κ V} (h : Initialised cs r)
    (hmanager : t.manager = r.manager) (hleft : t.phase.uninitialised = r.phase.uninitialised)
    (hscanners : ∀ scanners ∈ t.phase.scanners, scanners ∈ r.phase.scanners) :
    Initialised cs t := by
  obtain ⟨⟨done, hcs, hdone⟩, hlast⟩ := h
  exact ⟨⟨done, by rw [hcs, hleft], hmanager.trans hdone⟩, fun s hs => hlast s (hscanners s hs)⟩

variable {cron : CronLib κ} {codec : Codec JobState V}

lemma Initialised.next {cs : List Config} {r t : Runner κ V} (h : Initialised cs r)
    (hnext : r.next cron codec = some t) : Initialised cs t := by
  unfold Runner.next at hnext
  split at hnext
  · next startup sc left scanners hp =>
    obtain rfl := Option.some.inj hnext
    obtain ⟨⟨done, hcs, hdone⟩, hlast⟩ := h
    rw [hp] at hcs hlast
    refine ⟨⟨done ++ [sc], ?_, ?_⟩, hlast⟩
    · rw [hcs]
      exact List.append_cons ..
    · rw [List.foldl_concat, ← hdone]
  · next scanners hp =>
    obtain rfl := Option.some.inj hnext
    exact h.congr rfl (by simp [hp, Phase.uninitialised]) (by simp [hp, Phase.scanners])
  · next scanners hp =>
    obtain ⟨sched, -, rfl⟩ := Option.map_eq_some_iff.mp hnext
    exact h.congr rfl (by simp [hp, Phase.uninitialised]) (by simp [hp, Phase.scanners])
  · next startup sc left scanners hp =>
    split at hnext
    · obtain rfl := Option.some.inj hnext
      exact h.congr rfl (by simp [hp, Phase.uninitialised]) (by simp [hp, Phase.scanners])
    · split at hnext
      · obtain rfl := Option.some.inj hnext
        exact h.congr rfl (by simp [hp, Phase.uninitialised]) (by simp [hp, Phase.scanners])
      · obtain rfl := Option.some.inj hnext
        cases startup <;>
          exact h.congr rfl (by simp [hp, Phase.uninitialised]) (by simp [hp, Phase.scanners])
  · next startup scanners hp =>
    obtain rfl := Option.some.inj hnext
    exact h.congr rfl (by simp [hp, Phase.uninitialised]) (by simp [hp, Phase.scanners])
  · cases hnext
  · cases hnext

/-- A reload that is accepted begins when no entry is left to be initialised. -/
lemma Initialised.reload {euid : ℕ} {cs : List Config} {r t : Runner κ V} {c : Config}
    (h : Initialised cs r) (hstep : runnerStep cron codec euid r (.reload c) = some t) :
    Initialised (cs ++ (Event.accepted euid (.reload c)).toList) t := by
  have hbegin (hleft : r.phase.uninitialised = []) :
      Initialised (cs ++ [c]) { r with phase := .initialising false c.scanners c.scanners } := by
    obtain ⟨⟨done, hcs, hdone⟩, -⟩ := h
    rw [hleft, List.append_nil] at hcs
    refine ⟨⟨done, ?_, hdone⟩, fun scanners hs => ⟨c, List.getLast?_concat, Option.some.inj hs⟩⟩
    rw [List.flatMap_append, hcs, List.flatMap_singleton]
    rfl
  rw [runnerStep] at hstep
  rw [Event.accepted]
  cases hvalid : c.validate euid with
  | error err =>
    have hsame : t = r := by
      rw [hvalid] at hstep
      split at hstep
      · exact (Option.some.inj hstep).symm
      · exact (Option.some.inj hstep).symm
      · cases hstep
    simpa [hsame, Except.toOption] using h
  | ok _ =>
    rw [hvalid] at hstep
    split at hstep
    · next hp =>
      obtain rfl := Option.some.inj hstep
      exact hbegin (by simp [hp, Phase.uninitialised])
    · next hp =>
      obtain rfl := Option.some.inj hstep
      exact hbegin (by simp [hp, Phase.uninitialised])
    · cases hstep

lemma initialised_step {euid : ℕ} {cs : List Config} {r t : Runner κ V} {e : Daemon.Event}
    (h : Initialised cs r) (hstep : runnerStep cron codec euid r e = some t) :
    Initialised (cs ++ (e.accepted euid).toList) t := by
  have hkept (he : e.accepted euid = none) (ht : Initialised cs t) :
      Initialised (cs ++ (e.accepted euid).toList) t := by
    rwa [he, Option.toList_none, List.append_nil]
  cases e with
  | reload c => exact h.reload hstep
  | next => exact hkept rfl (h.next hstep)
  | tick d =>
    rw [runnerStep] at hstep
    obtain ⟨sys, -, rfl⟩ := Option.map_eq_some_iff.mp hstep
    exact hkept rfl (h.congr rfl rfl fun _ hs => hs)
  | cancel =>
    rw [runnerStep] at hstep
    obtain ⟨sys, -, rfl⟩ := Option.map_eq_some_iff.mp hstep
    exact hkept rfl (h.congr rfl rfl fun _ hs => hs)
  | loop i move =>
    rw [runnerStep] at hstep
    obtain ⟨sys, -, rfl⟩ := Option.map_eq_some_iff.mp hstep
    exact hkept rfl (h.congr rfl rfl fun _ hs => hs)

lemma takenUp_concat (euid : ℕ) (c : Config) (es : List Daemon.Event) (e : Daemon.Event) :
    takenUp euid c (es ++ [e]) = takenUp euid c es ++ (e.accepted euid).toList := by
  rw [takenUp, takenUp, List.filterMap_append, List.cons_append]
  cases h : e.accepted euid <;> simp [h]

/-- In every run the plugins are as the configurations taken up so far have made them. -/
lemma initialised_of_run {euid : ℕ} {c : Config} {stateStore : Option (BadgerStore V)}
    {clock : Time} {es : List Daemon.Event} {r : Runner κ V}
    (hrun : run (runnerStep cron codec euid) (.init c stateStore clock) es = some r) :
    Initialised (takenUp euid c es) r := by
  refine inv_of_run_history (J := fun es r => Initialised (takenUp euid c es) r) ?_
    (initialised_init c stateStore clock) hrun
  intro before s e t h hstep
  rw [takenUp_concat]
  exact initialised_step h hstep

lemma fits_of_run {euid : ℕ} {c : Config} {stateStore : Option (BadgerStore V)}
    {clock : Time} {es : List Daemon.Event} {r : Runner κ V}
    (hrun : run (runnerStep cron codec euid) (.init c stateStore clock) es = some r) :
    Fits cron r := by
  have hinit : Fits cron (Runner.init c stateStore clock : Runner κ V) :=
    ⟨rfl, fun _ => rfl, [], rfl, .new, fun _ => rfl, rfl⟩
  exact inv_of_run (fun _ _ _ h hstep => fits_step h hstep) hinit hrun

/-! ## The startup -/

/-- The steps that are left until the jobs of the startup are started. -/
def Phase.startupLeft : Phase → Option ℕ
  | .initialising true left scanners => some (left.length + scanners.length + 2)
  | .adding true left _ => some (left.length + 1)
  | .running _ => some 0
  | _ => none

/-- The startup goes on whatever the entries are. -/
lemma exists_next {r : Runner κ V} {n : ℕ} (h : r.phase.startupLeft = some (n + 1)) :
    ∃ t, r.next cron codec = some t ∧ t.phase.startupLeft = some n ∧
      t.phase.scanners = r.phase.scanners := by
  unfold Runner.next
  cases hp : r.phase with
  | initialising startup left scanners =>
    cases startup with
    | false => simp [hp, Phase.startupLeft] at h
    | true =>
      rw [hp, Phase.startupLeft] at h
      have hn := Option.some.inj h
      cases left with
      | nil => exact ⟨_, rfl, by simp [Phase.startupLeft] at hn ⊢; omega, rfl⟩
      | cons sc left => exact ⟨_, rfl, by simp [Phase.startupLeft] at hn ⊢; omega, rfl⟩
  | adding startup left scanners =>
    cases startup with
    | false => simp [hp, Phase.startupLeft] at h
    | true =>
      rw [hp, Phase.startupLeft] at h
      have hn := Option.some.inj h
      cases left with
      | nil => exact ⟨_, rfl, by simp [Phase.startupLeft] at hn ⊢; omega, rfl⟩
      | cons sc left =>
        have hleft : (Phase.adding true left scanners).startupLeft = some n := by
          simp [Phase.startupLeft] at hn ⊢
          omega
        dsimp only
        split
        · exact ⟨_, rfl, hleft, rfl⟩
        · split
          · exact ⟨_, rfl, hleft, rfl⟩
          · exact ⟨_, rfl, hleft, rfl⟩
  | running scanners => simp [hp, Phase.startupLeft] at h
  | failed => simp [hp, Phase.startupLeft] at h

lemma exists_running {euid n : ℕ} {r : Runner κ V} {scanners : List ScannerConfig}
    (hleft : r.phase.startupLeft = some n) (hscanners : r.phase.scanners = some scanners) :
    ∃ t, run (runnerStep cron codec euid) r (List.replicate n .next) = some t ∧
      t.phase = .running scanners := by
  induction n generalizing r with
  | zero =>
    refine ⟨r, rfl, ?_⟩
    cases hp : r.phase with
    | initialising startup => cases startup <;> simp [hp, Phase.startupLeft] at hleft
    | adding startup => cases startup <;> simp [hp, Phase.startupLeft] at hleft
    | running scanners' =>
      rw [hp] at hscanners
      exact congrArg Phase.running (Option.some.inj hscanners)
    | failed => simp [hp, Phase.startupLeft] at hleft
  | succ n ih =>
    obtain ⟨u, hu, hleft', hscanners'⟩ : ∃ u, r.next cron codec = some u ∧
        u.phase.startupLeft = some n ∧ u.phase.scanners = r.phase.scanners := exists_next hleft
    obtain ⟨t, ht, hphase⟩ := ih hleft' (hscanners'.trans hscanners)
    exact ⟨t, run_cons_eq_some.mpr ⟨u, hu, ht⟩, hphase⟩

/-- Every configuration is taken through to its jobs by a bounded number of steps. -/
lemma exists_run_startup (euid : ℕ) (c : Config) (stateStore : Option (BadgerStore V))
    (clock : Time) :
    ∃ t, run (runnerStep cron codec euid) (.init c stateStore clock)
        (List.replicate (2 * c.scanners.length + 2) .next) = some t ∧
      t.phase = .running c.scanners := by
  refine exists_running ?_ rfl
  simp only [Runner.init, Phase.startupLeft, Option.some.injEq]
  omega

/-! ## What is compared -/

/-- The jobs of a running daemon are those of the entries that are taken. -/
lemma listJobs_of_fits {r : Runner κ V} (h : Fits cron r) {scanners : List ScannerConfig}
    (hphase : r.phase = .running scanners) :
    listJobs r.sys.sched = (takenEntries cron scanners).map fun sc => (jobConfig sc).normalize := by
  obtain ⟨hmade, hfits⟩ := h
  rw [hphase] at hfits
  have hcfg (id : ℕ) : (r.sys.sched.objects[id]?).map Job.cfg =
      (r.entries[id]?).map fun sc => (jobConfig sc).normalize := by
    rw [← List.getElem?_map, ← List.getElem?_map, hmade]
  have htable : (r.sys.sched.jobs.map fun e => (e.1, r.entries[e.2]?)).filterMap
        (fun e => e.2.map fun sc => (jobConfig sc).normalize) =
      (takenEntries cron scanners).map fun sc => (jobConfig sc).normalize := by
    rw [hfits.2, List.filterMap_map, ← List.filterMap_eq_map]
    rfl
  rw [← htable, List.filterMap_map, listJobs, Scheduler.current, List.filterMap_map]
  exact List.filterMap_congr fun e _ => hcfg e.2

lemma lastNaming_eq_none {name : String} {scanners : List ScannerConfig} :
    lastNaming name scanners = none ↔ name ∉ scanners.map ScannerConfig.plugin := by
  rw [lastNaming, List.getLast?_eq_none_iff, List.filter_eq_nil_iff]
  simp [eq_comm]

/-- A list of entries behind another one decides about the plugins that it names. -/
lemma lookup_initEntries_append (m : Manager) (before scanners : List ScannerConfig)
    {name : String} (hname : name ∈ scanners.map ScannerConfig.plugin) :
    ((before ++ scanners).foldl initEntry m).plugins.lookup name =
      (scanners.foldl initEntry m).plugins.lookup name := by
  obtain ⟨sc, hsc⟩ : ∃ sc, lastNaming name scanners = some sc := by
    rw [← Option.ne_none_iff_exists']
    exact fun hnone => lastNaming_eq_none.mp hnone hname
  rw [List.foldl_append, lookup_initEntries, lookup_initEntries m before,
    lookup_initEntries m scanners, hsc, Option.map_map]
  refine congrArg (fun f => (m.plugins.lookup name).map f) (funext fun p => ?_)
  rw [Function.comp_apply]
  cases lastNaming name before <;> simp

lemma Manager.get_congr {m n : Manager} {name : String}
    (h : m.plugins.lookup name = n.plugins.lookup name) : m.get name = n.get name := by
  rw [Manager.get, Manager.get, h]

/-- The settings of a plugin after a list of entries. -/
lemma get_initEntries (m : Manager) (scanners : List ScannerConfig) (name : String) :
    (scanners.foldl initEntry m).get name = (m.get name).map fun p =>
      (lastNaming name scanners).elim p fun sc => p.initialised sc.config := by
  rw [Manager.get, Manager.get, lookup_initEntries]
  cases m.plugins.lookup name <;> rfl

/-! ## All runs of the daemon -/

/-- **Reloads leave what a restart leaves, but for the plugins that are no longer named.**
Whatever a daemon has gone through, once its jobs are started it has the jobs of a daemon that is
started with the last configuration taken up, and the same settings of every plugin that is
named in it.  A plugin that is not named keeps the settings of the last entry that ever named
it, where the new daemon has none. -/
theorem reloaded_like_restarted (cron : CronLib κ) (codec : Codec JobState V) (euid : ℕ)
    (c : Config) (stateStore stateStore' : Option (BadgerStore V)) (clock clock' : Time)
    {es : List Daemon.Event} {r : Runner κ V} {scanners : List ScannerConfig}
    (hrun : run (runnerStep cron codec euid) (.init c stateStore clock) es = some r)
    (hphase : r.phase = .running scanners) :
    ∃ last t, (takenUp euid c es).getLast? = some last ∧
      run (runnerStep cron codec euid) (.init last stateStore' clock')
        (List.replicate (2 * last.scanners.length + 2) .next) = some t ∧
      t.phase = r.phase ∧ listJobs r.sys.sched = listJobs t.sys.sched ∧
      (∀ sc ∈ last.scanners, r.manager.get sc.plugin = t.manager.get sc.plugin) ∧
      ∀ name, name ∉ last.scanners.map ScannerConfig.plugin →
        t.manager.get name = Manager.new.get name ∧
        r.manager.get name = (Manager.new.get name).map fun p =>
          (lastNaming name ((takenUp euid c es).flatMap Config.scanners)).elim p
            fun sc => p.initialised sc.config := by
  have hinit := initialised_of_run hrun
  obtain ⟨last, hlast, rfl⟩ := hinit.last scanners (by rw [hphase]; rfl)
  obtain ⟨t, hfresh, hrunning⟩ : ∃ t, run (runnerStep cron codec euid)
      (.init last stateStore' clock') (List.replicate (2 * last.scanners.length + 2) .next) =
        some t ∧ t.phase = .running last.scanners := exists_run_startup euid last stateStore' clock'
  have hsettings :
      r.manager = ((takenUp euid c es).flatMap Config.scanners).foldl initEntry .new := by
    obtain ⟨done, hcs, hdone⟩ := hinit.plugins
    have hnone : r.phase.uninitialised = [] := by rw [hphase]; rfl
    rw [hdone, hcs, hnone, List.append_nil]
  have hsettings' : t.manager = last.scanners.foldl initEntry .new := by
    obtain ⟨done, hcs, hdone⟩ := (initialised_of_run hfresh).plugins
    have honly :
        takenUp euid last (List.replicate (2 * last.scanners.length + 2) .next) = [last] := by
      simp [takenUp, Event.accepted]
    have hnone : t.phase.uninitialised = [] := by rw [hrunning]; rfl
    rw [hnone, List.append_nil, honly, List.flatMap_singleton] at hcs
    rw [hdone, hcs]
  refine ⟨last, t, hlast, hfresh, hrunning.trans hphase.symm, ?_, ?_, ?_⟩
  · rw [listJobs_of_fits (fits_of_run hrun) hphase, listJobs_of_fits (fits_of_run hfresh) hrunning]
  · intro sc hsc
    obtain ⟨before, hbefore⟩ := List.getLast?_eq_some_iff.mp hlast
    refine Manager.get_congr ?_
    rw [hsettings, hsettings', hbefore, List.flatMap_append, List.flatMap_singleton]
    exact lookup_initEntries_append _ _ _ (List.mem_map_of_mem hsc)
  · intro name hname
    refine ⟨?_, by rw [hsettings, get_initEntries]⟩
    rw [hsettings', get_initEntries, lastNaming_eq_none.mpr hname]
    cases Manager.new.get name <;> rfl

/-- The startup with two disks to watch, and a reload with the second of them alone. -/
def oneDiskLeft : List Daemon.Event :=
  List.replicate 6 .next ++
    [.reload { Config.default with scanners := [diskEntry "data-disk" "/data"] }] ++
    List.replicate 4 .next

/-- After it the one job is that of a restart. -/
theorem reloaded_like_restarted_oneDisk :
    ∃ r last t,
      run (runnerStep noCron stateCodec 1000) (.init twoDisks none unixEpoch) oneDiskLeft = some r ∧
      run (runnerStep noCron stateCodec 1000) (.init last none (unixEpoch + second))
        (List.replicate (2 * last.scanners.length + 2) .next) = some t ∧
      listJobs r.sys.sched = listJobs t.sys.sched ∧
      ∀ sc ∈ last.scanners, r.manager.get sc.plugin = t.manager.get sc.plugin := by
  have hrun : ∃ r ∈ run (runnerStep noCron stateCodec 1000) (.init twoDisks none unixEpoch)
      oneDiskLeft, r.phase = .running [diskEntry "data-disk" "/data"] := by decide +kernel
  obtain ⟨r, hr, hphase⟩ := hrun
  obtain ⟨last, t, -, hfresh, -, hjobs, hsettings, -⟩ :=
    reloaded_like_restarted noCron stateCodec 1000 twoDisks none none unixEpoch
      (unixEpoch + second) hr hphase
  exact ⟨r, last, t, hr, hfresh, hjobs, hsettings⟩

end Arcsent.Daemon
