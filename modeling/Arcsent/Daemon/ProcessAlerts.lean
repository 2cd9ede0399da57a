/-
# The alerts about unexpected processes

Every finding about a process has the same identifier, severity and description, and the
identity of an alert is made of these.  Whatever the processes are, their alerts are therefore
repeats of one another: while one of them counts as seen, no other passes.
-/
import Arcsent.Daemon.AlertPipeline
import Arcsent.Daemon.OnResult
import Arcsent.Plugins.Processes

namespace Arcsent.Daemon

open Arcsent.Go Arcsent.Lib Arcsent.Alerting Arcsent.Scanner
open Arcsent.Plugins (ProcEntry runProcessMonitor runProcessMonitor_eq_ok processFinding
  notWhitelisted)

/-! ## Alerts with one identity -/

section Log

variable {throttle : Duration} {log before middle after : List Happening} {now now' : Time}
  {a a' : Alert}

/-- What has passed is not later than the last time its identity was taken down. -/
lemma exists_lastTime_ge (hwindow : 0 < throttle) (h : EachEntry (Decided throttle) log)
    (hmem : .passed now a ∈ log) : ∃ t, lastTime log a.id = some t ∧ now ≤ t := by
  induction log using List.reverseRecOn with
  | nil => exact absurd hmem List.not_mem_nil
  | append_singleton log x ih =>
    obtain ⟨hlog, hx⟩ := eachEntry_concat.mp h
    by_cases hpassed : ∃ t b, x = .passed t b
    · obtain ⟨t, b, rfl⟩ := hpassed
      rw [lastTime_concat_passed]
      rcases List.mem_append.mp hmem with hold | hnew
      · obtain ⟨last, hlast, hle⟩ := ih hlog hold
        by_cases hid : a.id = b.id
        · have hgap : throttle ≤ t - last := hx last (hid ▸ hlast)
          refine ⟨t, by rw [hid, Function.update_self], ?_⟩
          linarith
        · exact ⟨last, by rw [Function.update_of_ne hid, hlast], hle⟩
      · obtain ⟨rfl, rfl⟩ := Happening.passed.inj (List.mem_singleton.mp hnew)
        exact ⟨now, Function.update_self _ _ _, le_rfl⟩
    · have hnone : x.seen? = none := by
        cases x with
        | passed t b => exact absurd ⟨t, b, rfl⟩ hpassed
        | _ => rfl
      rw [lastTime_concat hnone]
      refine ih hlog ?_
      rcases List.mem_append.mp hmem with hold | hnew
      · exact hold
      · exact absurd ⟨now, a, (List.mem_singleton.mp hnew).symm⟩ hpassed

/-- Two alerts with one identity pass at least the window apart. -/
lemma passed_apart (hwindow : 0 < throttle) (h : EachEntry (Decided throttle) log)
    (hlog : log = before ++ .passed now a :: (middle ++ .passed now' a' :: after))
    (hid : a.id = a'.id) : now + throttle ≤ now' := by
  have hsplit : log = (before ++ .passed now a :: middle) ++ .passed now' a' :: after := by
    rw [hlog, List.append_assoc, List.cons_append]
  have hbefore : EachEntry (Decided throttle) (before ++ .passed now a :: middle) := by
    intro init x rest hinit
    refine h init x (rest ++ .passed now' a' :: after) ?_
    rw [hsplit, hinit, List.append_assoc, List.cons_append]
  have hmem : .passed now a ∈ before ++ .passed now a :: middle := by simp
  obtain ⟨t, ht, hle⟩ := exists_lastTime_ge hwindow hbefore hmem
  have hgap : throttle ≤ now' - t := h _ _ _ hsplit t (hid ▸ ht)
  linarith

end Log

/-! ## Alerts about processes -/

variable {sha256 : String → String} {a a' : Alert}

/-- The alert that the hook sends for a finding of the process monitor, as `Send` completes
it. -/
def FromProcesses (sha256 : String → String) (a : Alert) : Prop :=
  ∃ whitelistPrefixes timestamp entries result finding now,
    runProcessMonitor whitelistPrefixes timestamp (.ok entries) = .ok result ∧
      finding ∈ result.findings ∧ a = (alertFor result.scannerName finding).complete sha256 now

/-- They all have one identity. -/
lemma FromProcesses.id_eq (h : FromProcesses sha256 a) :
    a.id = fingerprint sha256 (alertFor "system.process_monitor" (notWhitelisted 1 "")) := by
  obtain ⟨whitelistPrefixes, timestamp, entries, result, finding, now, hrun, hfinding, rfl⟩ := h
  have hfindings := (runProcessMonitor_eq_ok whitelistPrefixes hrun).1
  have hname : result.scannerName = "system.process_monitor" := by
    rw [runProcessMonitor] at hrun
    rw [← Except.ok.inj hrun]
    rfl
  rw [hfindings] at hfinding
  obtain ⟨entry, -, hentry⟩ := List.mem_filterMap.mp hfinding
  have hshape : ∃ pid exePath, finding = notWhitelisted pid exePath := by
    rw [processFinding] at hentry
    split at hentry
    · split_ifs at hentry
      exact ⟨_, _, (Option.some.inj hentry).symm⟩
    · cases hentry
  obtain ⟨pid, exePath, rfl⟩ := hshape
  rw [hname]
  rfl

/-- **Of all unexpected processes one is alerted at a time**: whatever runs of the process
monitor there are, however many processes they find, and in whatever order the goroutines
move and the configuration is reloaded, an engine lets two alerts about processes pass only
the window apart, even if they are about different processes. -/
theorem process_alerts_apart {s : AlertSystem} {g : ℕ} {gen : Generation} {cfg : AlertingConfig}
    {channels : List String} {events : List AlertEvent}
    {before middle after : List Happening} {now now' : Time}
    (hrun : run (AlertSystem.step sha256) (.start cfg channels) events = some s)
    (hgen : s.gens[g]? = some gen) (hwindow : 0 < gen.engine.throttle)
    (hlog : gen.log = before ++ .passed now a :: (middle ++ .passed now' a' :: after))
    (ha : FromProcesses sha256 a) (ha' : FromProcesses sha256 a') :
    now + gen.engine.throttle ≤ now' := by
  have hkept : Kept s :=
    inv_of_run (fun _ _ _ h hstep => kept_step h hstep) (kept_start cfg channels) hrun
  have hdecided := (hkept.accounted g gen hgen).decided
  exact passed_apart hwindow hdecided hlog (ha.id_eq.trans ha'.id_eq.symm)

/-- The alert about a process that runs from a directory for temporary files. -/
def intruder (pid : ℤ) : Alert :=
  alertFor "system.process_monitor" (notWhitelisted pid "/tmp/miner")

/-- Three processes that are found one after the other. -/
def intruders : List AlertEvent :=
  [.call (intruder 100), .check 0 unixEpoch, .offer 0,
    .call (intruder 200), .check 1 (unixEpoch + second),
    .call (intruder 300), .check 2 (unixEpoch + 10 * minute)]

lemma fromProcesses_intruder {entry : ProcEntry} {pid : ℤ}
    (h : processFinding ["/usr/"] entry = some (notWhitelisted pid "/tmp/miner")) (now : Time) :
    FromProcesses id ((intruder pid).complete id now) := by
  refine ⟨["/usr/"], "", [entry], _, notWhitelisted pid "/tmp/miner", now, rfl, ?_, rfl⟩
  rw [(runProcessMonitor_eq_ok ["/usr/"] rfl).1]
  exact List.mem_filterMap.mpr ⟨entry, List.mem_singleton_self _, h⟩

/-- The second one is not alerted, and the third one comes after the window. -/
theorem process_alerts_apart_intruders : ∃ s gen,
    run (AlertSystem.step id) (.start enabledAlerting ["log"]) intruders = some s ∧
      s.gens[0]? = some gen ∧ unixEpoch + gen.engine.throttle ≤ unixEpoch + 10 * minute := by
  have hlog : ((run (AlertSystem.step id) (.start enabledAlerting ["log"]) intruders).bind
      fun s => s.gens[0]?.map fun gen => (gen.engine.throttle, gen.log)) =
        some (5 * minute, [.passed unixEpoch ((intruder 100).complete id unixEpoch),
          .queued ((intruder 100).complete id unixEpoch),
          .throttled (unixEpoch + second) ((intruder 200).complete id (unixEpoch + second)).id,
          .passed (unixEpoch + 10 * minute)
            ((intruder 300).complete id (unixEpoch + 10 * minute))]) := rfl
  obtain ⟨s, hrun, hlogs⟩ := Option.bind_eq_some_iff.mp hlog
  obtain ⟨gen, hgen, hparts⟩ := Option.map_eq_some_iff.mp hlogs
  obtain ⟨hthrottle, hlog⟩ := Prod.mk.inj hparts
  have hfound : processFinding ["/usr/"] ⟨"100", true, .ok "/tmp/miner"⟩ =
      some (notWhitelisted 100 "/tmp/miner") := rfl
  have hfound' : processFinding ["/usr/"] ⟨"300", true, .ok "/tmp/miner"⟩ =
      some (notWhitelisted 300 "/tmp/miner") := rfl
  have hsplit : gen.log = [] ++ .passed unixEpoch ((intruder 100).complete id unixEpoch) ::
      ([.queued _, .throttled _ _] ++ .passed (unixEpoch + 10 * minute)
        ((intruder 300).complete id (unixEpoch + 10 * minute)) :: []) := hlog
  have hpositive : 0 < gen.engine.throttle := by
    rw [hthrottle]
    decide
  exact ⟨s, gen, hrun, hgen, process_alerts_apart hrun hgen hpositive hsplit
    (fromProcesses_intruder hfound _) (fromProcesses_intruder hfound' _)⟩

end Arcsent.Daemon
