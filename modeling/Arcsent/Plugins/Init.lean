/-
# The settings of the plugins

The plugins of `internal/plugins/system`, each with the settings that its method `Init`
makes from the map of a scanner entry.  `Init` starts from the defaults every time, so a
plugin keeps nothing of the settings it had before.
-/
import Mathlib.Algebra.Order.Floor.Ring
import Mathlib.Data.Rat.Floor
import Arcsent.Scanner.Types

namespace Arcsent.Plugins

open Arcsent.Go

/-- A plugin with its settings. -/
inductive Plugin
  | cpuMemory (sampleMS : ℤ) (includeSwap : Bool)
  | diskUsage (path : String) (warnPercent critPercent : ℚ)
  | fileIntegrity (paths : List String)
  | loadAverage
  | processMonitor (whitelistPrefixes : List String)
  | authLogMonitor (path : String) (failedPatterns : List String) (maxLines : ℤ)
  | networkListeners (tcpPath udpPath : String)
  | uptime
deriving DecidableEq

/-- The method `Name`. -/
def Plugin.name : Plugin → String
  | cpuMemory .. => "system.cpu_memory"
  | diskUsage .. => "system.disk_usage"
  | fileIntegrity .. => "system.file_integrity"
  | loadAverage => "system.load_avg"
  | processMonitor .. => "system.process_monitor"
  | authLogMonitor .. => "system.auth_log"
  | networkListeners .. => "system.network_listeners"
  | uptime => "system.uptime"

/-! ## Reading the map -/

/-- A text that is there and not empty, or the default. -/
def stringOr (config : StringMap Value) (key default : String) : String :=
  match config.get? key with
  | some (.string v) => if v ≠ "" then v else default
  | _ => default

/-- A number that is there and positive, or the default. -/
def positiveOr (config : StringMap Value) (key : String) (default : ℚ) : ℚ :=
  match config.get? key with
  | some (.float64 v) => if v > 0 then v else default
  | _ => default

/-- The conversion of a positive number to an `int`.  What is out of range becomes the least
`int`, as on amd64. -/
def intOfFloat (v : ℚ) : ℤ := if ⌊v⌋ < 2 ^ 63 then ⌊v⌋ else -2 ^ 63

/-- A number that is there and positive, as an `int`, or the default. -/
def positiveIntOr (config : StringMap Value) (key : String) (default : ℤ) : ℤ :=
  match config.get? key with
  | some (.float64 v) => if v > 0 then intOfFloat v else default
  | _ => default

def boolOr (config : StringMap Value) (key : String) (default : Bool) : Bool :=
  match config.get? key with
  | some (.bool v) => v
  | _ => default

/-- The texts of a list that are not empty. -/
def nonEmpty (items : List (Option String)) : List String := items.reduceOption.filter (· ≠ "")

/-! ## The methods `Init` -/

/-- The method `Init`: the plugin after it, and the error it returns.  The settings are made
even when there is an error. -/
def Plugin.init (config : StringMap Value) : Plugin → Plugin × Option String
  | cpuMemory .. =>
    let sampleMS := positiveIntOr config "sample_ms" 200
    let includeSwap := boolOr config "include_swap" true
    (.cpuMemory sampleMS includeSwap, if sampleMS ≤ 0 then some "sample_ms must be > 0" else none)
  | diskUsage .. =>
    let path := stringOr config "path" "/"
    let warnPercent := positiveOr config "warn_percent" 85
    let critPercent := positiveOr config "crit_percent" 95
    (.diskUsage path warnPercent critPercent,
      if warnPercent ≥ critPercent then some "warn_percent must be less than crit_percent"
      else none)
  | fileIntegrity .. =>
    let paths :=
      match config.get? "paths" with
      | some (.list v) => nonEmpty v
      | some (.strings v) => if v ≠ [] then v else ["/etc", "/bin"]
      | _ => ["/etc", "/bin"]
    (.fileIntegrity paths, if paths = [] then some "paths must not be empty" else none)
  | loadAverage => (.loadAverage, none)
  | processMonitor .. =>
    let whitelistPrefixes :=
      match config.get? "whitelist_prefixes" with
      | some (.list v) => nonEmpty v
      | some (.strings v) => v
      | _ => []
    (.processMonitor whitelistPrefixes, none)
  | authLogMonitor .. =>
    let failedPatterns :=
      match config.get? "failed_patterns" with
      | some (.list v) =>
        if v ≠ [] then nonEmpty v
        else ["Failed password", "authentication failure", "Invalid user"]
      | _ => ["Failed password", "authentication failure", "Invalid user"]
    (.authLogMonitor (stringOr config "path" "/var/log/auth.log") failedPatterns
      (positiveIntOr config "max_lines" 500), none)
  | networkListeners .. =>
    (.networkListeners (stringOr config "tcp_path" "/proc/net/tcp")
      (stringOr config "udp_path" "/proc/net/udp"), none)
  | uptime => (.uptime, none)

/-- The plugin initialised from a map. -/
def Plugin.initialised (config : StringMap Value) (p : Plugin) : Plugin := (p.init config).1

/-- Nothing is left of an earlier initialisation. -/
@[simp] lemma initialised_initialised (c d : StringMap Value) (p : Plugin) :
    (p.initialised c).initialised d = p.initialised d := by
  cases p <;> rfl

@[simp] lemma name_initialised (c : StringMap Value) (p : Plugin) :
    (p.initialised c).name = p.name := by
  cases p <;> rfl

/-- The defaults of every plugin pass its own check, the empty map giving the defaults. -/
theorem init_empty (p : Plugin) : (p.init .empty).2 = none := by
  have hwarn : ¬ (positiveOr .empty "warn_percent" 85 ≥ positiveOr .empty "crit_percent" 95) := by
    decide +kernel
  cases p with
  | diskUsage =>
    rw [Plugin.init]
    dsimp only
    rw [if_neg hwarn]
  | _ => rfl

/-! ## The manager -/

/-- The map `plugins` of the manager in `internal/scanner/manager.go`. -/
structure Manager where
  plugins : List (String × Plugin)

namespace Manager

/-- The method `Register`. -/
def register (m : Manager) (p : Plugin) : Except String Manager :=
  if p.name = "" then .error "plugin name is required"
  else if p.name ∈ m.plugins.map Prod.fst then
    .error ("plugin " ++ quote p.name ++ " already registered")
  else .ok ⟨m.plugins ++ [(p.name, p)]⟩

/-- The method `Get`. -/
def get (m : Manager) (name : String) : Except String Plugin :=
  match m.plugins.lookup name with
  | none => .error ("plugin " ++ quote name ++ " not found")
  | some p => .ok p

/-- The plugins as the daemon makes them, before any is initialised. -/
def builtIn : List Plugin :=
  [.cpuMemory 0 false, .diskUsage "" 0 0, .fileIntegrity [], .loadAverage, .processMonitor [],
    .authLogMonitor "" [] 0, .networkListeners "" "", .uptime]

/-- The manager with the plugins of the daemon; the error of a registration is logged. -/
def new : Manager :=
  builtIn.foldl (fun m p => ((m.register p).toOption).getD m) ⟨[]⟩

/-- The plugin of a name is initialised, wherever it is used. -/
def initPlugin (m : Manager) (name : String) (config : StringMap Value) : Manager :=
  ⟨m.plugins.map fun e => (e.1, if e.1 = name then e.2.initialised config else e.2)⟩

lemma get_eq_ok {m : Manager} {name : String} {p : Plugin} :
    m.get name = .ok p ↔ m.plugins.lookup name = some p := by
  rw [get]
  cases m.plugins.lookup name <;> simp

/-- The plugins have the same names and are initialised alike. -/
def Alike (m n : Manager) : Prop :=
  ∀ name, (m.plugins.lookup name).map (fun p c => p.initialised c) =
    (n.plugins.lookup name).map fun p c => p.initialised c

lemma lookup_initPlugin (m : Manager) (name : String) (config : StringMap Value) (n : String) :
    (m.initPlugin name config).plugins.lookup n =
      (m.plugins.lookup n).map fun p => if n = name then p.initialised config else p := by
  obtain ⟨plugins⟩ := m
  rw [initPlugin]
  dsimp only
  induction plugins with
  | nil => rfl
  | cons e plugins ih =>
    obtain ⟨key, p⟩ := e
    rw [List.map_cons, List.lookup_cons, List.lookup_cons]
    by_cases hn : n = key
    · subst hn
      simp
    · have hne : (n == key) = false := by simpa using hn
      rw [hne]
      exact ih

lemma Alike.initPlugin {m n : Manager} (h : Alike m n) (name : String) (config : StringMap Value) :
    Alike (m.initPlugin name config) n := by
  intro key
  rw [← h key, lookup_initPlugin, Option.map_map]
  refine congrArg (fun f => (m.plugins.lookup key).map f) (funext fun p => funext fun c => ?_)
  rw [Function.comp_apply]
  split_ifs <;> simp

end Manager

/-! ## A map that is refused -/

/-- The check at the end of `Init`, which looks at the settings only. -/
def Plugin.check : Plugin → Option String
  | cpuMemory sampleMS _ => if sampleMS ≤ 0 then some "sample_ms must be > 0" else none
  | diskUsage _ warnPercent critPercent =>
    if warnPercent ≥ critPercent then some "warn_percent must be less than crit_percent" else none
  | fileIntegrity paths => if paths = [] then some "paths must not be empty" else none
  | _ => none

/-- The settings are made first and then checked. -/
lemma init_eq (config : StringMap Value) (p : Plugin) :
    p.init config = (p.initialised config, (p.initialised config).check) := by
  cases p <;> rfl

/-- **A map that is refused changes the settings.**  They were settings that pass the check,
and what `Init` leaves behind does not; the manager goes on with the latter. -/
theorem ne_of_init_error {c d : StringMap Value} {p : Plugin} {err : String}
    (haccepted : (p.init c).2 = none)
    (hrefused : ((p.initialised c).init d).2 = some err) :
    ((p.initialised c).init d).1 ≠ p.initialised c ∧
      ∀ m : Manager, m.get p.name = .ok (p.initialised c) →
        (m.initPlugin p.name d).get p.name ≠ .ok (p.initialised c) := by
  have hne : (p.initialised c).initialised d ≠ p.initialised c := by
    rw [init_eq] at haccepted hrefused
    dsimp only at haccepted hrefused
    intro hsame
    rw [hsame, haccepted] at hrefused
    cases hrefused
  refine ⟨hne, ?_⟩
  intro m hm hkept
  rw [Manager.get_eq_ok] at hm hkept
  rw [Manager.lookup_initPlugin, hm, Option.map_some, if_pos rfl] at hkept
  exact hne (Option.some.inj hkept)

/-- A map with one entry. -/
def entry (key : String) (v : Value) : StringMap Value := ⟨[(key, v)], by simp⟩

/-- A warning at 97 percent, above the default for what is critical, is refused by a plugin
with its default settings. -/
theorem diskUsage_ne_of_init_error :
    ((Plugin.diskUsage "/" 85 95).init (entry "warn_percent" (.float64 97))).1 ≠
      .diskUsage "/" 85 95 :=
  (@ne_of_init_error .empty (entry "warn_percent" (.float64 97)) (.diskUsage "" 0 0)
    "warn_percent must be less than crit_percent" (by decide +kernel) (by decide +kernel)).1

/-- The warning is then at 97 percent. -/
theorem not_kept_of_init_error :
    ¬ ∀ (p : Plugin) (c d : StringMap Value) (err : String), (p.init c).2 = none →
      ((p.initialised c).init d).2 = some err →
      ((p.initialised c).init d).1 = p.initialised c := by
  intro h
  have hkept := h (.diskUsage "" 0 0) .empty (entry "warn_percent" (.float64 97))
    "warn_percent must be less than crit_percent" (by decide +kernel) (by decide +kernel)
  have hinit : (((Plugin.diskUsage "" 0 0).initialised .empty).init
      (entry "warn_percent" (.float64 97))).1 = .diskUsage "/" 97 95 := by decide +kernel
  rw [hinit] at hkept
  exact absurd hkept (by decide +kernel)

end Arcsent.Plugins
