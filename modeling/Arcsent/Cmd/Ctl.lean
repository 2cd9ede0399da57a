/-
# The command line of `ctl`

The function `runCLI` of `cmd/arcsent/main.go`: flags, then a command with its sub-command.
The flag package stops at the first word that is no flag, so that a flag behind the command is
never read; it is taken for the sub-command or not looked at at all.
-/
import Arcsent.Go.Case
import Arcsent.Go.Flag
import Arcsent.Lib.Separators

namespace Arcsent.Cmd

open Arcsent.Go Arcsent.Go.Flag Arcsent.Lib

/-! ## The flags -/

/-- The constant `config.DefaultConfigPath`. -/
def defaultConfigPath : String := "configs/config.json"

/-- The variables of the flags, with their defaults. -/
structure Settings where
  addr : String := "http://127.0.0.1:8788"
  token : String := ""
  format : String := "json"
  plugin : String := ""
  pretty : Bool := false
  configPath : String := defaultConfigPath
  envFile : String := ""
deriving DecidableEq

/-- The flags that are defined. -/
def ctlFlags (name : String) : Option (Formal Settings) :=
  match name with
  | "addr" => some (.string fun v s => { s with addr := v })
  | "token" => some (.string fun v s => { s with token := v })
  | "format" => some (.string fun v s => { s with format := v })
  | "plugin" => some (.string fun v s => { s with plugin := v })
  | "pretty" => some (.bool fun b s => { s with pretty := b })
  | "config" => some (.string fun v s => { s with configPath := v })
  | "env-file" => some (.string fun v s => { s with envFile := v })
  | _ => none

/-! ## The client -/

/-- The record `Client` of `internal/cli`. -/
structure Client where
  baseURL : String
  token : String
deriving DecidableEq

/-- The function `strings.TrimRight` for one character. -/
def trimRight (s : String) (c : Char) : String :=
  String.ofList (s.toList.reverse.dropWhile (· = c)).reverse

def newClient (baseURL token : String) : Client := ⟨trimRight baseURL '/', token⟩

/-- A request as the client makes it; `contentType` is the header that only `DoJSON` sets. -/
structure Request where
  method : String
  url : String
  authorization : String
  contentType : Option String
deriving DecidableEq

/-- The method `DoJSON`, always called without a body. -/
def Client.doJSON (c : Client) (method path : String) : Request where
  method := method
  url := c.baseURL ++ path
  authorization := c.token
  contentType := some "application/json"

/-- The method `DoText`. -/
def Client.doText (c : Client) (method path : String) : Request where
  method := method
  url := c.baseURL ++ path
  authorization := c.token
  contentType := none

/-! ## The commands -/

/-- What `ctl` does once it has read its command line. -/
inductive Action where
  | request (r : Request)
  | validate (configPath envFile : String)
  | storageCheck (configPath envFile : String)
deriving DecidableEq

/-- How a run of `ctl` goes on: it ends, or it does something and prints the result, indented
or not. -/
inductive Outcome where
  | exit (code : ℕ) (stderr : String)
  | perform (action : Action) (pretty : Bool)
deriving DecidableEq

/-- The text that `usageCLI` writes. -/
def usage : String := join "\n" [
  "Usage: arcsent ctl [flags] <command>",
  "",
  "Commands:",
  "  status",
  "  health",
  "  scanners",
  "  findings",
  "  baselines",
  "  results [latest|history]",
  "  trigger <plugin>",
  "  signatures status|update",
  "  export results|baselines",
  "  metrics",
  "  validate",
  "  storage-check",
  "",
  "Flags:",
  "  -addr http://127.0.0.1:8788",
  "  -token <token> (or ARCSENT_TOKEN)",
  "  -plugin <plugin> (for trigger)",
  "  -format json|csv (for export)",
  "  -pretty (pretty-print JSON)",
  "  -config <path> (for validate/storage-check)",
  "  -env-file <path> (optional env file for validate/storage-check)"] ++ "\n"

/-- The `switch` over the commands, with the first two words after the flags. -/
def runCommand (flags : Settings) (client : Client) (cmd sub : String) : Outcome :=
  let get := fun path => Outcome.perform (.request (client.doJSON "GET" path)) flags.pretty
  let post := fun path => Outcome.perform (.request (client.doJSON "POST" path)) flags.pretty
  let text := fun path => Outcome.perform (.request (client.doText "GET" path)) flags.pretty
  match cmd with
  | "status" => get "/status"
  | "health" => get "/health"
  | "scanners" => get "/scanners"
  | "findings" => get "/findings"
  | "baselines" => get "/baselines"
  | "results" =>
    if sub = "latest" then get "/results/latest"
    else if sub = "history" ∨ sub = "" then get "/results/history"
    else .exit 2 usage
  | "trigger" =>
    let name := if flags.plugin = "" ∧ sub ≠ "" then sub else flags.plugin
    if name = "" then .exit 2 "ctl error: plugin name is required\n"
    else post ("/scanners/trigger/" ++ name)
  | "signatures" =>
    match sub with
    | "status" => get "/signatures/status"
    | "update" => post "/signatures/update"
    | _ => .exit 2 usage
  | "export" =>
    match sub with
    | "results" => text ("/export/results?format=" ++ toLower flags.format)
    | "baselines" => text ("/export/baselines?format=" ++ toLower flags.format)
    | _ => .exit 2 usage
  | "metrics" => text "/metrics"
  | "validate" => .perform (.validate flags.configPath flags.envFile) flags.pretty
  | "storage-check" => .perform (.storageCheck flags.configPath flags.envFile) flags.pretty
  | _ => .exit 2 usage

/-- The part of `runCLI` after the flags, `env` being the variable `ARCSENT_TOKEN`. -/
def afterFlags (env : String) (flags : Settings) (args : List String) : Outcome :=
  let token := if flags.token = "" then env else flags.token
  if token = "" then
    .exit 1 "ctl error: token is required (use -token or ARCSENT_TOKEN)\n"
  else
    match args with
    | [] => .exit 2 usage
    | cmd :: rest => runCommand flags (newClient flags.addr token) cmd (rest.headD "")

/-- The function `runCLI`.  What the flag package prints about its flags when it cannot read the
arguments, or is asked for help, is left out. -/
def runCLI (env : String) (args : List String) : Outcome :=
  match parse ctlFlags args {} with
  | .error .help => .exit 0 ""
  | .error (.text msg) => .exit 2 msg
  | .ok (flags, rest) => afterFlags env flags rest

/-- What is done, and whether the result is indented. -/
def Outcome.effect : Outcome → Option (Action × Bool)
  | .exit _ _ => none
  | .perform action pretty => some (action, pretty)

/-! ## The commands with their sub-commands -/

inductive ResultsView where
  | latest
  | history
deriving DecidableEq

inductive SignaturesVerb where
  | status
  | update
deriving DecidableEq

inductive ExportKind where
  | results
  | baselines
deriving DecidableEq

/-- The commands that `usage` lists. -/
inductive Command where
  | status
  | health
  | scanners
  | findings
  | baselines
  | metrics
  | results (view : Option ResultsView)
  /-- The plugin stands behind the command or in a flag. -/
  | trigger (plugin : Option String)
  | signatures (verb : SignaturesVerb)
  | exports (kind : ExportKind)
  | validate
  | storageCheck
deriving DecidableEq

/-- The word of a command. -/
def Command.word : Command → String
  | .status => "status"
  | .health => "health"
  | .scanners => "scanners"
  | .findings => "findings"
  | .baselines => "baselines"
  | .metrics => "metrics"
  | .results _ => "results"
  | .trigger _ => "trigger"
  | .signatures _ => "signatures"
  | .exports _ => "export"
  | .validate => "validate"
  | .storageCheck => "storage-check"

/-- The word of its sub-command. -/
def Command.sub : Command → Option String
  | .results (some .latest) => some "latest"
  | .results (some .history) => some "history"
  | .trigger plugin => plugin
  | .signatures .status => some "status"
  | .signatures .update => some "update"
  | .exports .results => some "results"
  | .exports .baselines => some "baselines"
  | _ => none

def Command.words (c : Command) : List String := c.word :: c.sub.toList

lemma headD_toList (word : Option String) : word.toList.headD "" = word.getD "" := by
  cases word <;> rfl

/-! ## Flags before and behind -/

variable {env : String} {c : Command} {flags : List String} {s : Settings}

/-- The token with which a run goes on. -/
def tokenOf (env : String) (s : Settings) : String := if s.token = "" then env else s.token

lemma readWord_word (c : Command) : readWord c.word = .notFlag := by
  have hwords : ∀ word ∈ ["status", "health", "scanners", "findings", "baselines", "metrics",
      "results", "trigger", "signatures", "export", "validate", "storage-check"],
      readWord word = .notFlag := by decide
  exact hwords c.word (by cases c <;> simp [Command.word])

/-- Flags before the command are read. -/
lemma runCLI_early (h : parse ctlFlags flags {} = .ok (s, [])) (env : String) (c : Command) :
    runCLI env (flags ++ c.words) = afterFlags env s c.words := by
  rw [runCLI, Command.words, parse_append (readWord_word c) _ h]

/-- Flags behind the command are not. -/
lemma runCLI_late (env : String) (c : Command) (flags : List String) :
    runCLI env (c.words ++ flags) = afterFlags env {} (c.words ++ flags) := by
  rw [runCLI, Command.words, List.cons_append, parse_of_notFlag (readWord_word c)]

lemma afterFlags_words (env : String) (s : Settings) (c : Command) (flags : List String) :
    afterFlags env s (c.words ++ flags) =
      if tokenOf env s = "" then
        .exit 1 "ctl error: token is required (use -token or ARCSENT_TOKEN)\n"
      else runCommand s (newClient s.addr (tokenOf env s)) c.word
        ((c.sub.toList ++ flags).headD "") := rfl

/-- The server that is asked is the default one, with the token of the environment. -/
structure SameServer (env : String) (s : Settings) : Prop where
  addr : trimRight s.addr '/' = "http://127.0.0.1:8788"
  token : s.token = "" ∨ s.token = env

/-- The plugin that is triggered: the flag has precedence over the word. -/
def pluginOf (s : Settings) (sub : String) : String :=
  if s.plugin = "" then sub else s.plugin

@[simp] lemma pluginOf_default (sub : String) : pluginOf {} sub = sub := rfl

/-- What a command reads of the flags is what it would read without them. -/
def Command.Unread (env : String) (flags : List String) (s : Settings) : Command → Prop
  | .results none => flags = []
  | .trigger plugin =>
    (s.token = "" ∨ s.token = env) ∧ pluginOf s (plugin.getD "") ≠ "" ∧
      (plugin.toList ++ flags).headD "" ≠ "" ∧
      trimRight s.addr '/' ++ ("/scanners/trigger/" ++ pluginOf s (plugin.getD "")) =
        "http://127.0.0.1:8788" ++ ("/scanners/trigger/" ++ (plugin.toList ++ flags).headD "")
  | .exports _ => SameServer env s ∧ toLower s.format = "json"
  | .validate => s.configPath = defaultConfigPath ∧ s.envFile = ""
  | .storageCheck => s.configPath = defaultConfigPath ∧ s.envFile = ""
  | _ => SameServer env s

/-- Nothing is asked for wherever the flags stand: there is no token, or nothing names a
plugin to trigger. -/
def Command.Void (env : String) (flags : List String) (s : Settings) (c : Command) : Prop :=
  tokenOf env s = "" ∨
    ∃ plugin, c = .trigger plugin ∧ pluginOf s (plugin.getD "") = "" ∧
      (env = "" ∨ (plugin.toList ++ flags).headD "" = "")

lemma tokenOf_eq_iff : tokenOf env s = env ↔ s.token = "" ∨ s.token = env := by
  rw [tokenOf]
  split_ifs with htoken
  · simp [htoken]
  · simp [htoken]

@[simp] lemma trimRight_addr :
    trimRight ({} : Settings).addr '/' = "http://127.0.0.1:8788" := by decide

/-- The requests of two placements are the same. -/
lemma effect_request {method path path' : String} {contentType : Option String} :
    (Outcome.perform (.request ⟨method, trimRight s.addr '/' ++ path, tokenOf env s, contentType⟩)
          s.pretty).effect =
        (Outcome.perform (.request ⟨method, trimRight ({} : Settings).addr '/' ++ path', env,
          contentType⟩) false).effect ↔
      s.pretty = false ∧ (s.token = "" ∨ s.token = env) ∧
        trimRight s.addr '/' ++ path = "http://127.0.0.1:8788" ++ path' := by
  rw [← tokenOf_eq_iff]
  simp [Outcome.effect]
  tauto

/-- So are the files that are looked at. -/
lemma effect_config {action : String → String → Action} (haction : Function.Injective2 action) :
    (Outcome.perform (action s.configPath s.envFile) s.pretty).effect =
        (Outcome.perform (action defaultConfigPath "") false).effect ↔
      s.pretty = false ∧ s.configPath = defaultConfigPath ∧ s.envFile = "" := by
  simp [Outcome.effect, haction.eq_iff]
  tauto

lemma sameServer_iff {path : String} :
    ((s.token = "" ∨ s.token = env) ∧
        trimRight s.addr '/' ++ path = "http://127.0.0.1:8788" ++ path) ↔ SameServer env s := by
  rw [String.append_left_inj]
  exact ⟨fun h => ⟨h.2, h.1⟩, fun h => ⟨h.token, h.addr⟩⟩

lemma runCommand_trigger (s : Settings) (client : Client) (sub : String) :
    runCommand s client "trigger" sub =
      if pluginOf s sub = "" then .exit 2 "ctl error: plugin name is required\n"
      else .perform (.request (client.doJSON "POST" ("/scanners/trigger/" ++ pluginOf s sub)))
        s.pretty := by
  have hname : (if s.plugin = "" ∧ sub ≠ "" then sub else s.plugin) = pluginOf s sub := by
    rw [pluginOf]
    split_ifs <;> simp_all
  rw [← hname]
  rfl

/-- A flag is no view of the results. -/
lemma effect_results_flag {client : Client} {word : String} (h : readWord word ≠ .notFlag) :
    (runCommand s client "results" word).effect = none := by
  have hviews : ∀ view ∈ ["latest", "history", ""], readWord view = .notFlag := by decide
  have hword : ∀ view ∈ ["latest", "history", ""], word ≠ view := by
    rintro view hview rfl
    exact h (hviews _ hview)
  have hrun : runCommand s client "results" word =
      if word = "latest" then
        .perform (.request (client.doJSON "GET" "/results/latest")) s.pretty
      else if word = "history" ∨ word = "" then
        .perform (.request (client.doJSON "GET" "/results/history")) s.pretty
      else .exit 2 usage := rfl
  rw [hrun, if_neg (hword _ (by simp)), if_neg (by simp [hword])]
  rfl

/-- The address and the format can be read off the request for an export. -/
lemma export_url_iff {path addr format : String}
    (hpath : path ∈ ["/export/results?format=", "/export/baselines?format="]) :
    addr ++ (path ++ format) = "http://127.0.0.1:8788" ++ (path ++ "json") ↔
      addr = "http://127.0.0.1:8788" ∧ format = "json" := by
  have hfront : ∀ path ∈ ["/export/results?format=", "/export/baselines?format="],
      ∀ z ∈ "http://127.0.0.1:8788".toList.tails, z ≠ [] →
        ¬ z <+: path.toList ∧ ¬ path.toList <+: z := by decide +kernel
  have hmark : ∀ path ∈ ["/export/results?format=", "/export/baselines?format="],
      ∀ z ∈ (path.toList ++ "json".toList).inits, z ≠ [] →
        ¬ z ++ path.toList <+: path.toList ++ "json".toList := by decide +kernel
  rw [← String.toList_inj, ← String.toList_inj, ← String.toList_inj, String.toList_append,
    String.toList_append, String.toList_append, String.toList_append]
  exact append_mark_inj (hfront path hpath) (hmark path hpath)

/-- With a token in the environment and one for the run, the effect is the same exactly when
the flags change nothing. -/
lemma effect_eq_iff (h : parse ctlFlags flags {} = .ok (s, []))
    (hplugin : ∀ plugin, c = .trigger plugin →
      pluginOf s (plugin.getD "") ≠ "" ∨ (plugin.toList ++ flags).headD "" ≠ "") :
    (runCommand s (newClient s.addr (tokenOf env s)) c.word (c.sub.toList.headD "")).effect =
        (runCommand {} (newClient ({} : Settings).addr env) c.word
          ((c.sub.toList ++ flags).headD "")).effect ↔
      s.pretty = false ∧ c.Unread env flags s := by
  cases c with
  | status | health | scanners | findings | baselines =>
    exact effect_request.trans (and_congr_right fun _ => sameServer_iff)
  | metrics => exact effect_request.trans (and_congr_right fun _ => sameServer_iff)
  | results view =>
    cases view with
    | some view =>
      cases view <;> exact effect_request.trans (and_congr_right fun _ => sameServer_iff)
    | none =>
      -- without a view the first word behind the command is taken for one
      cases flags with
      | nil =>
        obtain rfl := (Prod.mk.inj (Except.ok.inj h)).1
        exact ⟨fun _ => ⟨rfl, rfl⟩, fun _ => rfl⟩
      | cons word flags =>
        have hlate : (runCommand {} (newClient ({} : Settings).addr env) "results" word).effect =
            none := effect_results_flag (readWord_ne_of_parse h)
        refine ⟨fun heq => ?_, fun hunread => absurd hunread.2 (List.cons_ne_nil _ _)⟩
        exact absurd (heq.trans hlate) (Option.some_ne_none _)
  | trigger plugin =>
    rw [Command.word, Command.sub, runCommand_trigger, runCommand_trigger, headD_toList,
      pluginOf_default]
    -- either side may stop because it has no name of a plugin
    by_cases hname : pluginOf s (plugin.getD "") = ""
    · have hnext := (hplugin plugin rfl).resolve_left (not_not.mpr hname)
      rw [if_pos hname, if_neg hnext]
      exact ⟨fun heq => absurd heq.symm (Option.some_ne_none _), fun hu => absurd hname hu.2.2.1⟩
    · by_cases hnext : (plugin.toList ++ flags).headD "" = ""
      · rw [if_neg hname, if_pos hnext]
        exact ⟨fun heq => absurd heq (Option.some_ne_none _),
          fun hu => absurd hnext hu.2.2.2.1⟩
      · rw [if_neg hname, if_neg hnext]
        refine effect_request.trans (and_congr_right fun _ => ?_)
        exact ⟨fun hu => ⟨hu.1, hname, hnext, hu.2⟩, fun hu => ⟨hu.1, hu.2.2.2⟩⟩
  | signatures verb =>
    cases verb <;> exact effect_request.trans (and_congr_right fun _ => sameServer_iff)
  | exports kind =>
    have hformat : toLower ({} : Settings).format = "json" := by decide
    have hurl : ∀ path ∈ ["/export/results?format=", "/export/baselines?format="],
        ((s.token = "" ∨ s.token = env) ∧ trimRight s.addr '/' ++ (path ++ toLower s.format) =
          "http://127.0.0.1:8788" ++ (path ++ toLower ({} : Settings).format)) ↔
        SameServer env s ∧ toLower s.format = "json" := by
      intro path hpath
      rw [hformat, export_url_iff hpath]
      exact ⟨fun hu => ⟨⟨hu.2.1, hu.1⟩, hu.2.2⟩, fun hu => ⟨hu.1.token, hu.1.addr, hu.2⟩⟩
    cases kind <;> exact effect_request.trans (and_congr_right fun _ => hurl _ (by simp))
  | validate =>
    refine effect_config ?_
    rintro _ _ _ _ ⟨⟩
    exact ⟨rfl, rfl⟩
  | storageCheck =>
    refine effect_config ?_
    rintro _ _ _ _ ⟨⟩
    exact ⟨rfl, rfl⟩

/-- With a token, a command does nothing only if it is to trigger a plugin that is not
named. -/
lemma effect_eq_none_iff {client : Client} :
    (runCommand s client c.word (c.sub.toList.headD "")).effect = none ↔
      ∃ plugin, c = .trigger plugin ∧ pluginOf s (plugin.getD "") = "" := by
  constructor
  · intro h
    cases c with
    | trigger plugin =>
      rw [Command.word, Command.sub, runCommand_trigger, headD_toList] at h
      by_cases hname : pluginOf s (plugin.getD "") = ""
      · exact ⟨plugin, rfl, hname⟩
      · rw [if_neg hname] at h
        exact absurd h (Option.some_ne_none _)
    | results view =>
      rcases view with _ | _ | _ <;> exact absurd h (Option.some_ne_none _)
    | signatures verb => cases verb <;> exact absurd h (Option.some_ne_none _)
    | exports kind => cases kind <;> exact absurd h (Option.some_ne_none _)
    | _ => exact absurd h (Option.some_ne_none _)
  · rintro ⟨plugin, rfl, hname⟩
    rw [Command.word, Command.sub, runCommand_trigger, headD_toList, if_pos hname]
    rfl

/-- **Where flags may stand.**  For every command and every list of flags, a run with the
flags behind the command does what the run with the flags before it does exactly when neither
does anything, or the token is in the environment and the flags leave at its default what the
command reads. -/
theorem effect_late_iff (h : parse ctlFlags flags {} = .ok (s, [])) (env : String) (c : Command) :
    (runCLI env (flags ++ c.words)).effect = (runCLI env (c.words ++ flags)).effect ↔
      c.Void env flags s ∨ env ≠ "" ∧ s.pretty = false ∧ c.Unread env flags s := by
  have hearly := afterFlags_words env s c []
  rw [List.append_nil, List.append_nil] at hearly
  have hdefault : tokenOf env {} = env := rfl
  rw [runCLI_early h, runCLI_late, hearly, afterFlags_words, hdefault]
  -- without a token neither order does anything
  by_cases htoken : tokenOf env s = ""
  · have henv : env = "" := by
      rw [tokenOf] at htoken
      split_ifs at htoken with hflag
      · exact htoken
      · exact absurd htoken hflag
    rw [if_pos htoken, if_pos henv]
    exact iff_of_true rfl (.inl (.inl htoken))
  rw [if_neg htoken]
  -- the token stands behind the command only, where it is not read
  by_cases henv : env = ""
  · rw [if_pos henv]
    refine effect_eq_none_iff.trans ?_
    constructor
    · rintro ⟨plugin, hc, hname⟩
      exact .inl (.inr ⟨plugin, hc, hname, .inl henv⟩)
    · rintro ((hvoid | ⟨plugin, hc, hname, -⟩) | ⟨hne, -⟩)
      · exact absurd hvoid htoken
      · exact ⟨plugin, hc, hname⟩
      · exact absurd henv hne
  rw [if_neg henv]
  -- a name of a plugin is missing in both orders
  by_cases hnone : ∃ plugin, c = .trigger plugin ∧ pluginOf s (plugin.getD "") = "" ∧
      (plugin.toList ++ flags).headD "" = ""
  · obtain ⟨plugin, rfl, hname, hnext⟩ := hnone
    refine iff_of_true ?_ (.inl (.inr ⟨plugin, rfl, hname, .inr hnext⟩))
    rw [effect_eq_none_iff.mpr ⟨plugin, rfl, hname⟩]
    rw [Command.word, Command.sub, runCommand_trigger, pluginOf_default, if_pos hnext]
    rfl
  · refine (effect_eq_iff h fun plugin hc => ?_).trans ?_
    · by_contra hcontra
      rw [not_or, not_not, not_not] at hcontra
      exact hnone ⟨plugin, hc, hcontra⟩
    · constructor
      · exact fun hu => .inr ⟨henv, hu⟩
      · rintro ((hvoid | ⟨plugin, hc, hname, henv' | hnext⟩) | ⟨-, hu⟩)
        · exact absurd hvoid htoken
        · exact absurd henv' henv
        · exact absurd ⟨plugin, hc, hname, hnext⟩ hnone
        · exact hu

/-- The default address may stand behind the command. -/
theorem effect_late_status :
    (runCLI "secret" (["-addr=http://127.0.0.1:8788/"] ++ Command.status.words)).effect =
      (runCLI "secret" (Command.status.words ++ ["-addr=http://127.0.0.1:8788/"])).effect :=
  (effect_late_iff (s := { addr := "http://127.0.0.1:8788/" }) (by decide +kernel) "secret"
    .status).mpr (.inr ⟨by decide, rfl, by decide +kernel, .inl rfl⟩)

/-- An export in the format of the flag behind it is one in the default format. -/
theorem not_effect_late :
    ¬ ∀ (env : String) (c : Command) (flags : List String) (s : Settings),
      parse ctlFlags flags {} = .ok (s, []) →
      (runCLI env (flags ++ c.words)).effect = (runCLI env (c.words ++ flags)).effect := by
  intro h
  have hflags : parse ctlFlags ["-format", "csv"] {} = .ok ({ format := "csv" }, []) := by
    decide +kernel
  have hsame := h "secret" (.exports .results) ["-format", "csv"] { format := "csv" } hflags
  revert hsame
  decide +kernel

end Arcsent.Cmd
