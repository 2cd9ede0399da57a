/-
# The signature updater

`internal/signatures/updater.go`.  Runs of the updater exclude each other by a lock, and
the configuration has a lock of its own.  A run reads the configuration once, but it looks
every source up in the table of sources when its turn comes, and callers check that the
updater is enabled before they wait for the lock.  A step of the system is one of these
accesses, a call of `UpdateConfig`, or the end of a download.
-/
import Arcsent.Lib.Runs
import Arcsent.Signatures.Registry
import Arcsent.Storage.Badger

namespace Arcsent.Signatures

open Arcsent.Go Arcsent.Storage Arcsent.Lib

/-- The settings of the updater. -/
structure UpdaterConfig where
  enabled : Bool
  updateInterval : Duration
  sources : List String
  cacheDir : String
  airgapImportPath : String
  /-- The overrides of the addresses, a map. -/
  sourceURLs : List (String × String)
deriving DecidableEq

/-- A source that is downloaded. -/
structure HTTPSource where
  id : String
  url : String
deriving DecidableEq

/-- What became of one source in a run. -/
structure SourceStatus where
  source : String
  url : String
  path : String
  bytes : ℤ
  updatedAt : Time
  duration : String
  error : String
deriving DecidableEq

/-- What became of a run.  The entries of `sources` are a map. -/
structure Status where
  lastRun : Time
  nextRun : Time
  airgapMode : Bool
  airgapImportPath : String
  sources : List (String × SourceStatus)
deriving DecidableEq

/-- The status with the entry of a source set. -/
def Status.setSource (status : Status) (id : String) (s : SourceStatus) : Status :=
  { status with sources := (id, s) :: status.sources.filter fun e => e.1 ≠ id }

def defaultSourceURLs : List (String × String) :=
  [(sourceMITREATTACK,
      "https://raw.githubusercontent.com/mitre/cti/master/enterprise-attack/enterprise-attack.json"),
    (sourceNVD, "https://nvd.nist.gov/feeds/json/cve/2.0/nvdcve-2.0-recent.json.gz"),
    (sourceCISAKEV,
      "https://www.cisa.gov/sites/default/files/feeds/known_exploited_vulnerabilities.json"),
    (sourceExploitDB,
      "https://gitlab.com/exploit-database/exploitdb/-/raw/main/files_exploits.csv"),
    (sourceOSV, ""), (sourceMITRECAPEC, ""), (sourceMITRECWE, ""), (sourceEPSS, ""),
    (sourceGHSA, "")]

/-- The function `builtInSources`: the source with an identifier, if there is one. -/
def builtInSources (overrides : List (String × String)) (id : String) : Option HTTPSource :=
  ((overrides.lookup id).or (defaultSourceURLs.lookup id)).map fun url => ⟨id, url⟩

lemma id_of_builtInSources {overrides : List (String × String)} {id : String} {src : HTTPSource}
    (h : builtInSources overrides id = some src) : src.id = id := by
  obtain ⟨url, -, rfl⟩ := Option.map_eq_some_iff.mp h
  rfl

/-- Who has called `runOnce`. -/
inductive Caller
  | start
  | trigger
deriving DecidableEq

/-- The local variables of `runOnce`, with the number of the run and of the version of the
configuration it has read. -/
structure Run where
  number : ℕ
  version : ℕ
  cfg : UpdaterConfig
  /-- The sources whose turn has not come yet. -/
  left : List String
  status : Status

/-- How far a caller has come. -/
inductive Pc
  /-- Before the configuration is checked. -/
  | checking (caller : Caller)
  /-- In one of the waits of the loop of `Start`. -/
  | sleeping
  /-- Waiting for the lock of the runs. -/
  | waiting (caller : Caller)
  /-- Holding it, before the configuration is read. -/
  | reading (caller : Caller)
  /-- Importing from the path of the configuration. -/
  | importing (caller : Caller) (r : Run)
  /-- At the head of the loop over the sources. -/
  | running (caller : Caller) (r : Run)
  /-- In the method `Update` of a source. -/
  | updating (caller : Caller) (r : Run) (src : HTTPSource)
  | returned

/-- What a caller does next. -/
inductive Move
  /-- It goes on by itself. -/
  | go
  /-- Its wait is over. -/
  | wake
  /-- Its context is done. -/
  | halt
  /-- The import ends. -/
  | imported (err : Option String)
  /-- The source has been updated. -/
  | updated (s : SourceStatus) (err : Option String)

/-- A step of the system. -/
inductive Event
  | tick (d : ℕ)
  | updateConfig (cfg : UpdaterConfig)
  | trigger
  | client (i : ℕ) (move : Move)

/-- A call of the method `Update` of a source: in which run, with which configuration, and
from which version of the table. -/
structure Call where
  run : ℕ
  version : ℕ
  cfg : UpdaterConfig
  source : HTTPSource
  table : ℕ

/-- The updater with its callers.  What the code does not keep is the past configurations,
the number of the runs and the calls that were made. -/
structure System (V : Type) where
  cfg : UpdaterConfig
  sources : String → Option HTTPSource
  /-- The caller that holds the lock of the runs. -/
  holder : Option ℕ
  lastRun : Time
  nextRun : Time
  store : Option (BadgerStore V)
  clients : List Pc
  clock : Time
  past : List UpdaterConfig
  runs : ℕ
  calls : List Call

variable {V : Type} (codec : Codec Status V)

/-- The function `NewUpdater`, with its loop about to start. -/
def System.init (cfg : UpdaterConfig) (store : Option (BadgerStore V)) (clock : Time) : System V :=
  { cfg := cfg, sources := builtInSources cfg.sourceURLs, holder := none, lastRun := 0, nextRun := 0
    store := store, clients := [.checking .start], clock := clock, past := [], runs := 0
    calls := [] }

/-- The number of the current version of the configuration. -/
def System.version (s : System V) : ℕ := s.past.length

/-- The configuration of a version. -/
def System.versionOf (s : System V) (v : ℕ) : Option UpdaterConfig := (s.past ++ [s.cfg])[v]?

def signaturesBucket : Bytes := bytes "signatures"

def signaturesStatusKey : Bytes := bytes "status"

/-- The method `SaveStatus`, whose error the updater drops. -/
def saveStatus (store : Option (BadgerStore V)) (status : Status) : Option (BadgerStore V) :=
  store.map fun s =>
    ((s.put signaturesBucket signaturesStatusKey (codec.marshal status)).toOption).getD s

/-- The method `LoadStatus`. -/
def loadStatus (s : BadgerStore V) : Except Error Status :=
  match s.get signaturesBucket signaturesStatusKey with
  | .error .notFound => .ok ⟨0, 0, false, "", []⟩
  | .error err => .error err
  | .ok raw =>
    match codec.unmarshal raw with
    | .error err => .error (.text ("decode signatures status: " ++ err))
    | .ok status => .ok status

/-- The method `UpdateConfig`. -/
def System.updateConfig (s : System V) (cfg : UpdaterConfig) : System V :=
  { s with cfg := cfg, sources := builtInSources cfg.sourceURLs, past := s.past ++ [s.cfg] }

/-- Where a caller goes on after its run. -/
def Caller.resume : Caller → Pc
  | .start => .sleeping
  | .trigger => .returned

/-- The check of a caller before the run. -/
def Caller.check (cfg : UpdaterConfig) : Caller → Pc
  | .start =>
    if !cfg.enabled then .sleeping
    else if cfg.updateInterval ≤ 0 then .sleeping
    else .waiting .start
  | .trigger => if !cfg.enabled then .returned else .waiting .trigger

/-- The status at the start of a run. -/
def newStatus (cfg : UpdaterConfig) (now nextRun : Time) : Status :=
  { lastRun := now
    nextRun := if cfg.updateInterval > 0 then nextRun else 0
    airgapMode := cfg.airgapImportPath ≠ ""
    airgapImportPath := cfg.airgapImportPath
    sources := [] }

/-- The entry of an import. -/
def importStatus (cfg : UpdaterConfig) (now : Time) : Option String → SourceStatus
  | some err => ⟨"airgap", "", "", 0, 0, "", err⟩
  | none => ⟨"airgap", "", cfg.cacheDir, 0, now, "", ""⟩

/-- The start of a run, up to the loop over the sources. -/
def System.beginRun (s : System V) (caller : Caller) : System V × Pc :=
  let nextRun := if s.cfg.updateInterval > 0 then s.clock + s.cfg.updateInterval else s.nextRun
  let r : Run := ⟨s.runs, s.version, s.cfg, s.cfg.sources, newStatus s.cfg s.clock nextRun⟩
  ({ s with lastRun := s.clock, nextRun := nextRun, runs := s.runs + 1 },
    if s.cfg.airgapImportPath ≠ "" then .importing caller r else .running caller r)

/-- The end of a run. -/
def System.endRun (s : System V) (caller : Caller) (status : Status) : System V × Pc :=
  ({ s with store := saveStatus codec s.store status, holder := none }, caller.resume)

/-- The turn of a source: it is looked up, and updated if it is registered. -/
def System.lookup (s : System V) (caller : Caller) (r : Run) (id : String) (left : List String) :
    System V × Pc :=
  match s.sources id with
  | none =>
    (s, .running caller { r with
      left := left
      status := r.status.setSource id ⟨id, "", "", 0, 0, "", "source not registered"⟩ })
  | some src =>
    ({ s with calls := s.calls ++ [⟨r.number, r.version, r.cfg, src, s.version⟩] },
      .updating caller { r with left := left } src)

/-- A step of `Start`, `Trigger` and `runOnce` by the caller `i`.  `none` when it cannot make
that move. -/
def clientMove (s : System V) (i : ℕ) : Pc → Move → Option (System V × Pc)
  | .checking caller, .go => some (s, caller.check s.cfg)
  | .sleeping, .wake => some (s, .checking .start)
  | .sleeping, .halt => some (s, .returned)
  | .waiting caller, .go =>
    if s.holder = none then some ({ s with holder := some i }, .reading caller) else none
  | .reading caller, .go => some (s.beginRun caller)
  | .importing caller r, .imported err =>
    some (s.endRun codec caller (r.status.setSource "airgap" (importStatus r.cfg s.clock err)))
  | .running caller r, .go =>
    match r.left with
    | [] => some (s.endRun codec caller r.status)
    | id :: left => some (s.lookup caller r id left)
  | .updating caller r src, .updated st err =>
    let st := match err with | none => st | some err => { st with error := err }
    some (s, .running caller { r with status := r.status.setSource src.id st })
  | _, _ => none

/-- A step of the system. -/
def step (s : System V) : Event → Option (System V)
  | .tick d => some { s with clock := s.clock + d }
  | .updateConfig cfg => some (s.updateConfig cfg)
  | .trigger => some { s with clients := s.clients ++ [.checking .trigger] }
  | .client i move => do
    let pc ← s.clients[i]?
    let (t, pc) ← clientMove codec s i pc move
    some { t with clients := t.clients.set i pc }

end Arcsent.Signatures
