/-
# The handlers of the API

What each handler of `internal/api/server.go` answers and does.  An answer is the value
that is encoded, before its encoding.
-/
import Arcsent.Detection.Baseline
import Arcsent.Plugins.Init
import Arcsent.Scheduler.Jobs
import Arcsent.Servers.Listener
import Arcsent.Signatures.Updater
import Arcsent.State.ResultCache

namespace Arcsent.Servers

open Arcsent.Go Arcsent.Storage Arcsent.Scanner Arcsent.Detection Arcsent.Plugins
open Arcsent.Scheduling Arcsent.State

/-! ## Responses -/

/-- A value that `writeJSON` encodes. -/
inductive Payload
  /-- A `map[string]string` with one entry. -/
  | entry (key text : String)
  | running (runningAsRoot : Bool)
  | scanners (plugins : List String) (jobs : List JobConfig)
      (states : List (String × JobState × Time))
  /-- A `*scanner.Result`; `none` is encoded as `null`. -/
  | result (r : Option Result)
  | summaries (rs : List ResultSummary)
  | findings (fs : List FindingSummary)
  | baselines (bs : List Baseline)
  | results (rs : List Result)
  | signatures (status : Signatures.Status)
  | emptyList
  | emptyMap

/-- A field of a row, before it is formatted. -/
inductive Cell
  | text (s : String)
  | int (n : ℤ)
  | float (x : ℚ)
  | time (t : Time)
  | duration (d : Duration)

inductive Body
  | empty
  | json (payload : Payload)
  | csv (headers : List String) (rows : List (List Cell))
  | text (s : String)
  /-- A page of the multiplexer. -/
  | html (page : Bytes)

/-- A response with the headers that the server sets. -/
structure Response where
  status : ℕ
  contentType : String
  location : Option Bytes
  body : Body

def writeJSON (status : ℕ) (payload : Payload) : Response :=
  ⟨status, "application/json", none, .json payload⟩

def writeCSV (headers : List String) (rows : List (List Cell)) : Response :=
  ⟨200, "text/csv", none, .csv headers rows⟩

/-- The answer to an error. -/
def writeError (status : ℕ) (message : String) : Response :=
  writeJSON status (.entry "error" message)

/-- What a request does besides. -/
inductive Effect
  | run (p : Plugin)
  /-- The result is given to the hook of the daemon. -/
  | onResult (r : Result)
  | updateSignatures

/-! ## The server -/

/-- What the server has been given.  The daemon always gives it a manager, a scheduler and
a cache; the others may be missing. -/
structure Server (κ V : Type) where
  cfg : APIConfig
  mgr : Plugins.Manager
  /-- `Register` keeps each plugin under its own name. -/
  named : ∀ e ∈ mgr.plugins, e.1 = e.2.name
  sched : Scheduler κ V
  results : ResultCache
  baseline : Option (BadgerStore V)
  resultsStore : Option (BadgerStore V)
  sigStore : Option (BadgerStore V)
  sigUpdater : Option Signatures.UpdaterConfig

/-- What a run of a plugin comes to. -/
inductive PluginRun
  | result (r : Result)
  | nilResult
  | error (msg : String)
  | panic

/-- What a handler finds out while it runs. -/
structure Surroundings where
  euid : ℕ
  /-- The order of the iteration over the latest results. -/
  latestOrder : List String
  run : Plugin → PluginRun
  started : Time
  finished : Time
  /-- What the run of the signature updater returns. -/
  update : Except String Signatures.Status

/-- The codecs of the records that the API shows. -/
structure Codecs (V : Type) where
  result : ResultCodec V
  baseline : Codec Baseline V
  signatures : Codec Signatures.Status V

variable {κ V : Type} (codecs : Codecs V) (w : Surroundings) (s : Server κ V)

/-! ## The handlers -/

def handleHealth : Response := writeJSON 200 (.entry "status" "ok")

def handleStatus : Response := writeJSON 200 (.running (w.euid = 0))

/-- The settings of the jobs, as `ListJobs` returns them. -/
def listJobs (sched : Scheduler κ V) : List JobConfig :=
  sched.current.filterMap fun id => (sched.objects[id]?).map Job.cfg

def handleScanners : Response :=
  let states := s.sched.jobs.filterMap fun (name, id) =>
    (s.sched.objects[id]?).map fun j => (name, j.state, j.nextRun)
  writeJSON 200 (.scanners (s.mgr.plugins.map Prod.fst) (listJobs s.sched) states)

/-- The method `RunOnce` of the scheduler.  After a panic it returns neither a result nor an
error. -/
def runOnce (mgr : Plugins.Manager) (name : String) :
    Except String (Option Result) × List Effect :=
  match mgr.get name with
  | .error err => (.error err, [])
  | .ok p =>
    match w.run p with
    | .panic => (.ok none, [.run p])
    | .error err => (.error err, [.run p])
    | .nilResult => (.error "plugin returned nil result", [.run p])
    | .result r =>
      let r := { r with
        startedAt := w.started, finishedAt := w.finished, duration := w.finished - w.started }
      (.ok (some r), [.run p, .onResult r])

/-- The handler takes the name out of the path of the request itself. -/
def handleTrigger (req : Request) : Response × List Effect :=
  let name := trimPrefix req.path "/scanners/trigger/"
  if name = "" then (writeError 400 "scanner name required", [])
  else
    match runOnce w s.mgr name with
    | (.error err, effects) => (writeError 400 err, effects)
    | (.ok result, effects) => (writeJSON 200 (.result result), effects)

def handleResultsLatest : Response :=
  writeJSON 200 (.summaries (s.results.latestSummaries w.latestOrder))

def handleResultsHistory : Response := writeJSON 200 (.summaries s.results.historySummaries)

def handleFindings : Response := writeJSON 200 (.findings s.results.findingsHistory)

def handleBaselines : Response :=
  match s.baseline with
  | none => writeJSON 200 .emptyList
  | some store =>
    match Detection.Manager.list codecs.baseline store with
    | .error err => writeError 500 err.message
    | .ok baselines => writeJSON 200 (.baselines baselines)

def resultsToRows (results : List Result) : List (List Cell) :=
  results.map fun res =>
    [.text res.scannerName, .text res.status.text, .int res.findings.length,
      .time res.startedAt, .time res.finishedAt, .duration res.duration]

def baselinesToRows (baselines : List Baseline) : List (List Cell) :=
  baselines.map fun b =>
    [.text b.scannerName, .text b.metric, .int b.count, .float b.mean, .float b.min, .float b.max,
      .time b.updatedAt]

def handleExportResults (req : Request) : Response :=
  match s.resultsStore with
  | none => writeJSON 200 .emptyList
  | some store =>
    match ResultsStore.list codecs.result store with
    | .error err => writeError 500 err.message
    | .ok results =>
      if getFirst req.query (bytes "format") = bytes "csv" then
        writeCSV ["scanner", "status", "findings", "started_at", "finished_at", "duration"]
          (resultsToRows results)
      else writeJSON 200 (.results results)

def handleExportBaselines (req : Request) : Response :=
  match s.baseline with
  | none => writeJSON 200 .emptyList
  | some store =>
    match Detection.Manager.list codecs.baseline store with
    | .error err => writeError 500 err.message
    | .ok baselines =>
      if getFirst req.query (bytes "format") = bytes "csv" then
        writeCSV ["scanner", "metric", "count", "mean", "min", "max", "updated_at"]
          (baselinesToRows baselines)
      else writeJSON 200 (.baselines baselines)

def handleSignaturesStatus : Response :=
  match s.sigStore with
  | none => writeJSON 200 .emptyMap
  | some store =>
    match Signatures.loadStatus codecs.signatures store with
    | .error err => writeError 500 err.message
    | .ok status => writeJSON 200 (.signatures status)

/-- The method `Trigger` of the updater, and whether it came to a run. -/
def triggerUpdate (cfg : Signatures.UpdaterConfig) :
    Except String Signatures.Status × List Effect :=
  if !cfg.enabled then (.error "signatures updates are disabled", [])
  else (w.update, [.updateSignatures])

def handleSignaturesUpdate (req : Request) : Response × List Effect :=
  if req.method ≠ "POST" then (writeError 405 "POST required", [])
  else
    match s.sigUpdater with
    | none => (writeError 400 "signatures updater not configured", [])
    | some cfg =>
      match triggerUpdate w cfg with
      | (.error err, effects) => (writeError 400 err, effects)
      | (.ok status, effects) => (writeJSON 200 (.signatures status), effects)

/-- A line of the metrics. -/
def gauge (name : String) (value : ℤ) : String := name ++ " " ++ toString value ++ "\n"

/-- A time in seconds, as the method `Unix`. -/
def unixSeconds (t : Time) : ℤ := (t - unixEpoch) / second

/-- The lines about the signatures. -/
def signatureMetrics (store : BadgerStore V) : String :=
  match Signatures.loadStatus codecs.signatures store with
  | .error _ => ""
  | .ok status =>
    gauge "arcsent_signatures_sources_total" status.sources.length ++
    gauge "arcsent_signatures_sources_ok_total"
      (status.sources.countP fun src => src.2.error = "") ++
    (if isZero status.lastRun then ""
      else gauge "arcsent_signatures_last_run_timestamp_seconds" (unixSeconds status.lastRun)) ++
    if isZero status.nextRun then ""
    else gauge "arcsent_signatures_next_run_timestamp_seconds" (unixSeconds status.nextRun)

def buildMetrics : String :=
  gauge "arcsent_up" 1 ++
  gauge "arcsent_running_as_root" (if w.euid = 0 then 1 else 0) ++
  gauge "arcsent_plugins_total" s.mgr.plugins.length ++
  gauge "arcsent_jobs_total" (listJobs s.sched).length ++
  gauge "arcsent_results_total" s.results.historySummaries.length ++
  gauge "arcsent_findings_total" s.results.findingsHistory.length ++
  match s.sigStore with
  | none => ""
  | some store => signatureMetrics codecs store

def handleMetrics : Response :=
  ⟨200, "text/plain; version=0.0.4", none, .text (buildMetrics codecs w s)⟩

/-- The handler of an endpoint. -/
def handle (req : Request) : Endpoint → Response × List Effect
  | .health => (handleHealth, [])
  | .status => (handleStatus w, [])
  | .scanners => (handleScanners s, [])
  | .trigger => handleTrigger w s req
  | .resultsLatest => (handleResultsLatest w s, [])
  | .resultsHistory => (handleResultsHistory s, [])
  | .findings => (handleFindings s, [])
  | .baselines => (handleBaselines codecs s, [])
  | .exportResults => (handleExportResults codecs s req, [])
  | .exportBaselines => (handleExportBaselines codecs s req, [])
  | .signaturesStatus => (handleSignaturesStatus codecs s, [])
  | .signaturesUpdate => handleSignaturesUpdate w s req
  | .metrics => (handleMetrics codecs w s, [])

/-! ## The answers of `net/http` -/

/-- The answer that has a status only, and the one to a path that is not there. -/
def plainAnswer (status : ℕ) : Response :=
  if status = 404 then ⟨404, "text/plain; charset=utf-8", none, .text "404 page not found\n"⟩
  else ⟨status, "", none, .empty⟩

/-- The function `hexEscapeNonASCII`. -/
def hexEscapeNonASCII (s : Bytes) : Bytes :=
  s.flatMap fun b =>
    if b < 0x80 then [b]
    -- the digits of `strconv.AppendInt`, which are lower case
    else Url.percent :: bytes (String.ofList (Nat.toDigits 16 b.toNat))

/-- The function `htmlEscape`. -/
def htmlEscape (s : Bytes) : Bytes :=
  s.flatMap fun b =>
    if b = 0x26 then bytes "&amp;" else if b = 0x3C then bytes "&lt;"
    else if b = 0x3E then bytes "&gt;" else if b = 0x22 then bytes "&#34;"
    else if b = 0x27 then bytes "&#39;" else [b]

/-- The function `Redirect`.  The query of the request is kept. -/
def redirect (req : Request) (place : Bytes) : Response :=
  let url := place ++ if req.rawQuery = [] then [] else Url.questionMark :: req.rawQuery
  { status := 301
    contentType :=
      if req.method = "GET" ∨ req.method = "HEAD" then "text/html; charset=utf-8" else ""
    location := some (hexEscapeNonASCII url)
    body :=
      if req.method = "GET" then
        .html (bytes "<a href=\"" ++ htmlEscape url ++ bytes "\">Moved Permanently</a>.\n\n")
      else .empty }

/-- The response of the API server to a request, and what the request does. -/
def respond (req : Request) : Response × List Effect :=
  match serveAPI s.cfg req with
  | .status code => (plainAnswer code, [])
  | .redirect place => (redirect req place, [])
  | .handler e => handle codecs w s req e

end Arcsent.Servers
