/-
# The cache of results

`internal/state/results.go`: the latest result of each scanner and the last results of
all, as the API shows them.
-/
import Mathlib.Data.List.DropRight
import Mathlib.Logic.Function.Basic
import Arcsent.Scanner.Types

namespace Arcsent.State

open Arcsent.Go Arcsent.Scanner

structure ResultCache where
  latest : String → Option Result
  history : List Result
  limit : ℕ

/-- The function `NewResultCache`. -/
def ResultCache.new (limit : ℤ) : ResultCache where
  latest := fun _ => none
  history := []
  limit := if limit ≤ 0 then 50 else limit.toNat

def ResultCache.add (c : ResultCache) (result : Result) : ResultCache :=
  let history := c.history ++ [result]
  { c with
    latest := Function.update c.latest result.scannerName (some result)
    history :=
      if history.length > c.limit then history.drop (history.length - c.limit) else history }

/-! ## What the API shows -/

structure ResultSummary where
  scannerName : String
  status : Status
  findings : ℕ
  startedAt : Time
  finishedAt : Time
  duration : Duration
  metadata : List (String × String)

structure FindingSummary where
  scannerName : String
  severity : Severity
  category : String
  description : String
  occurredAt : Time
  evidence : List (String × String)

/-- The entries of a map that are texts. -/
def texts (entries : List (String × Value)) : List (String × String) :=
  entries.filterMap fun (key, value) =>
    match value with
    | .string s => some (key, s)
    | _ => none

/-- The function `summarize`. -/
def summarize (res : Result) : ResultSummary where
  scannerName := res.scannerName
  status := res.status
  findings := res.findings.length
  startedAt := res.startedAt
  finishedAt := res.finishedAt
  duration := res.duration
  metadata := texts res.metadata.entries

namespace ResultCache

/-- The method `Latest`, with the scanners in the order of the iteration. -/
def latestSummaries (c : ResultCache) (order : List String) : List ResultSummary :=
  (order.filterMap c.latest).map summarize

/-- The method `History`. -/
def historySummaries (c : ResultCache) : List ResultSummary := c.history.map summarize

/-- The method `FindingsHistory`. -/
def findingsHistory (c : ResultCache) : List FindingSummary :=
  c.history.flatMap fun res => res.findings.map fun finding =>
    { scannerName := res.scannerName
      severity := finding.severity
      category := finding.category
      description := finding.description
      occurredAt := res.finishedAt
      evidence := texts finding.evidence }

end ResultCache

end Arcsent.State
