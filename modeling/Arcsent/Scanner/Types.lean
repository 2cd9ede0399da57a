/-
# Results and findings

The records of `internal/scanner/types.go`: what a plugin returns from a run.
-/
import Arcsent.Go.Basic

namespace Arcsent.Scanner

open Arcsent.Go

/-- The status of a result. -/
inductive Status
  | success
  | failed
  | partially
deriving DecidableEq, Repr

/-- The text of a status. -/
def Status.text : Status → String
  | success => "success"
  | failed => "failed"
  | partially => "partial"

/-- The severity of a finding. -/
inductive Severity
  | info
  | low
  | medium
  | high
  | critical
deriving DecidableEq, Repr

/-- The text of a severity. -/
def Severity.text : Severity → String
  | info => "info"
  | low => "low"
  | medium => "medium"
  | high => "high"
  | critical => "critical"

/-- A finding.  The entries of its evidence are listed as the source writes them. -/
structure Finding where
  id : String
  severity : Severity
  category : String
  description : String
  evidence : List (String × Value)
  remediation : String
deriving DecidableEq, Repr

/-- The result of a run. -/
structure Result where
  scannerName : String
  status : Status
  findings : List Finding
  startedAt : Time
  finishedAt : Time
  duration : Duration
  metadata : StringMap Value
deriving DecidableEq

end Arcsent.Scanner
