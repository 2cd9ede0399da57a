/-
# Schedules

The part of `internal/scheduler/scheduler.go` that says when a job is due: the settings of
a job, its saved state, and the schedule it is given as a text.
-/
import Arcsent.Go.Parse
import Arcsent.Scanner.Types

namespace Arcsent.Scheduling

open Arcsent.Go Arcsent.Scanner

/-- The settings of a job. -/
structure JobConfig where
  name : String
  plugin : String
  schedule : String
  timeout : Duration
  maxRetries : ℤ
  retryBackoff : Duration
  retryMax : Duration
  allowOverlap : Bool
  runOnStart : Bool
deriving DecidableEq

/-- The state of a job that is saved between runs of the daemon. -/
structure JobState where
  lastRun : Time
  lastSuccess : Time
  lastError : Time
  lastStatus : Option Status
  lastErrorMessage : String
  consecutiveFailures : ℤ
deriving DecidableEq

/-- The state of a job that has never run. -/
def JobState.none : JobState := ⟨0, 0, 0, .none, "", 0⟩

/-- The cron library: what it makes of an expression, and when that is next due. -/
structure CronLib (κ : Type) where
  parse : String → Option κ
  next : κ → Time → Time

/-- A schedule. -/
inductive ScheduleSpec (κ : Type)
  | interval (interval : Duration) (raw : String)
  | cron (cron : κ) (raw : String)
deriving DecidableEq

variable {κ : Type}

/-- The method `Next` of a schedule. -/
def ScheduleSpec.next (cron : CronLib κ) : ScheduleSpec κ → Time → Time
  | .interval d _, start => start + d
  | .cron k _, start => cron.next k start

/-- The function `parseSchedule`. -/
def parseSchedule (cron : CronLib κ) (expr : String) : Except String (ScheduleSpec κ) :=
  let expr := trimSpace expr
  if expr = "" then .error "schedule is required"
  else
    let expr := trimPrefix expr "@every "
    match parseDuration expr with
    | none =>
      match cron.parse expr with
      | none => .error ("unsupported schedule " ++ quote expr ++ " (use duration or cron)")
      | some k => .ok (.cron k expr)
    | some interval =>
      if interval ≤ 0 then .error "schedule interval must be positive"
      else .ok (.interval interval expr)

/-- The settings of a job with the defaults that `AddJob` puts in. -/
def JobConfig.normalize (cfg : JobConfig) : JobConfig :=
  { cfg with
    timeout := if cfg.timeout ≤ 0 then 2 * minute else cfg.timeout
    maxRetries := if cfg.maxRetries < 0 then 0 else cfg.maxRetries
    retryBackoff := if cfg.retryBackoff ≤ 0 then 2 * second else cfg.retryBackoff
    retryMax := if cfg.retryMax ≤ 0 then 30 * second else cfg.retryMax }

/-- What `AddJob` checks before it takes the lock. -/
def JobConfig.check (cron : CronLib κ) (cfg : JobConfig) : Except String (ScheduleSpec κ) :=
  if cfg.name = "" then .error "job name is required"
  else if cfg.plugin = "" then .error "job plugin is required"
  else parseSchedule cron cfg.schedule

/-- The wait before another attempt; neither the shift nor the product is checked for
overflow. -/
def JobConfig.backoff (cfg : JobConfig) (attempt : ℕ) : Duration :=
  let backoff := wrap64 (cfg.retryBackoff * wrap64 (2 ^ attempt))
  if backoff > cfg.retryMax then cfg.retryMax else backoff

end Arcsent.Scheduling
