/-
# Correlation across scanners

`internal/detection/correlation.go`: when enough scanners have reported findings within
a window, one finding says so, and then none for a while.
-/
import Mathlib.Data.List.Dedup
import Arcsent.Go.Parse
import Arcsent.Scanner.Types

namespace Arcsent.Detection

open Arcsent.Go Arcsent.Scanner

structure CorrelationEvent where
  /-- The field `at` of the source. -/
  time : Time
  scanner : String
deriving DecidableEq

structure Correlator where
  window : Duration
  minScan : ℤ
  cooldown : Duration
  events : List CorrelationEvent
  lastTriggered : Time

namespace Correlator

/-- The function `NewCorrelator`. -/
def new (window : Duration) (minScanners : ℤ) (cooldown : Duration) : Correlator :=
  let window := if window ≤ 0 then 5 * minute else window
  { window := window
    minScan := if minScanners < 1 then 2 else minScanners
    cooldown := if cooldown ≤ 0 then window else cooldown
    events := []
    lastTriggered := 0 }

def prune (c : Correlator) (now : Time) : Correlator :=
  { c with events := c.events.filter fun ev => now - c.window < ev.time }

/-- The finding that several scanners have reported. -/
def finding (c : Correlator) (unique : ℕ) : Finding where
  id := "correlation_multi_scanner"
  severity := .high
  category := "correlation"
  description := "Multiple scanners reported findings within correlation window."
  evidence := [("unique_scanners", .int unique), ("window", .string (durationString c.window))]
  remediation := "Investigate combined signals for coordinated activity."

/-- The method `Add`. -/
def add (c : Correlator) (now : Time) (result : Result) : Correlator × List Finding :=
  if result.findings.length = 0 then (c, [])
  else
    let c := prune { c with events := c.events ++ [⟨now, result.scannerName⟩] } now
    let unique := (c.events.map CorrelationEvent.scanner).dedup.length
    if (unique : ℤ) < c.minScan then (c, [])
    else if now - c.lastTriggered < c.cooldown then (c, [])
    else ({ c with lastTriggered := now }, [c.finding unique])

/-- Whatever is added, at most the one finding comes back. -/
lemma add_findings (c : Correlator) (now : Time) (result : Result) :
    (c.add now result).2 = [] ∨ ∃ c' unique, (c.add now result).2 = [finding c' unique] := by
  rw [add]
  split_ifs
  · exact .inl rfl
  · dsimp only
    split_ifs
    · exact .inl rfl
    · exact .inl rfl
    · exact .inr ⟨_, _, rfl⟩

end Correlator

end Arcsent.Detection
