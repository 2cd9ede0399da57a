/-
# Rules on metrics

`internal/detection/rules.go`: a rule compares a metric of a result with a threshold and
makes a finding.
-/
import Mathlib.Data.List.Basic
import Arcsent.Go.Case
import Arcsent.Scanner.Types

namespace Arcsent.Detection

open Arcsent.Go Arcsent.Scanner

structure Rule where
  name : String
  scanner : String
  metric : String
  operator : String
  threshold : ℚ
  severity : Severity
  description : String

/-- A number of any of the types that count as one.  Integers are taken exactly. -/
def toFloat : Value → Option ℚ
  | .float64 x => some x
  | .float32 x => some x
  | .int n => some n
  | .int64 n => some n
  | .uint64 n => some n
  | .uint n => some n
  | _ => none

def compare (value : ℚ) (op : String) (threshold : ℚ) : Bool :=
  match toLower op with
  | "gt" => value > threshold
  | "gte" => value ≥ threshold
  | "lt" => value < threshold
  | "lte" => value ≤ threshold
  | "eq" => value = threshold
  | _ => false

/-- The identifier of the findings of a rule. -/
def Rule.findingId (rule : Rule) : String := "rule_" ++ toLower rule.name

/-- Their description, which a rule may leave to the engine. -/
def Rule.desc (rule : Rule) : String :=
  if rule.description = "" then "Rule " ++ rule.name ++ " triggered for " ++ rule.metric
  else rule.description

/-- The finding of a rule that a value triggers. -/
def Rule.finding (rule : Rule) (value : ℚ) : Finding where
  id := rule.findingId
  severity := rule.severity
  category := "rule"
  description := rule.desc
  evidence :=
    [("metric", .string rule.metric), ("value", .float64 value),
      ("threshold", .float64 rule.threshold), ("operator", .string rule.operator)]
  remediation := "Review rule configuration and system state."

/-- What one rule makes of a result. -/
def Rule.evaluate (rule : Rule) (result : Result) : Option Finding :=
  if rule.scanner ≠ result.scannerName ∧ rule.scanner ≠ "*" then none
  else do
    let raw ← result.metadata.get? rule.metric
    let value ← toFloat raw
    if compare value rule.operator rule.threshold then some (rule.finding value) else none

/-- What a rule finds does not depend on the result, the value aside. -/
lemma Rule.eq_finding_of_evaluate {rule : Rule} {result : Result} {f : Finding}
    (h : rule.evaluate result = some f) : ∃ value, f = rule.finding value := by
  rw [Rule.evaluate] at h
  split_ifs at h with hother
  obtain ⟨raw, -, h⟩ := Option.bind_eq_some_iff.mp h
  obtain ⟨value, -, h⟩ := Option.bind_eq_some_iff.mp h
  split_ifs at h with hcompare
  exact ⟨value, (Option.some.inj h).symm⟩

/-- The method `Evaluate` of a `RuleEngine`, which holds nothing but its rules. -/
def evaluate (rules : List Rule) (result : Result) : List Finding :=
  rules.filterMap fun rule => rule.evaluate result

end Arcsent.Detection
