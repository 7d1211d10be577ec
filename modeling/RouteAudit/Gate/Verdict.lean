import RouteAudit.Gate.Baseline

/-! # The gate

A batch passes the gate when no pattern has a level at or above the threshold.
The outcome of a run adds the comparison with a baseline when there is one, and
then passes only if that matches too. A baseline that could not be read is
reported and changes nothing.
-/

namespace RouteAudit.Gate

open Risk (Assessment Level Summary)

/-- A pattern at or above the threshold, with its place in the batch. -/
structure Violation where
  index : UInt64
  pattern : String
  level : Level
  score : UInt32
  deriving Repr, BEq, DecidableEq

/-- What the gate says about a batch. -/
structure Verdict where
  passed : Bool
  threshold : Level
  total : UInt64
  violations : List Violation
  summary : Summary
  deriving Repr, BEq, DecidableEq

/-- The violations of a batch whose first pattern has the given place. -/
def violationsFrom (threshold : Level) (index : Nat) : List Assessment → List Violation
  | [] => []
  | a :: batch =>
    if threshold ≤ a.level then
      ⟨.ofNat index, a.pattern, a.level, a.score⟩ :: violationsFrom threshold (index + 1) batch
    else violationsFrom threshold (index + 1) batch

/-- Holds a batch against a threshold. -/
def evaluate (batch : List Assessment) (threshold : Level) : Verdict :=
  let violations := violationsFrom threshold 0 batch
  { passed := violations.isEmpty
    threshold
    total := .ofNat batch.length
    violations
    summary := .ofAssessments batch }

/-- The event of a verdict. -/
def Verdict.event (verdict : Verdict) : Event :=
  .gateEvaluated verdict.threshold verdict.total.toNat verdict.violations.length verdict.passed

/-- A verdict with what the baseline adds to it. -/
structure Outcome where
  verdict : Verdict
  comparison : Option Comparison := none
  baselineError : Option String := none
  deriving Repr, BEq, DecidableEq

namespace Outcome

/-- Whether the run passes as a whole. -/
def passed (outcome : Outcome) : Bool :=
  outcome.verdict.passed && outcome.comparison.all (·.isMatch)

/-- The exit code of the run: one when it does not pass. -/
def exitCode (outcome : Outcome) : UInt32 :=
  if outcome.passed then 0 else 1

end Outcome

/-! ## Records -/

/-- A violation as a record. -/
def Violation.toJson (violation : Violation) : Json :=
  .record [
    ("index", .nat violation.index.toNat),
    ("pattern", .string violation.pattern),
    ("level", violation.level.toJson),
    ("score", .nat violation.score.toNat)]

/-- Reads a violation. -/
def Violation.ofJson? (value : Json) : Option Violation := do
  match ← value.asFields? ["index", "pattern", "level", "score"] with
  | [index, pattern, level, score] => do
    return {
      index := ← Json.required? Json.asUInt64? index
      pattern := ← Json.required? Json.asString? pattern
      level := ← Json.required? Level.ofJson? level
      score := ← Json.required? Json.asUInt32? score }
  | _ => none

/-- A verdict as a record. -/
def Verdict.toJson (verdict : Verdict) : Json :=
  .record [
    ("passed", .bool verdict.passed),
    ("threshold", verdict.threshold.toJson),
    ("total_patterns", .nat verdict.total.toNat),
    ("violations", .array (verdict.violations.map Violation.toJson)),
    ("summary", verdict.summary.toJson)]

/-- Reads a verdict. -/
def Verdict.ofJson? (value : Json) : Option Verdict := do
  match ← value.asFields? ["passed", "threshold", "total_patterns", "violations", "summary"] with
  | [passed, threshold, total, violations, summary] => do
    return {
      passed := ← Json.required? Json.asBool? passed
      threshold := ← Json.required? Level.ofJson? threshold
      total := ← Json.required? Json.asUInt64? total
      violations := ← Json.required? (Json.asList? Violation.ofJson?) violations
      summary := ← Json.required? Summary.ofJson? summary }
  | _ => none

/-- An outcome as a record. -/
def Outcome.toJson (outcome : Outcome) : Json :=
  .record [
    ("gate", outcome.verdict.toJson),
    ("comparison", .optional Comparison.toJson outcome.comparison),
    ("baseline_error", .optional Json.string outcome.baselineError)]

/-- Reads an outcome. -/
def Outcome.ofJson? (value : Json) : Option Outcome := do
  match ← value.asFields? ["gate", "comparison", "baseline_error"] with
  | [verdict, comparison, baselineError] => do
    return {
      verdict := ← Json.required? Verdict.ofJson? verdict
      comparison := ← Json.allowed? Comparison.ofJson? comparison
      baselineError := ← Json.allowed? Json.asString? baselineError }
  | _ => none

end RouteAudit.Gate
