import RouteAudit.Json.Decode
import RouteAudit.Risk.Assessment

/-! # Assessments as records

How levels, findings, assessments and summaries are written to files and read
back. Field names and words are part of the files.
-/

namespace RouteAudit.Risk

open RouteAudit (Json)

/-- A level as its word. -/
def Level.toJson (level : Level) : Json := .string level.word

/-- Reads a level. -/
def Level.ofJson? : Json → Option Level := Json.asWord? Level.ofWord?

/-- A finding as a record. -/
def Finding.toJson (finding : Finding) : Json :=
  .record [
    ("rule_id", .string finding.ruleId),
    ("category", .string finding.category.word),
    ("severity", finding.severity.toJson),
    ("message", .string finding.message)]

/-- Reads a finding. -/
def Finding.ofJson? (value : Json) : Option Finding := do
  match ← value.asFields? ["rule_id", "category", "severity", "message"] with
  | [ruleId, category, severity, message] => do
    return {
      ruleId := ← Json.required? Json.asString? ruleId
      category := ← Json.required? (Json.asWord? Category.ofWord?) category
      severity := ← Json.required? Level.ofJson? severity
      message := ← Json.required? Json.asString? message }
  | _ => none

/-- An assessment as a record. -/
def Assessment.toJson (assessment : Assessment) : Json :=
  .record [
    ("pattern", .string assessment.pattern),
    ("findings", .array (assessment.findings.map Finding.toJson)),
    ("score", .nat assessment.score.toNat),
    ("level", assessment.level.toJson)]

/-- Reads an assessment. -/
def Assessment.ofJson? (value : Json) : Option Assessment := do
  match ← value.asFields? ["pattern", "findings", "score", "level"] with
  | [pattern, findings, score, level] => do
    return {
      pattern := ← Json.required? Json.asString? pattern
      findings := ← Json.required? (Json.asList? Finding.ofJson?) findings
      score := ← Json.required? Json.asUInt32? score
      level := ← Json.required? Level.ofJson? level }
  | _ => none

/-- A summary as a record. -/
def Summary.toJson (summary : Summary) : Json :=
  .record [
    ("low", .nat summary.low.toNat),
    ("medium", .nat summary.medium.toNat),
    ("high", .nat summary.high.toNat)]

/-- Reads a summary. -/
def Summary.ofJson? (value : Json) : Option Summary := do
  match ← value.asFields? ["low", "medium", "high"] with
  | [low, medium, high] => do
    return {
      low := ← Json.required? Json.asUInt64? low
      medium := ← Json.required? Json.asUInt64? medium
      high := ← Json.required? Json.asUInt64? high }
  | _ => none

end RouteAudit.Risk

namespace RouteAudit

/-- The facts of a pattern as a record. -/
def Facts.toJson (facts : Facts) : Json :=
  .record [("has_regex_groups", .bool facts.hasGroups), ("wildcard_count", .nat facts.wildcards)]

/-- Reads the facts of a pattern. -/
def Facts.ofJson? (value : Json) : Option Facts := do
  match ← value.asFields? ["has_regex_groups", "wildcard_count"] with
  | [hasGroups, wildcards] => do
    return {
      hasGroups := ← Json.required? Json.asBool? hasGroups
      wildcards := (← Json.required? Json.asUInt64? wildcards).toNat }
  | _ => none

end RouteAudit
