import RouteAudit.Gate.Verdict
import RouteAudit.Remedy.Result
import RouteAudit.Report.Analysis
import RouteAudit.Time.Instant

/-! # Reports of a run

A report collects what a run did: the analysis, what the gate said if it was
asked, and what remediation made of the patterns if it was asked.
-/

namespace RouteAudit.Report

/-- The version of the form of a report. -/
def formVersion : String := "1.0"

/-- All that a run found out. -/
structure Run where
  version : String := formVersion
  generatedAt : Time.Instant
  analysis : Analysis
  gate : Option Gate.Outcome := none
  remediation : List Remedy.Result := []
  deriving Repr, BEq, DecidableEq

/-- Reads an instant. -/
def instantOfJson? (value : Json) : Option Time.Instant := do
  Time.Instant.parse? (← value.asString?)

namespace Run

/-- A report as a record. -/
def toJson (report : Run) : Json :=
  .record [
    ("schema_version", .string report.version),
    ("generated_at", .string report.generatedAt.text),
    ("analysis", report.analysis.toJson),
    ("gate", .optional Gate.Outcome.toJson report.gate),
    ("remediation", .array (report.remediation.map Remedy.Result.toJson))]

/-- Reads a report. -/
def ofJson? (value : Json) : Option Run := do
  match ← value.asFields? ["schema_version", "generated_at", "analysis", "gate",
      "remediation"] with
  | [version, generatedAt, analysis, gate, remediation] => do
    return {
      version := ← Json.required? Json.asString? version
      generatedAt := ← Json.required? instantOfJson? generatedAt
      analysis := ← Json.required? Analysis.ofJson? analysis
      gate := ← Json.allowed? Gate.Outcome.ofJson? gate
      remediation := ← Json.required? (Json.asList? Remedy.Result.ofJson?) remediation }
  | _ => none

end Run

end RouteAudit.Report
