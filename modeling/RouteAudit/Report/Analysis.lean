import RouteAudit.Cache.Stats
import RouteAudit.Risk.Record

/-! # Analyses

What one run over a list of patterns found out: an assessment for every pattern
in order, and beside them the patterns that did not compile and those whose
compilation took too long. All three keep the order and the repetitions of the
list.
-/

namespace RouteAudit.Report

open Risk (Assessment Summary)

/-- A pattern that has no matcher, and why. -/
structure Failure where
  pattern : String
  error : String
  deriving Repr, BEq, DecidableEq

/-- The outcome of one analysis. -/
structure Analysis where
  runId : String
  base : String
  assessments : List Assessment
  cache : CacheStats
  failures : List Failure
  timedOut : List String
  /-- How many of the patterns earlier runs had compiled. -/
  known : UInt64
  durationMs : UInt64
  deriving Repr, BEq, DecidableEq

/-- The counts of the levels. -/
def Analysis.summary (analysis : Analysis) : Summary :=
  .ofAssessments analysis.assessments

/-- A failure as a record. -/
def Failure.toJson (failure : Failure) : Json :=
  .record [("pattern", .string failure.pattern), ("error", .string failure.error)]

/-- Reads a failure. -/
def Failure.ofJson? (value : Json) : Option Failure := do
  match ← value.asFields? ["pattern", "error"] with
  | [pattern, error] => do
    return {
      pattern := ← Json.required? Json.asString? pattern
      error := ← Json.required? Json.asString? error }
  | _ => none

/-- An analysis as a record. -/
def Analysis.toJson (analysis : Analysis) : Json :=
  .record [
    ("run_id", .string analysis.runId),
    ("base", .string analysis.base),
    ("assessments", .array (analysis.assessments.map Assessment.toJson)),
    ("cache", analysis.cache.toJson),
    ("compile_failures", .array (analysis.failures.map Failure.toJson)),
    ("timed_out", .strings analysis.timedOut),
    ("known_from_previous_runs", .nat analysis.known.toNat),
    ("duration_ms", .nat analysis.durationMs.toNat)]

/-- Reads an analysis. -/
def Analysis.ofJson? (value : Json) : Option Analysis := do
  match ← value.asFields? ["run_id", "base", "assessments", "cache", "compile_failures",
      "timed_out", "known_from_previous_runs", "duration_ms"] with
  | [runId, base, assessments, cache, failures, timedOut, known, durationMs] => do
    return {
      runId := ← Json.required? Json.asString? runId
      base := ← Json.required? Json.asString? base
      assessments := ← Json.required? (Json.asList? Assessment.ofJson?) assessments
      cache := ← Json.required? CacheStats.ofJson? cache
      failures := ← Json.required? (Json.asList? Failure.ofJson?) failures
      timedOut := ← Json.required? (Json.asList? Json.asString?) timedOut
      known := ← Json.required? Json.asUInt64? known
      durationMs := ← Json.required? Json.asUInt64? durationMs }
  | _ => none

end RouteAudit.Report
