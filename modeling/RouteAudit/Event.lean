import RouteAudit.Cache.Stats
import RouteAudit.Pattern.Matcher
import RouteAudit.Risk.Level

/-! # Events

What the program tells about its work while it runs. Events are data: whoever
runs an operation gets them in order beside its answer. Times, durations and the
identity of a run are no part of them, and neither are the words of a failing
file system.
-/

namespace RouteAudit

/-- Something worth telling. -/
inductive Event where
  | analysisStarted (patterns : Nat) (base : String)
  | analysisFinished (patterns failures : Nat)
  | patternCompiled (key : String)
  | patternCompileFailed (key : String) (error : CompileError)
  | persistError (operation : String)
  | gateEvaluated (threshold : Risk.Level) (patterns violations : Nat) (passed : Bool)
  | baselineCompared (isMatch : Bool) (new removed changed : Nat)
  | remediationApplied (pattern : String) (changes : Nat) (scoreBefore scoreAfter : UInt32)
  | cacheStats (stats : CacheStats)
  deriving Repr, BEq, DecidableEq

/-- The name, the severity and the fields of an event. -/
def Event.describe : Event → String × String × List (String × Json)
  | analysisStarted patterns base =>
    ("analysis.started", "info", [("pattern_count", .nat patterns), ("base", .string base)])
  | analysisFinished patterns failures =>
    ("analysis.finished", "info",
      [("patterns", .nat patterns), ("compile_failures", .nat failures)])
  | patternCompiled key => ("pattern.compiled", "debug", [("key", .string key)])
  | patternCompileFailed key error =>
    ("pattern.compile_failed", "warn", [("key", .string key), ("error", .string error.message)])
  | persistError operation => ("persist.error", "warn", [("operation", .string operation)])
  | gateEvaluated threshold patterns violations passed =>
    ("gate.evaluated", "info",
      [("threshold", .string threshold.word), ("total_patterns", .nat patterns),
        ("violations", .nat violations), ("passed", .bool passed)])
  | baselineCompared isMatch new removed changed =>
    ("baseline.compared", "info",
      [("matches", .bool isMatch), ("new_patterns", .nat new), ("removed_patterns", .nat removed),
        ("risk_changes", .nat changed)])
  | remediationApplied pattern changes scoreBefore scoreAfter =>
    ("remediation.applied", "info",
      [("pattern", .string pattern), ("changes", .nat changes),
        ("score_before", .nat scoreBefore.toNat), ("score_after", .nat scoreAfter.toNat)])
  | cacheStats stats =>
    ("cache.stats", "info",
      [("hits", .nat stats.hits.toNat), ("misses", .nat stats.misses.toNat),
        ("sync_hits", .nat stats.syncHits.toNat), ("async_hits", .nat stats.asyncHits.toNat),
        ("errors", .nat stats.errors.toNat)])

/-- An event as a record. -/
def Event.toJson (event : Event) : Json :=
  let (name, severity, fields) := event.describe
  .record (("event", .string name) :: ("level", .string severity) :: fields)

end RouteAudit
