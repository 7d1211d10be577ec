import RouteAudit.Event
import RouteAudit.Risk.Record

/-! # Baselines

A baseline remembers the outcome of an earlier run: its patterns in order with
level and score, the summary, and the threshold of that run. A comparison says
what moved since. It matches when patterns and summary are the same; thresholds
do not take part.

A pattern listed twice counts by its first occurrence wherever levels are
compared, and appears once in the lists of what is new, gone or changed.
-/

namespace RouteAudit.Gate

open Risk (Assessment Level Summary)

/-- One pattern of a baseline. -/
structure BaselinePattern where
  pattern : String
  level : Level
  score : UInt32
  deriving Repr, BEq, DecidableEq

/-- The outcome of a run, to be compared with later ones. -/
structure Snapshot where
  patterns : List BaselinePattern
  summary : Summary
  threshold : Level
  deriving Repr, BEq, DecidableEq

namespace Snapshot

/-- The snapshot of a batch. -/
def ofAssessments (batch : List Assessment) (threshold : Level) : Snapshot where
  patterns := batch.map fun a => ⟨a.pattern, a.level, a.score⟩
  summary := .ofAssessments batch
  threshold

/-- The texts of the patterns, in order. -/
def names (snapshot : Snapshot) : List String :=
  snapshot.patterns.map (·.pattern)

/-- The first entry of a pattern. -/
def find? (snapshot : Snapshot) (pattern : String) : Option BaselinePattern :=
  snapshot.patterns.find? (·.pattern == pattern)

end Snapshot

/-- How the counts of the levels moved: now minus then, in 64 bits with sign. -/
structure Drift where
  low : Int64
  medium : Int64
  high : Int64
  deriving Repr, BEq, DecidableEq

namespace Drift

/-- The movement of one count. Both counts are taken as numbers with sign first. -/
def ofCounts (now before : UInt64) : Int64 :=
  now.toInt64 - before.toInt64

/-- The movement between two summaries. -/
def between (now before : Summary) : Drift where
  low := ofCounts now.low before.low
  medium := ofCounts now.medium before.medium
  high := ofCounts now.high before.high

/-- Whether nothing moved. -/
def isZero (drift : Drift) : Bool :=
  drift.low == 0 && drift.medium == 0 && drift.high == 0

end Drift

/-- A pattern whose level is not what it was. -/
structure RiskChange where
  pattern : String
  before : Level
  now : Level
  deriving Repr, BEq, DecidableEq

/-- What moved between a baseline and a current snapshot. -/
structure Comparison where
  isMatch : Bool
  drift : Drift
  new : List String
  removed : List String
  changes : List RiskChange
  deriving Repr, BEq, DecidableEq

/-- The distinct texts of the first list that the second one does not have, in the
order of their first occurrence. -/
def newIn (texts known : List String) : List String :=
  (texts.filter fun text => !known.contains text).eraseDups

/-- The change of a pattern that both snapshots have, if its level moved. -/
def changeOf? (current baseline : Snapshot) (pattern : String) : Option RiskChange := do
  let now ← current.find? pattern
  let before ← baseline.find? pattern
  if before.level = now.level then none else some ⟨pattern, before.level, now.level⟩

/-- Compares a current snapshot with a baseline. -/
def compare (current baseline : Snapshot) : Comparison where
  isMatch := current.patterns == baseline.patterns && current.summary == baseline.summary
  drift := .between current.summary baseline.summary
  new := newIn current.names baseline.names
  removed := newIn baseline.names current.names
  changes := current.names.eraseDups.filterMap (changeOf? current baseline)

/-- The event of a comparison. -/
def Comparison.event (comparison : Comparison) : Event :=
  .baselineCompared comparison.isMatch comparison.new.length comparison.removed.length
    comparison.changes.length

/-! ## Records -/

/-- A pattern of a baseline as a record. -/
def BaselinePattern.toJson (entry : BaselinePattern) : Json :=
  .record [
    ("pattern", .string entry.pattern),
    ("level", entry.level.toJson),
    ("score", .nat entry.score.toNat)]

/-- Reads a pattern of a baseline. -/
def BaselinePattern.ofJson? (value : Json) : Option BaselinePattern := do
  match ← value.asFields? ["pattern", "level", "score"] with
  | [pattern, level, score] => do
    return {
      pattern := ← Json.required? Json.asString? pattern
      level := ← Json.required? Level.ofJson? level
      score := ← Json.required? Json.asUInt32? score }
  | _ => none

/-- A snapshot as a record. -/
def Snapshot.toJson (snapshot : Snapshot) : Json :=
  .record [
    ("patterns", .array (snapshot.patterns.map BaselinePattern.toJson)),
    ("summary", snapshot.summary.toJson),
    ("threshold", snapshot.threshold.toJson)]

/-- Reads a snapshot. -/
def Snapshot.ofJson? (value : Json) : Option Snapshot := do
  match ← value.asFields? ["patterns", "summary", "threshold"] with
  | [patterns, summary, threshold] => do
    return {
      patterns := ← Json.required? (Json.asList? BaselinePattern.ofJson?) patterns
      summary := ← Json.required? Summary.ofJson? summary
      threshold := ← Json.required? Level.ofJson? threshold }
  | _ => none

/-- A drift as a record. -/
def Drift.toJson (drift : Drift) : Json :=
  .record [
    ("low", .int drift.low.toInt),
    ("medium", .int drift.medium.toInt),
    ("high", .int drift.high.toInt)]

/-- Reads a drift. -/
def Drift.ofJson? (value : Json) : Option Drift := do
  match ← value.asFields? ["low", "medium", "high"] with
  | [low, medium, high] => do
    return {
      low := ← Json.required? Json.asInt64? low
      medium := ← Json.required? Json.asInt64? medium
      high := ← Json.required? Json.asInt64? high }
  | _ => none

/-- A change as a record. -/
def RiskChange.toJson (change : RiskChange) : Json :=
  .record [
    ("pattern", .string change.pattern),
    ("from", change.before.toJson),
    ("to", change.now.toJson)]

/-- Reads a change. -/
def RiskChange.ofJson? (value : Json) : Option RiskChange := do
  match ← value.asFields? ["pattern", "from", "to"] with
  | [pattern, before, now] => do
    return {
      pattern := ← Json.required? Json.asString? pattern
      before := ← Json.required? Level.ofJson? before
      now := ← Json.required? Level.ofJson? now }
  | _ => none

/-- A comparison as a record. -/
def Comparison.toJson (comparison : Comparison) : Json :=
  .record [
    ("matches", .bool comparison.isMatch),
    ("summary_drift", comparison.drift.toJson),
    ("new_patterns", .strings comparison.new),
    ("removed_patterns", .strings comparison.removed),
    ("risk_changes", .array (comparison.changes.map RiskChange.toJson))]

/-- Reads a comparison. -/
def Comparison.ofJson? (value : Json) : Option Comparison := do
  match ← value.asFields? ["matches", "summary_drift", "new_patterns", "removed_patterns",
      "risk_changes"] with
  | [isMatch, drift, new, removed, changes] => do
    return {
      isMatch := ← Json.required? Json.asBool? isMatch
      drift := ← Json.required? Drift.ofJson? drift
      new := ← Json.required? (Json.asList? Json.asString?) new
      removed := ← Json.required? (Json.asList? Json.asString?) removed
      changes := ← Json.required? (Json.asList? RiskChange.ofJson?) changes }
  | _ => none

end RouteAudit.Gate
