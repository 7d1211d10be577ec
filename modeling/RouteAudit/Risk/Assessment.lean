import RouteAudit.Risk.Rule

/-! # Assessments

The assessment of a pattern lists the rules that fire, in table order, with the
sum of their weights as its score. It is a function of the text and the facts
alone. A summary counts assessments by level.

Scores and counts have the width that the files give them.
-/

namespace RouteAudit.Risk

/-- A rule that fired. -/
structure Finding where
  ruleId : String
  category : Category
  severity : Level
  message : String
  deriving Repr, BEq, DecidableEq

/-- The scored outcome for one pattern. -/
structure Assessment where
  pattern : String
  findings : List Finding
  score : UInt32
  level : Level
  deriving Repr, BEq, DecidableEq

/-- The finding that a rule reports. -/
def Rule.finding (rule : Rule) : Finding :=
  ⟨rule.id, rule.category, rule.severity, rule.message⟩

namespace Assessment

/-- The rules that fire for a pattern with given facts. -/
def fired (pattern : String) (facts : Facts) : List Rule :=
  Rule.table.filter (·.fires pattern facts)

/-- The sum of the weights of some rules. -/
def totalWeight (rules : List Rule) : Nat :=
  rules.foldr (·.weight + ·) 0

/-- The assessment of a pattern with given facts. -/
def ofFacts (pattern : String) (facts : Facts) : Assessment :=
  let rules := fired pattern facts
  { pattern
    findings := rules.map (·.finding)
    score := .ofNat (totalWeight rules)
    level := .ofScore (totalWeight rules) }

/-- The assessment of a pattern by its text alone. -/
def ofText (pattern : String) : Assessment :=
  ofFacts pattern (.scan pattern)

/-- Whether a rule is among the findings. -/
def hasRule (assessment : Assessment) (rule : Rule) : Bool :=
  assessment.findings.any (·.ruleId == rule.id)

end Assessment

/-- How many assessments have each level. -/
structure Summary where
  low : UInt64 := 0
  medium : UInt64 := 0
  high : UInt64 := 0
  deriving Repr, BEq, DecidableEq

namespace Summary

/-- One more assessment of a level. -/
def add (summary : Summary) : Level → Summary
  | .low => { summary with low := summary.low + 1 }
  | .medium => { summary with medium := summary.medium + 1 }
  | .high => { summary with high := summary.high + 1 }

/-- The summary of a batch. -/
def ofAssessments (batch : List Assessment) : Summary :=
  batch.foldl (fun summary assessment => summary.add assessment.level) {}

/-- The count of one level. -/
def count (summary : Summary) : Level → UInt64
  | .low => summary.low
  | .medium => summary.medium
  | .high => summary.high

/-- The count of all levels. -/
def total (summary : Summary) : UInt64 :=
  summary.low + summary.medium + summary.high

end Summary

end RouteAudit.Risk
