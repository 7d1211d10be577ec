import RouteAudit.Report.Run

/-! # Reports as text

A report for people: a line for the run, one for each pattern with a line for
each of its findings under it, then what did not compile, the summary, and what
the gate and remediation had to say. Every line ends in a line feed.
-/

namespace RouteAudit.Report

open Risk (Assessment Finding)

/-- The text with blanks after it up to a width. -/
def padEnd (width : Nat) (text : String) : String :=
  text ++ String.ofList (List.replicate (width - text.length) ' ')

/-- The text with blanks before it up to a width. -/
def padStart (width : Nat) (text : String) : String :=
  String.ofList (List.replicate (width - text.length) ' ') ++ text

/-- The line of a finding. -/
def findingLine (finding : Finding) : String :=
  "           - " ++ finding.ruleId ++ " (" ++ finding.severity.word ++ "): " ++ finding.message

/-- The lines of a pattern. -/
def assessmentLines (assessment : Assessment) : List String :=
  ("[" ++ padEnd 6 assessment.level.word ++ "] " ++ padStart 2 (toString assessment.score.toNat) ++
    "  " ++ assessment.pattern) :: assessment.findings.map findingLine

/-- The line that sums an analysis up. -/
def summaryLine (analysis : Analysis) : String :=
  let summary := analysis.summary
  "summary: low=" ++ toString summary.low.toNat ++ " medium=" ++ toString summary.medium.toNat ++
    " high=" ++ toString summary.high.toNat ++
    " (patterns=" ++ toString analysis.assessments.length ++
    ", cache hits=" ++ toString analysis.cache.hits.toNat ++
    " misses=" ++ toString analysis.cache.misses.toNat ++
    ", " ++ toString analysis.durationMs.toNat ++ "ms)"

/-- The lines of an analysis. -/
def analysisLines (analysis : Analysis) : List String :=
  [("routeguard run " ++ analysis.runId)] ++
  analysis.assessments.flatMap assessmentLines ++
  (analysis.failures.map fun failure =>
    "compile failed: " ++ failure.pattern ++ " (" ++ failure.error ++ ")") ++
  (analysis.timedOut.map fun pattern => "compile timed out: " ++ pattern) ++
  [summaryLine analysis]

/-- The line of a violation. -/
def violationLine (violation : Gate.Violation) : String :=
  "  #" ++ toString violation.index.toNat ++ " [" ++ violation.level.word ++ "] " ++
    violation.pattern

/-- The line of a comparison. -/
def comparisonLine (comparison : Gate.Comparison) : String :=
  "baseline: " ++ (if comparison.isMatch then "match" else "DRIFT") ++
    " (new=" ++ toString comparison.new.length ++
    ", removed=" ++ toString comparison.removed.length ++
    ", changed=" ++ toString comparison.changes.length ++ ")"

/-- The lines of the gate. -/
def gateLines (outcome : Gate.Outcome) : List String :=
  let verdict := outcome.verdict
  [("gate: " ++ (if verdict.passed then "PASS" else "FAIL") ++
    " (threshold=" ++ verdict.threshold.word ++
    ", violations=" ++ toString verdict.violations.length ++ ")")] ++
  verdict.violations.map violationLine ++
  (outcome.baselineError.toList.map fun error => "baseline skipped: " ++ error) ++
  outcome.comparison.toList.map comparisonLine

/-- The lines of remediation, none when it was not asked. -/
def remediationLines (results : List Remedy.Result) : List String :=
  if results.isEmpty then []
  else
    [("remediation: " ++ toString (results.countP (·.changed)) ++ " of " ++
      toString results.length ++ " rewritten")]

/-- The report as text. -/
def Run.text (report : Run) : String :=
  String.join ((analysisLines report.analysis ++ report.gate.toList.flatMap gateLines ++
    remediationLines report.remediation).map (· ++ "\n"))

end RouteAudit.Report
