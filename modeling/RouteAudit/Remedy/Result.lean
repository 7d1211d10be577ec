import RouteAudit.Event
import RouteAudit.Remedy.Repair
import RouteAudit.Risk.Record

/-! # Remediation

Remediation goes through six steps in a fixed order. A step that changes the
text is logged as a change, a step that only has something to say is logged as a
note. A change that would raise the score is dropped without a trace, so the
score never rises. Which steps are worth trying is decided by the findings of
the pattern as given, except where the text itself tells.
-/

namespace RouteAudit.Remedy

open Risk (Assessment Rule)

/-- What remediation made of a pattern. -/
structure Result where
  pattern : String
  fixed : String
  changes : List String
  notes : List String
  scoreBefore : UInt32
  scoreAfter : UInt32
  deriving Repr, BEq, DecidableEq

namespace Result

/-- Whether the text is another one. -/
def changed (result : Result) : Bool := result.pattern != result.fixed

/-- Whether somebody has to look at it. -/
def needsReview (result : Result) : Bool := !result.notes.isEmpty

/-- A result as a record. -/
def toJson (result : Result) : Json :=
  .record [
    ("original", .string result.pattern),
    ("fixed", .string result.fixed),
    ("applied_changes", .strings result.changes),
    ("review_notes", .strings result.notes),
    ("score_before", .nat result.scoreBefore.toNat),
    ("score_after", .nat result.scoreAfter.toNat)]

/-- Reads a result. -/
def ofJson? (value : Json) : Option Result := do
  match ← value.asFields? ["original", "fixed", "applied_changes", "review_notes",
      "score_before", "score_after"] with
  | [pattern, fixed, changes, notes, scoreBefore, scoreAfter] => do
    return {
      pattern := ← Json.required? Json.asString? pattern
      fixed := ← Json.required? Json.asString? fixed
      changes := ← Json.required? (Json.asList? Json.asString?) changes
      notes := ← Json.required? (Json.asList? Json.asString?) notes
      scoreBefore := ← Json.required? Json.asUInt32? scoreBefore
      scoreAfter := ← Json.required? Json.asUInt32? scoreAfter }
  | _ => none

end Result

/-- Remediation under way: the text so far with its score, and the log, in order. -/
structure Work where
  pattern : List Char
  score : UInt32
  changes : List String
  notes : List String
  deriving Repr, BEq, DecidableEq

namespace Work

/-- The score of a text. -/
def scoreOf (pattern : List Char) : UInt32 :=
  (Assessment.ofText (String.ofList pattern)).score

/-- Takes a new text over and logs the change, unless it is no new text or has a
higher score. -/
def change (work : Work) (candidate : List Char) (description : String) : Work :=
  if candidate = work.pattern then work
  else
    let score := scoreOf candidate
    if score > work.score then work
    else { work with pattern := candidate, score, changes := work.changes ++ [description] }

/-- Logs a note. -/
def note (work : Work) (text : String) : Work :=
  { work with notes := work.notes ++ [text] }

/-- Escapes the pipes of groups where a shell character was found, unless the
pattern already escapes a pipe. -/
def escapePipes (before : Assessment) (work : Work) : Work :=
  if !before.hasRule Rule.commandInjection || hasEscapedPipe work.pattern then work
  else
    let (candidate, count) := Remedy.escapePipes 0 work.pattern
    if count = 0 then work
    else
      work.change candidate
        ("escaped " ++ toString count ++ " alternation pipe(s) inside groups")

/-- Bounds a wildcard at the end. -/
def boundTrailingWildcard (before : Assessment) (work : Work) : Work :=
  let union := String.ofList boundedUnion
  if !before.hasRule Rule.wildcardDanger then work
  else
    match splitRepeatedParam? work.pattern with
    | some (head, name) =>
      work.change (head ++ ':' :: name ++ boundedUnion)
        ("replaced trailing wildcard :" ++ String.ofList name ++ " with bounded union " ++ union)
    | none =>
      match withoutFinalStar? work.pattern with
      | some head =>
        work.change (head ++ boundedUnion) ("replaced trailing /* with bounded union " ++ union)
      | none => work

/-- Replaces double wildcards. -/
def expandDoubleWildcards (work : Work) : Work :=
  let count := runCount work.pattern
  if count = 0 then work
  else
    work.change (expandRuns work.pattern)
      ("replaced " ++ toString count ++ " double wildcard(s) with " ++ toString segmentsPerRun ++
        " optional segments")

/-- Notes the segments that lead to internal surfaces. -/
def noteSensitiveSegments (work : Work) : Work :=
  (sensitiveSegments work.pattern).foldl (fun work segment =>
    work.note ("REVIEW: segment '" ++ segment ++
      "' exposes an internal surface; confirm it is access controlled")) work

/-- Encodes traversal sequences. -/
def encodeTraversal (before : Assessment) (work : Work) : Work :=
  if before.hasRule Rule.pathTraversal then
    work.change (Remedy.encodeTraversal work.pattern)
      "percent-encoded path traversal sequences"
  else work

/-- Notes credentials. -/
def noteCredentials (before : Assessment) (work : Work) : Work :=
  let work :=
    if before.hasRule Rule.credentialSegment then
      work.note "REVIEW: credential-named segment; move secrets to headers or the request body"
    else work
  if before.hasRule Rule.basicAuth then
    work.note "REVIEW: embedded userinfo credentials; remove them from the URL"
  else work

/-- The work before the first step. -/
def start (before : Assessment) : Work :=
  ⟨before.pattern.toList, before.score, [], []⟩

/-- All steps in order. -/
def finish (before : Assessment) : Work :=
  start before
    |>.escapePipes before
    |>.boundTrailingWildcard before
    |>.expandDoubleWildcards
    |>.noteSensitiveSegments
    |>.encodeTraversal before
    |>.noteCredentials before

end Work

/-- Remediates one pattern. -/
def remediate (pattern : String) : Result :=
  let before := Assessment.ofText pattern
  let work := Work.finish before
  { pattern
    fixed := String.ofList work.pattern
    changes := work.changes
    notes := work.notes
    scoreBefore := before.score
    scoreAfter := Work.scoreOf work.pattern }

/-- The event that a result is worth: there is one when something was changed. -/
def Result.events (result : Result) : List Event :=
  if result.changes.isEmpty then []
  else
    [.remediationApplied result.pattern result.changes.length result.scoreBefore
      result.scoreAfter]

/-- Remediates patterns in order. -/
def remediateAll (patterns : List String) : List Result :=
  patterns.map remediate

/-- The events of several results. -/
def eventsOf (results : List Result) : List Event :=
  results.flatMap (·.events)

end RouteAudit.Remedy
