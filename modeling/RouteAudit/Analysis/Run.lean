import RouteAudit.Cache.Lookup
import RouteAudit.Report.Analysis

/-! # Running an analysis

An analysis looks the whole list up once to get the compilations going, and a
second time to assess every pattern. Both passes share one deadline. A pattern
that does not compile, or not in time, is assessed all the same: its risk depends
on its text alone.
-/

namespace RouteAudit.Cache.Session

open Report (Analysis Failure)
open Risk (Assessment)

/-- The second pass over the list: what became of each pattern, nothing where it took
too long. -/
def passOver (engine : Engine) (base : String) (deadline : Option Nat) :
    List String → Session → List (String × Option Outcome) × Session
  | [], s => ([], s)
  | pattern :: patterns, s =>
    let (outcome, s) := match deadline with
      | some time => s.resolveWithin engine base pattern (time - s.now)
      | none => s.resolveOutcome engine base pattern
    let (rest, s) := passOver engine base deadline patterns s
    ((pattern, outcome) :: rest, s)

/-- The matcher that a pattern is assessed with. -/
def assessed (base : String) : String × Option Outcome → Matcher
  | (pattern, some outcome) => outcome.matcher base pattern
  | (pattern, none) => .sentinel pattern base

/-- The failure of a pattern, if it did not compile. -/
def failure? : String × Option Outcome → Option Failure
  | (pattern, some (.failed error)) => some ⟨pattern, error.message⟩
  | _ => none

/-- The pattern, if it took too long. -/
def late? : String × Option Outcome → Option String
  | (pattern, none) => some pattern
  | _ => none

/-- How many of the patterns the store knows. -/
def countKnown (s : Session) (base : String) (patterns : List String) : Nat :=
  patterns.countP fun pattern => s.storeKnows? base pattern == some true

/-- Analyses a list of patterns on a base, and waits for compilations no longer than
the limit, if there is one. -/
def analyze (engine : Engine) (s : Session) (runId base : String) (patterns : List String)
    (limitMs : Option Nat) : Analysis × Session :=
  let s := (s.tell (.analysisStarted patterns.length base)).resetStats
  let started := s.now
  let known := s.countKnown base patterns
  let deadline := limitMs.map (s.now + ·)
  let (_, s) := s.warmUp engine base patterns deadline
  let (results, s) := passOver engine base deadline patterns s
  let failures := results.filterMap failure?
  let s := (s.flushStore engine).tellStats
  let s := s.tell (.analysisFinished patterns.length failures.length)
  ({ runId, base
     assessments := results.map fun result =>
       let matcher := assessed base result
       .ofFacts matcher.pattern matcher.facts
     cache := s.cache.stats
     failures
     timedOut := results.filterMap late?
     known := .ofNat known
     durationMs := .ofNat (s.now - started) }, s)

/-- Gives the patterns that took too long in an analysis some more time, and writes
what that brought. -/
def settleLate (engine : Engine) (s : Session) (base : String) (late : List String)
    (graceMs : Nat) : WarmUp × Session :=
  if late.isEmpty then ({}, s)
  else
    let (warmUp, s) := s.warmUp engine base late (some (s.now + graceMs))
    (warmUp, s.flushStore engine)

end RouteAudit.Cache.Session
