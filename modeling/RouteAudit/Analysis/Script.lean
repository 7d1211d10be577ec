import RouteAudit.Analysis.Run

/-! # Scripts

A script is a list of steps that callers take on a session, one after another. Its
run is the fold of the single steps, so whatever every step keeps every run keeps.
-/

namespace RouteAudit.Cache

open Report (Analysis)

/-- One thing that a caller does. -/
inductive Step where
  | resolve (base pattern : String)
  | await (job : Nat)
  | sleep (ms : Nat)
  | warmUp (base : String) (patterns : List String)
  | resolveMatcher (base pattern : String)
  | resolveWithin (base pattern : String) (limitMs : Nat)
  | contains (base pattern : String)
  | resetStats
  | tellStats
  | analyze (runId base : String) (patterns : List String) (limitMs : Option Nat)
  | settleLate (base : String) (late : List String) (graceMs : Nat)
  | renew
  | storeKnows (base pattern : String)
  deriving Repr, BEq, DecidableEq

/-- What the caller gets back. -/
inductive Answer where
  | nothing
  | resolution (resolution : Resolution)
  | outcome (job : Nat) (outcome : Option Outcome)
  | warmUp (warmUp : WarmUp)
  | matcher (matcher : Matcher)
  | truth (value : Option Bool)
  | count (n : UInt64)
  | analysis (analysis : Analysis)
  deriving Repr, BEq, DecidableEq

namespace Session

/-- Takes one step. -/
def step (engine : Engine) (s : Session) : Step → Answer × Session
  | .resolve base pattern =>
    let (resolution, s) := s.resolve base pattern
    (.resolution resolution, s)
  | .await job =>
    let (outcome, s) := s.await engine job
    (.outcome job outcome, s)
  | .sleep ms => (.nothing, s.sleep engine ms)
  | .warmUp base patterns =>
    let (warmUp, s) := s.warmUp engine base patterns none
    (.warmUp warmUp, s)
  | .resolveMatcher base pattern =>
    let (matcher, s) := s.resolveMatcher engine base pattern
    (.matcher matcher, s)
  | .resolveWithin base pattern limitMs =>
    let job := (s.resolve base pattern).1.job
    let (outcome, s) := s.resolveWithin engine base pattern limitMs
    (.outcome job outcome, s)
  | .contains base pattern => (.truth (some (s.contains base pattern)), s)
  | .resetStats => (.nothing, s.resetStats)
  | .tellStats => (.count s.cache.stats.asyncHits, s.tellStats)
  | .analyze runId base patterns limitMs =>
    let (analysis, s) := s.analyze engine runId base patterns limitMs
    (.analysis analysis, s)
  | .settleLate base late graceMs =>
    let (warmUp, s) := s.settleLate engine base late graceMs
    (.warmUp warmUp, s)
  | .renew => (.nothing, s.renew engine)
  | .storeKnows base pattern => (.truth (s.storeKnows? base pattern), s)

/-- Takes the steps of a script, and collects the answers. -/
def run (engine : Engine) (s : Session) : List Step → List Answer × Session
  | [] => ([], s)
  | step :: steps =>
    let (answer, s) := s.step engine step
    let (answers, s) := s.run engine steps
    (answer :: answers, s)

end Session

end RouteAudit.Cache
