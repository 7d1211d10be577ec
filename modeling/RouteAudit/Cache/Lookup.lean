import RouteAudit.Cache.Waiting

/-! # Lookups that wait

What a caller does with a cache: look a pattern up and wait for its matcher, wait
for it only so long, or look a whole list up and wait for all of it. Who gives up
waiting leaves the job alone, so a later lookup still finds it.
-/

namespace RouteAudit.Cache

/-- What came of looking a whole list up: its length, and how the jobs ended that had
to be waited for. -/
structure WarmUp where
  requested : Nat := 0
  compiled : Nat := 0
  failed : Nat := 0
  deriving Repr, BEq, DecidableEq

namespace Session

/-- Looks patterns up one after another, without waiting in between. -/
def resolveAll (s : Session) (base : String) : List String → List Resolution × Session
  | [] => ([], s)
  | pattern :: patterns =>
    let (first, s) := s.resolve base pattern
    let (rest, s) := s.resolveAll base patterns
    (first :: rest, s)

/-- The jobs that have to be waited for. -/
def pendingJobs (resolutions : List Resolution) : List Nat :=
  (resolutions.filter (·.mode != .sync)).map (·.job)

/-- Looks a list up and waits for all of it, or until a deadline. A warm-up that is
cut short says only how long the list is. -/
def warmUp (engine : Engine) (s : Session) (base : String) (patterns : List String)
    (deadline : Option Nat) : WarmUp × Session :=
  let (resolutions, s) := s.resolveAll base patterns
  let pending := pendingJobs resolutions
  let (done, s) := s.wait engine (some pending) deadline
  let compiled := pending.countP fun id => (s.outcome? id).any Outcome.isCompiled
  (if done then ⟨patterns.length, compiled, pending.length - compiled⟩
    else { requested := patterns.length }, s)

/-- Looks a pattern up and waits for its outcome. -/
def resolveOutcome (engine : Engine) (s : Session) (base pattern : String) :
    Option Outcome × Session :=
  let (resolution, s) := s.resolve base pattern
  s.await engine resolution.job

/-- Looks a pattern up and waits for its outcome, but only so long. -/
def resolveWithin (engine : Engine) (s : Session) (base pattern : String) (limitMs : Nat) :
    Option Outcome × Session :=
  let (resolution, s) := s.resolve base pattern
  let (done, s) := s.wait engine (some [resolution.job]) (some (s.now + limitMs))
  (if done then s.outcome? resolution.job else none, s)

/-- Looks a pattern up and waits for its matcher, or takes the sentinel where there is
none. -/
def resolveMatcher (engine : Engine) (s : Session) (base pattern : String) : Matcher × Session :=
  let (outcome, s) := s.resolveOutcome engine base pattern
  (outcome.elim (.sentinel pattern base) (·.matcher base pattern), s)

/-- Tells the counters. -/
def tellStats (s : Session) : Session := s.tell (.cacheStats s.cache.stats)

/-- Counts from zero again. -/
def resetStats (s : Session) : Session := s.setCounters {}

/-- Whether the store of the cache knows a pattern, where there is a store. -/
def storeKnows? (s : Session) (base pattern : String) : Option Bool :=
  s.cache.store.map (·.contains base pattern)

/-- Writes what the store of the cache has recorded since it was last written. -/
def flushStore (engine : Engine) (s : Session) : Session :=
  match s.cache.store with
  | none => s
  | some store =>
    let done := store.flushIfDirty s.site (s.stamp engine)
    { s with
      cache := { s.cache with store := some done.store }
      site := done.site
      events := s.events ++ done.events }

end Session

end RouteAudit.Cache
