import RouteAudit.Cache.Compiler
import RouteAudit.Cache.Key
import RouteAudit.Store.Basic

/-! # Sessions of a cache

A cache remembers one compilation for every key. A lookup that is the first of its
key starts a job; a job ends on its own, some time later, and its end is what all
lookups of the key are told. A lookup of a key whose outcome is known is answered
at once.

All work is done by one worker, and the clock moves only while somebody waits. A
job that was started is queued; it runs as soon as anything waits for anything,
or, where work is done on demand, as soon as somebody waits for it. A job that
crashed has no outcome until somebody waits for it and learns that it was aborted;
where work is done on demand the crash is that of whoever waits, and is told nobody.

A session may go on to a new cache, of the next generation. Jobs of earlier
generations still run, and count and record for the cache that started them.
-/

namespace RouteAudit.Cache

/-- Who does the work: the worker on its own, or whoever waits for it. -/
inductive Drive where
  | eager
  | onDemand
  deriving Repr, BEq, DecidableEq

/-- What stays the same throughout a session. -/
structure Engine where
  compiler : Compiler := .standard
  drive : Drive := .eager
  /-- The milliseconds since 1970 at which the clock of the session reads zero. -/
  epochMs : Nat := 0

/-- How far a job has come. -/
inductive Phase where
  | queued
  | asleep (wake : Nat)
  | crashed (reason : Option String)
  | settled (outcome : Outcome)
  deriving Repr, BEq, DecidableEq

/-- The one compilation of a key in a generation. -/
structure Job where
  generation : Nat
  base : String
  pattern : String
  phase : Phase := .queued
  deriving Repr, BEq, DecidableEq

/-- The key of a job. -/
def Job.key (job : Job) : String := cacheKey job.base job.pattern

/-- The counters and the store of one generation. -/
structure Generation where
  counters : Counters := {}
  store : Option Store := none
  deriving Repr, DecidableEq

/-- The counters of a generation as they are told. -/
def Generation.stats (generation : Generation) : CacheStats := generation.counters.snapshot

/-- The jobs so far, in the order in which they were started, with all that they
leave behind. A job is called by its place in the list. -/
structure Session where
  now : Nat := 0
  jobs : List Job := []
  cache : Generation := {}
  retired : List Generation := []
  site : Store.Site := {}
  events : List Event := []

/-- The answer to a lookup: which job holds the outcome. -/
structure Resolution where
  mode : LookupMode
  job : Nat
  deriving Repr, BEq, DecidableEq

namespace Session

/-- The number of the current generation. -/
def generation (s : Session) : Nat := s.retired.length

/-- The job of a key in the current generation. -/
def find? (s : Session) (key : String) : Option Nat :=
  s.jobs.findIdx? fun job => job.generation == s.generation && job.key == key

/-- The outcome of a job, once it is known. -/
def outcome? (s : Session) (id : Nat) : Option Outcome :=
  match s.jobs[id]? with
  | some ⟨_, _, _, .settled outcome⟩ => some outcome
  | _ => none

/-- How many keys the cache remembers. -/
def size (s : Session) : Nat :=
  s.jobs.countP (·.generation == s.generation)

/-- Whether a key was looked up. -/
def contains (s : Session) (base pattern : String) : Bool :=
  (s.find? (cacheKey base pattern)).isSome

/-- How often the compiler was called. -/
def calls (s : Session) : Nat :=
  s.jobs.countP (·.phase != .queued)

/-- The time of day, in milliseconds since 1970. -/
def stamp (engine : Engine) (s : Session) : Int64 :=
  .ofNat (engine.epochMs + s.now)

/-- The session with one more thing told. -/
def tell (s : Session) (event : Event) : Session :=
  { s with events := s.events ++ [event] }

/-- The session with a job in another phase. -/
def setPhase (s : Session) (id : Nat) (phase : Phase) : Session :=
  { s with jobs := s.jobs.modify id fun job => { job with phase } }

/-- The counters and the store of a generation. -/
def generation? (s : Session) (number : Nat) : Option Generation :=
  if number = s.generation then some s.cache else s.retired[number]?

/-- The session with one generation changed. -/
def modifyGeneration (s : Session) (number : Nat) (f : Generation → Generation) : Session :=
  if number = s.generation then { s with cache := f s.cache }
  else { s with retired := s.retired.modify number f }

/-- The session with other counters for its cache. -/
def setCounters (s : Session) (counters : Counters) : Session :=
  { s with cache := { s.cache with counters } }

/-! ## Lookups -/

/-- Looks a pattern up, and starts a job when it is the first time. -/
def resolve (s : Session) (base pattern : String) : Resolution × Session :=
  match s.find? (cacheKey base pattern) with
  | some id =>
    -- A job that crashed and was not seen yet is still under way for those who ask.
    let mode : LookupMode := if (s.outcome? id).isSome then .sync else .async
    (⟨mode, id⟩, s.setCounters (s.cache.counters.count mode))
  | none =>
    (⟨.miss, s.jobs.length⟩,
      { s.setCounters (s.cache.counters.count .miss) with
        jobs := s.jobs ++ [{ generation := s.generation, base, pattern }] })

end Session

end RouteAudit.Cache
