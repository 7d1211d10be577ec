import RouteAudit.Cache.Session

/-! # Jobs at work

A job calls the compiler when it starts. It then sleeps for as long as the
compilation takes, and ends: the compilation is told of, recorded or counted as an
error for the cache that started it, and then its outcome is known. A crash does
none of that.
-/

namespace RouteAudit.Cache.Session

/-- Puts a compilation on record, where there is a store. -/
def keep (engine : Engine) (s : Session) (job : Job) : Session :=
  match (s.generation? job.generation).bind (·.store) with
  | none => s
  | some store =>
    let done := store.record s.site (s.stamp engine) job.base job.pattern
      (.ofNat (engine.compiler.delayMs job.base job.pattern * 1000000))
    { s.modifyGeneration job.generation ({ · with store := some done.store }) with
      site := done.site
      events := s.events ++ done.events }

/-- Counts a compilation that failed. -/
def countError (s : Session) (number : Nat) : Session :=
  s.modifyGeneration number fun g => { g with counters.errors := g.counters.errors + 1 }

/-- Ends a job. Whatever it leaves behind is there before its outcome is known. -/
def finish (engine : Engine) (s : Session) (id : Nat) : Session :=
  match s.jobs[id]? with
  | none => s
  | some job =>
    match engine.compiler.ending job.base job.pattern with
    | .crash reason => s.setPhase id (.crashed reason)
    | .result (.error error) =>
      ((s.countError job.generation).tell (.patternCompileFailed job.key error)).setPhase id
        (.settled (.failed error))
    | .result (.ok matcher) =>
      ((s.tell (.patternCompiled job.key)).keep engine job).setPhase id
        (.settled (.compiled ⟨job.pattern, job.base, matcher⟩))

/-- Calls the compiler for a job that is queued. -/
def start (engine : Engine) (s : Session) (id : Nat) : Session :=
  match s.jobs[id]? with
  | some ⟨_, base, pattern, .queued⟩ =>
    let delay := engine.compiler.delayMs base pattern
    if delay = 0 then s.finish engine id else s.setPhase id (.asleep (s.now + delay))
  | _ => s

/-- The jobs that are queued, in their order. -/
def queue (s : Session) : List Nat :=
  (List.range s.jobs.length).filter fun id => s.jobs[id]?.any (·.phase == .queued)

/-- How many jobs get their turn before those who wait look again. -/
def turnsAtOnce : Nat := 61

/-- Starts the jobs that get their turn next. -/
def takeTurns (engine : Engine) (s : Session) : Session :=
  (s.queue.take turnsAtOnce).foldl (start engine) s

/-- The job that wakes next, with the time, from the jobs from a place on. -/
def nextOf? (id : Nat) : List Job → Option (Nat × Nat)
  | [] => none
  | job :: jobs =>
    match job.phase, nextOf? (id + 1) jobs with
    | .asleep wake, some (time, other) =>
      -- Of two that wake at one time, the one that was started first comes first.
      if wake ≤ time then some (wake, id) else some (time, other)
    | .asleep wake, none => some (wake, id)
    | _, next => next

/-- The job that wakes next, with the time. -/
def next? (s : Session) : Option (Nat × Nat) := nextOf? 0 s.jobs

end RouteAudit.Cache.Session
