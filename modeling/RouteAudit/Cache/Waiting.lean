import RouteAudit.Cache.Work

/-! # Waiting

The clock moves only while somebody waits. Jobs that are queued start first, so
many at a time; when none is queued any more, one after another wakes, in the order
of their times. That goes on until what is waited for is there or the deadline
comes. Whoever waits for a job that crashed learns that it was aborted, and from
then on that is its outcome.

Where work is done on demand there is no worker to catch a crash and no clock to look
at. A job that crashes ends whoever waits, and so does a deadline where there is
something to wait for. Nothing is told then, and what was done before stays.
-/

namespace RouteAudit.Cache.Session

/-- Lets somebody who waits for a job see how it ended. -/
def see (s : Session) (id : Nat) : Session :=
  match s.jobs[id]? with
  | some ⟨_, _, _, .crashed reason⟩ =>
    s.setPhase id (.settled (.failed (@CompileError.aborted reason)))
  | _ => s

/-- Lets somebody who waits for jobs see how they ended. -/
def seeAll (s : Session) (ids : List Nat) : Session := ids.foldl see s

/-- Whether the outcomes of some jobs are known. -/
def knows (s : Session) (ids : List Nat) : Bool :=
  ids.all fun id => (s.outcome? id).isSome

/-- Starts the jobs that are queued until the jobs waited for are over, or until none
is queued. Tells whether the jobs were over. Every turn starts a job, so the number
of jobs is fuel enough. -/
def startQueued (engine : Engine) (goal : Option (List Nat)) :
    (fuel : Nat) → Session → Bool × Session
  | 0, s => (false, s)
  | fuel + 1, s =>
    if s.queue.isEmpty then (false, s)
    else
      let s := (s.takeTurns engine).seeAll (goal.getD [])
      if goal.any s.knows then (true, s) else startQueued engine goal fuel s

/-- Lets one job after another wake until the jobs waited for are over, or until the
deadline; a deadline comes before what else happens at its time. Without jobs to
wait for there is only the deadline. Tells whether the jobs were over. Every turn
ends a job, so the number of jobs is fuel enough. -/
def passTime (engine : Engine) (goal : Option (List Nat)) (deadline : Option Nat) :
    (fuel : Nat) → Session → Bool × Session
  | 0, s => (false, s)
  | fuel + 1, s =>
    let s := s.seeAll (goal.getD [])
    if goal.any s.knows then (true, s)
    else
      match s.next?, deadline with
      | none, none => (false, s)
      | none, some time => (false, { s with now := max s.now time })
      | some (wake, id), none =>
        passTime engine goal deadline fuel ({ s with now := max s.now wake }.finish engine id)
      | some (wake, id), some time =>
        -- At the time of the deadline itself nobody waits any longer.
        if time ≤ wake then (false, { s with now := max s.now time })
        else passTime engine goal deadline fuel ({ s with now := max s.now wake }.finish engine id)

/-- Runs a job to its end at once. -/
def complete (engine : Engine) (s : Session) (id : Nat) : Session :=
  let s := s.start engine id
  match s.jobs[id]? with
  | some ⟨_, _, _, .asleep wake⟩ => { s with now := max s.now wake }.finish engine id
  | _ => s

/-- Waits while the worker works on its own. What is over already, and a deadline that
has passed already, is noticed before any job gets its turn. -/
def waitFor (engine : Engine) (s : Session) (goal : Option (List Nat)) (deadline : Option Nat) :
    Bool × Session :=
  let s := s.seeAll (goal.getD [])
  if goal.any s.knows then (true, s)
  else if deadline.any (· ≤ s.now) then (false, s)
  else
    let (done, s) := startQueued engine goal (s.jobs.length + 1) s
    if done then (true, s) else passTime engine goal deadline (s.jobs.length + 1) s

/-- Runs jobs to their end, one after another, until one crashes. -/
def completeAll (engine : Engine) : List Nat → Session → Session
  | [], s => s
  | id :: ids, s =>
    let s := s.complete engine id
    if (s.outcome? id).isSome then completeAll engine ids s else s

/-- Waits by doing the work. Nobody else works, so what is waited for is all that gets
done. -/
def workFor (engine : Engine) (s : Session) (goal : Option (List Nat)) (deadline : Option Nat) :
    Bool × Session :=
  if goal.any s.knows then (true, s)
  else if deadline.isSome then (false, s)
  else
    let s := completeAll engine (goal.getD []) s
    (goal.any s.knows, s)

/-- Waits until the outcomes of some jobs are known, or until a deadline. Tells whether
they are known. -/
def wait (engine : Engine) (s : Session) (goal : Option (List Nat)) (deadline : Option Nat) :
    Bool × Session :=
  match engine.drive with
  | .eager => s.waitFor engine goal deadline
  | .onDemand => s.workFor engine goal deadline

/-- Waits for one job, and tells its outcome. -/
def await (engine : Engine) (s : Session) (id : Nat) : Option Outcome × Session :=
  let (_, s) := s.wait engine (some [id]) none
  (s.outcome? id, s)

/-- Lets some time pass. -/
def sleep (engine : Engine) (s : Session) (ms : Nat) : Session :=
  (s.wait engine none (some (s.now + ms))).2

/-- Goes on to a cache of the next generation, with a store that takes what its file
holds, if there was a store. -/
def renew (engine : Engine) (s : Session) : Session :=
  let reopened := s.cache.store.map fun store =>
    Store.openAt s.site store.options (s.stamp engine)
  { s with retired := s.retired ++ [s.cache], cache := { store := reopened } }

end RouteAudit.Cache.Session
