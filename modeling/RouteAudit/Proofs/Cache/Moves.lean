import RouteAudit.Proofs.Cache.Jobs

/-! # Single moves

Callers and the worker take turns on a session, and a turn ends wherever somebody has
to wait. A move is what happens in one turn, and a list of moves is one interleaving
of any number of callers with the worker and the clock: every order is allowed, also
those that no scheduler would choose. What callers and the compiler see of the moves
is their trace.

Waiting, with all that it lets the worker do, is a list of moves that look nothing up
(`wait_waits`), so whatever every quiet move keeps every wait keeps.
-/

namespace RouteAudit.Cache

/-- What happens in one turn. -/
inductive Move where
  /-- A caller looks a pattern up. -/
  | lookup (base pattern : String)
  /-- The worker turns to a job that is queued and calls the compiler. -/
  | start (job : Nat)
  /-- The worker turns to a job that is asleep and whose time has come. -/
  | wake (job : Nat)
  /-- Somebody who waits for a job looks how far it has come. -/
  | poll (job : Nat)
  /-- The clock goes on. -/
  | pass (time : Nat)
  | tell (event : Event)
  | resetStats
  | flushStore
  | renew
  deriving Repr, DecidableEq

/-- What is seen of a move from outside. -/
inductive Sight where
  /-- A lookup was answered. -/
  | answered (slot : Slot) (mode : LookupMode)
  /-- The compiler was called. -/
  | called (slot : Slot)
  /-- A caller was told an outcome. -/
  | told (slot : Slot) (outcome : Outcome)
  deriving Repr, DecidableEq

/-- The base and the pattern that a move looks up. -/
def Move.pair? : Move → Option (String × String)
  | lookup base pattern => some (base, pattern)
  | _ => none

/-- Moves of the worker, of the clock and of those who wait. They look nothing up. -/
def Move.IsQuiet : Move → Prop
  | start _ | wake _ | poll _ | pass _ => True
  | _ => False

/-- The call that the compiler sees when the worker turns to a job. -/
def Job.call (job : Job) : List Sight :=
  if job.phase = .queued then [.called job.slot] else []

/-- What a caller is told who looks at a job. -/
def Job.told (job : Job) : List Sight :=
  match job.phase with
  | .settled outcome => [.told job.slot outcome]
  | _ => []

namespace Session

/-- What the compiler sees when the worker turns to the job at a place. -/
def callAt (s : Session) (id : Nat) : List Sight := s.jobs[id]?.toList.flatMap Job.call

/-- What a caller is told who looks at the job at a place. -/
def toldAt (s : Session) (id : Nat) : List Sight := s.jobs[id]?.toList.flatMap Job.told

/-- Makes one move. -/
def move (engine : Engine) (s : Session) : Move → List Sight × Session
  | .lookup base pattern =>
    let (resolution, next) := s.resolve base pattern
    -- An answer that is given at once carries the outcome with it.
    (.answered ⟨s.generation, cacheKey base pattern⟩ resolution.mode :: s.toldAt resolution.job,
      next)
  | .start id => (s.callAt id, s.start engine id)
  | .wake id => ([], s.wake engine id)
  | .poll id => ((s.see id).toldAt id, s.see id)
  | .pass time => ([], { s with now := max s.now time })
  | .tell event => ([], s.tell event)
  | .resetStats => ([], s.resetStats)
  | .flushStore => ([], s.flushStore engine)
  | .renew => ([], s.renew engine)

/-- Makes some moves, one after another, and collects what is seen. -/
def moves (engine : Engine) (s : Session) : List Move → List Sight × Session
  | [] => ([], s)
  | m :: ms =>
    let (seen, s) := s.move engine m
    let (rest, s) := s.moves engine ms
    (seen ++ rest, s)

section

variable {engine : Engine} {s t u : Session}

theorem moves_append (first second : List Move) :
    s.moves engine (first ++ second) =
      ((s.moves engine first).1 ++ ((s.moves engine first).2.moves engine second).1,
        ((s.moves engine first).2.moves engine second).2) := by
  induction first generalizing s with
  | nil => rfl
  | cons m ms ih => simp [moves, ih]

/-- Whatever each move of one cache keeps, a row of them keeps. -/
theorem moves_keep {motive : Session → Prop}
    (hmove : ∀ (s : Session) (m : Move), m ≠ .renew → motive s → motive (s.move engine m).2)
    {ms : List Move} (hms : .renew ∉ ms) (h : motive s) : motive (s.moves engine ms).2 := by
  induction ms generalizing s with
  | nil => exact h
  | cons m ms ih =>
      rw [List.mem_cons, not_or] at hms
      exact ih hms.2 (hmove s m (Ne.symm hms.1) h)

/-! ## Waiting -/

/-- Somebody waited, and that is what became of the session meanwhile. -/
def Waits (engine : Engine) (s t : Session) : Prop :=
  ∃ ms, (∀ m ∈ ms, m.IsQuiet) ∧ (s.moves engine ms).2 = t

namespace Waits

theorem refl (s : Session) : Waits engine s s := ⟨[], by simp, rfl⟩

theorem trans (hst : Waits engine s t) (htu : Waits engine t u) : Waits engine s u := by
  obtain ⟨first, hfirst, rfl⟩ := hst
  obtain ⟨second, hsecond, rfl⟩ := htu
  refine ⟨first ++ second, ?_, by rw [moves_append]⟩
  intro m hm
  rcases List.mem_append.mp hm with hm | hm
  · exact hfirst m hm
  · exact hsecond m hm

theorem of_move {m : Move} (hm : m.IsQuiet) : Waits engine s (s.move engine m).2 :=
  ⟨[m], by simpa using hm, rfl⟩

/-- Whatever a single quiet move keeps, waiting keeps. -/
theorem induct {motive : Session → Session → Prop} (hst : Waits engine s t)
    (refl : ∀ s, motive s s)
    (step : ∀ s m u, m.IsQuiet → motive (s.move engine m).2 u → motive s u) : motive s t := by
  obtain ⟨ms, hquiet, rfl⟩ := hst
  induction ms generalizing s with
  | nil => exact refl s
  | cons m ms ih =>
      apply step s m _ (hquiet m List.mem_cons_self)
      exact ih fun other hother => hquiet other (List.mem_cons_of_mem m hother)

end Waits

theorem foldl_waits {f : Session → Nat → Session} (hf : ∀ s id, Waits engine s (f s id))
    (ids : List Nat) : Waits engine s (ids.foldl f s) := by
  induction ids generalizing s with
  | nil => exact .refl s
  | cons id ids ih => exact (hf s id).trans ih

theorem seeAll_waits (ids : List Nat) : Waits engine s (s.seeAll ids) :=
  foldl_waits (fun _ id => .of_move (m := .poll id) trivial) ids

theorem takeTurns_waits : Waits engine s (s.takeTurns engine) :=
  foldl_waits (fun _ id => .of_move (m := .start id) trivial) _

theorem startQueued_waits (goal : Option (List Nat)) (fuel : Nat) :
    Waits engine s (startQueued engine goal fuel s).2 := by
  induction fuel generalizing s with
  | zero => exact .refl s
  | succ fuel ih =>
      unfold startQueued
      split
      · exact .refl s
      refine (takeTurns_waits.trans (seeAll_waits (goal.getD []))).trans ?_
      dsimp only
      split
      · exact .refl _
      · exact ih

/-- The job that wakes next is asleep until the time that is told with it, and no job
sleeps shorter. -/
theorem nextOf?_eq_some {first wake id : Nat} {jobs : List Job}
    (hnext : nextOf? first jobs = some (wake, id)) :
    first ≤ id ∧ ∃ job, jobs[id - first]? = some job ∧ job.phase = .asleep wake := by
  induction jobs generalizing first wake id with
  | nil => cases hnext
  | cons job jobs ih =>
      have hlater {time other : Nat} (h : nextOf? (first + 1) jobs = some (time, other)) :
          first ≤ other ∧ ∃ job', (job :: jobs)[other - first]? = some job' ∧
            job'.phase = .asleep time := by
        obtain ⟨hle, job', hat, hphase⟩ := ih h
        refine ⟨by omega, job', ?_, hphase⟩
        rw [show other - first = other - (first + 1) + 1 by omega]
        exact hat
      unfold nextOf? at hnext
      split at hnext
      next time here other hphase hrest =>
        split_ifs at hnext
        · obtain ⟨rfl, rfl⟩ := Prod.mk.injEq .. ▸ Option.some.inj hnext
          exact ⟨Nat.le_refl first, job, by simp, hphase⟩
        · obtain ⟨rfl, rfl⟩ := Prod.mk.injEq .. ▸ Option.some.inj hnext
          exact hlater hrest
      next time hphase hrest =>
        obtain ⟨rfl, rfl⟩ := Prod.mk.injEq .. ▸ Option.some.inj hnext
        exact ⟨Nat.le_refl first, job, by simp, hphase⟩
      next => exact hlater hnext

/-- To end a sleeping job at its time is to let the clock go on and to wake it. -/
theorem finish_waits {wake id : Nat} {job : Job} (hjob : s.jobs[id]? = some job)
    (hasleep : job.phase = .asleep wake) :
    Waits engine s ({ s with now := max s.now wake }.finish engine id) := by
  refine ⟨[.pass wake, .wake id], by simp [Move.IsQuiet], ?_⟩
  obtain ⟨generation, base, pattern, phase⟩ := job
  obtain rfl : phase = .asleep wake := hasleep
  simp only [moves, move, Session.wake, hjob, Nat.le_max_right, if_true]

theorem passTime_waits (goal : Option (List Nat)) (deadline : Option Nat) (fuel : Nat) :
    Waits engine s (passTime engine goal deadline fuel s).2 := by
  have hpass (s : Session) (time : Nat) : Waits engine s { s with now := max s.now time } :=
    Waits.of_move (m := .pass time) trivial
  have hfinish {s : Session} {wake id : Nat} (h : s.next? = some (wake, id)) :
      Waits engine s ({ s with now := max s.now wake }.finish engine id) := by
    obtain ⟨_, job, hjob, hasleep⟩ := nextOf?_eq_some h
    exact finish_waits hjob hasleep
  induction fuel generalizing s with
  | zero => exact .refl s
  | succ fuel ih =>
      unfold passTime
      refine (seeAll_waits (goal.getD [])).trans ?_
      dsimp only
      split_ifs
      · exact .refl _
      · split
        next => exact .refl _
        next time _ => exact hpass _ time
        next wake id hnext => exact (hfinish hnext).trans ih
        next wake id time hnext =>
          split_ifs
          · exact hpass _ time
          · exact (hfinish hnext).trans ih

theorem complete_waits (id : Nat) : Waits engine s (s.complete engine id) := by
  refine (Waits.of_move (m := .start id) trivial).trans ?_
  unfold complete
  dsimp only [move]
  split
  next generation base pattern wake hjob => exact finish_waits hjob rfl
  next => exact .refl _

theorem waitFor_waits (goal : Option (List Nat)) (deadline : Option Nat) :
    Waits engine s (s.waitFor engine goal deadline).2 := by
  unfold waitFor
  refine (seeAll_waits (goal.getD [])).trans ?_
  dsimp only
  generalize s.seeAll (goal.getD []) = s
  split
  · exact .refl s
  split
  · exact .refl s
  refine (startQueued_waits goal (s.jobs.length + 1)).trans ?_
  split
  · exact .refl _
  · exact passTime_waits goal deadline _

theorem completeAll_waits (ids : List Nat) : Waits engine s (completeAll engine ids s) := by
  induction ids generalizing s with
  | nil => exact .refl s
  | cons id ids ih =>
      unfold completeAll
      refine (s.complete_waits id).trans ?_
      dsimp only
      split
      · exact ih
      · exact .refl _

theorem workFor_waits (goal : Option (List Nat)) (deadline : Option Nat) :
    Waits engine s (s.workFor engine goal deadline).2 := by
  unfold workFor
  split
  · exact .refl s
  split
  · exact .refl s
  exact completeAll_waits (goal.getD [])

theorem wait_waits (goal : Option (List Nat)) (deadline : Option Nat) :
    Waits engine s (s.wait engine goal deadline).2 := by
  unfold wait
  split
  · exact waitFor_waits goal deadline
  · exact workFor_waits goal deadline

end

end Session

end RouteAudit.Cache
