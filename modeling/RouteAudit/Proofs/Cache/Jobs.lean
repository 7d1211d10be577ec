import Mathlib.Data.List.Basic
import RouteAudit.Analysis.Script

/-! # What operations do to the jobs

Whatever happens to a session, its jobs stay in their places and go on from phase to
phase. Each operation below rewrites at most one place of the list, by a function of
the job alone; counters, store, site and events are other parts of the session and
never reach the jobs.
-/

namespace RouteAudit.Cache

/-- What a lookup is about: a key in one generation of caches. -/
structure Slot where
  generation : Nat
  key : String
  deriving Repr, BEq, DecidableEq

/-- Whether a job crashed and nobody has seen it yet. -/
def Phase.isCrashed : Phase → Bool
  | .crashed _ => true
  | .queued | .asleep _ | .settled _ => false

namespace Job

/-- The slot that a job belongs to. -/
def slot (job : Job) : Slot := ⟨job.generation, job.key⟩

/-- The job as it was first. All but its phase stays as it was. -/
def origin (job : Job) : Job := { job with phase := .queued }

theorem slot_eq {job other : Job} (h : job.origin = other.origin) : job.slot = other.slot := by
  have hslot : job.origin.slot = other.origin.slot := congrArg slot h
  exact hslot

/-- The job at the end of its compilation. -/
def finished (engine : Engine) (job : Job) : Job :=
  match engine.compiler.ending job.base job.pattern with
  | .crash reason => { job with phase := .crashed reason }
  | .result (.error error) => { job with phase := .settled (.failed error) }
  | .result (.ok matcher) =>
    { job with phase := .settled (.compiled ⟨job.pattern, job.base, matcher⟩) }

/-- The job after the worker turned to it at some time. -/
def started (engine : Engine) (now : Nat) (job : Job) : Job :=
  if job.phase = .queued then
    if engine.compiler.delayMs job.base job.pattern = 0 then job.finished engine
    else { job with phase := .asleep (now + engine.compiler.delayMs job.base job.pattern) }
  else job

/-- The job after somebody who waits for it looked at it. -/
def seen (job : Job) : Job :=
  match job.phase with
  | .crashed reason => { job with phase := .settled (.failed (@CompileError.aborted reason)) }
  | _ => job

theorem seen_of_not_crashed {job : Job} (h : job.phase.isCrashed = false) : job.seen = job := by
  unfold seen
  split
  next hcrashed => simp [hcrashed, Phase.isCrashed] at h
  next => rfl

theorem isCrashed_seen (job : Job) : job.seen.phase.isCrashed = false := by
  unfold seen
  split
  next => rfl
  next hnot =>
    cases hphase : job.phase with
    | crashed reason => exact absurd hphase (hnot reason)
    | queued | asleep | settled => rfl

/-- The job after its alarm went off, if it did. -/
def woken (engine : Engine) (now : Nat) (job : Job) : Job :=
  match job.phase with
  | .asleep wake => if wake ≤ now then job.finished engine else job
  | _ => job

@[simp] theorem finished_origin (engine : Engine) (job : Job) :
    (job.finished engine).origin = job.origin := by
  unfold finished
  split <;> rfl

@[simp] theorem started_origin (engine : Engine) (now : Nat) (job : Job) :
    (job.started engine now).origin = job.origin := by
  unfold started
  split_ifs
  · exact job.finished_origin engine
  · rfl
  · rfl

@[simp] theorem seen_origin (job : Job) : job.seen.origin = job.origin := by
  unfold seen
  split <;> rfl

@[simp] theorem woken_origin (engine : Engine) (now : Nat) (job : Job) :
    (job.woken engine now).origin = job.origin := by
  unfold woken
  split
  next wake _ =>
    split_ifs
    · exact job.finished_origin engine
    · rfl
  next => rfl

end Job

/-- Two rewritings of one place agree when they agree on what stands there. -/
theorem modify_congr {α : Type} {f g : α → α} {l : List α} {i : Nat}
    (h : ∀ a, l[i]? = some a → f a = g a) : l.modify i f = l.modify i g := by
  apply List.ext_getElem?
  intro j
  rw [List.getElem?_modify, List.getElem?_modify]
  by_cases hij : i = j
  · subst hij
    cases ha : l[i]? with
    | none => rfl
    | some a => simp [h a ha]
  · simp [hij]

/-- A rewriting that leaves what stands at its place alone does nothing. -/
theorem modify_eq_self {α : Type} {f : α → α} {l : List α} {i : Nat}
    (h : ∀ a, l[i]? = some a → f a = a) : l.modify i f = l := by
  rw [modify_congr (g := id) h]
  exact List.modify_id i l

/-- A job goes on in its place, and what does not depend on its phase stays. -/
theorem map_modify {α : Type} {f : Job → Job} {g : Job → α} (hf : ∀ job, g (f job) = g job)
    (jobs : List Job) (id : Nat) : (jobs.modify id f).map g = jobs.map g := by
  apply List.ext_getElem?
  intro i
  rw [List.getElem?_map, List.getElem?_map, List.getElem?_modify]
  cases jobs[i]? with
  | none => rfl
  | some job =>
      by_cases hid : id = i
      · simp [hid, hf]
      · simp [hid]

namespace Session

variable (engine : Engine) (s : Session)

/-! ## What never reaches the jobs -/

@[simp] theorem tell_jobs (event : Event) : (s.tell event).jobs = s.jobs := rfl

@[simp]
theorem setCounters_jobs (counters : Counters) : (s.setCounters counters).jobs = s.jobs := rfl

@[simp] theorem modifyGeneration_jobs (number : Nat) (f : Generation → Generation) :
    (s.modifyGeneration number f).jobs = s.jobs := by
  unfold modifyGeneration
  split <;> rfl

@[simp] theorem countError_jobs (number : Nat) : (s.countError number).jobs = s.jobs :=
  s.modifyGeneration_jobs number _

@[simp] theorem keep_jobs (job : Job) : (s.keep engine job).jobs = s.jobs := by
  unfold keep
  split
  · rfl
  · simp

@[simp] theorem flushStore_jobs : (s.flushStore engine).jobs = s.jobs := by
  unfold flushStore
  split <;> rfl

/-! ## What never reaches the clock or the generation -/

@[simp] theorem modifyGeneration_now (number : Nat) (f : Generation → Generation) :
    (s.modifyGeneration number f).now = s.now := by
  unfold modifyGeneration
  split <;> rfl

@[simp] theorem modifyGeneration_generation (number : Nat) (f : Generation → Generation) :
    (s.modifyGeneration number f).generation = s.generation := by
  unfold modifyGeneration generation
  split <;> simp

@[simp] theorem keep_now (job : Job) : (s.keep engine job).now = s.now := by
  unfold keep
  split
  · rfl
  · simp

@[simp] theorem keep_generation (job : Job) :
    (s.keep engine job).generation = s.generation := by
  unfold keep
  split
  · rfl
  · exact s.modifyGeneration_generation _ _

@[simp] theorem finish_now (id : Nat) : (s.finish engine id).now = s.now := by
  unfold finish
  split
  · rfl
  · split <;> simp [setPhase, tell, countError]

@[simp] theorem finish_generation (id : Nat) :
    (s.finish engine id).generation = s.generation := by
  unfold finish
  split
  · rfl
  · split
    · rfl
    · exact s.modifyGeneration_generation _ _
    · exact (s.tell _).keep_generation engine _

/-! ## One place of the list -/

/-- A job that ends takes its place among those that have ended. -/
theorem finish_jobs (id : Nat) :
    (s.finish engine id).jobs = s.jobs.modify id (Job.finished engine) := by
  unfold finish
  split
  next hnone =>
    rw [modify_eq_self]
    intro job hjob
    rw [hnone] at hjob
    cases hjob
  next job hjob =>
    split
    all_goals
      next hending =>
        simp only [setPhase, tell_jobs, countError_jobs, keep_jobs]
        apply modify_congr
        intro other hother
        obtain rfl : job = other := by simpa [hjob] using hother
        simp [Job.finished, hending]

/-- A job that is asleep ends once its time has come. -/
def wake (id : Nat) : Session :=
  match s.jobs[id]? with
  | some ⟨_, _, _, .asleep time⟩ => if time ≤ s.now then s.finish engine id else s
  | _ => s

theorem start_jobs (id : Nat) :
    (s.start engine id).jobs = s.jobs.modify id (Job.started engine s.now) := by
  unfold start
  split
  next generation base pattern hjob =>
    dsimp only
    split_ifs with hdelay
    · rw [finish_jobs]
      apply modify_congr
      intro job hat
      obtain rfl : ⟨generation, base, pattern, .queued⟩ = job := by simpa [hjob] using hat
      simp [Job.started, hdelay]
    · apply modify_congr
      intro job hat
      obtain rfl : ⟨generation, base, pattern, .queued⟩ = job := by simpa [hjob] using hat
      simp [Job.started, hdelay]
  next hother =>
    rw [modify_eq_self]
    intro job hat
    have hphase : job.phase ≠ .queued := by
      obtain ⟨generation, base, pattern, phase⟩ := job
      rintro rfl
      exact hother generation base pattern hat
    simp [Job.started, hphase]

theorem wake_jobs (id : Nat) :
    (s.wake engine id).jobs = s.jobs.modify id (Job.woken engine s.now) := by
  unfold wake
  split
  next generation base pattern time hjob =>
    split_ifs with htime
    · rw [finish_jobs]
      apply modify_congr
      intro job hat
      obtain rfl : ⟨generation, base, pattern, .asleep time⟩ = job := by simpa [hjob] using hat
      simp [Job.woken, htime]
    · rw [modify_eq_self]
      intro job hat
      obtain rfl : ⟨generation, base, pattern, .asleep time⟩ = job := by simpa [hjob] using hat
      simp [Job.woken, htime]
  next hother =>
    rw [modify_eq_self]
    intro job hat
    obtain ⟨generation, base, pattern, phase⟩ := job
    unfold Job.woken
    split
    next time hphase =>
      subst hphase
      exact absurd hat (hother generation base pattern time)
    next => rfl

theorem see_jobs (id : Nat) : (s.see id).jobs = s.jobs.modify id Job.seen := by
  unfold see
  split
  next generation base pattern reason hjob =>
    apply modify_congr
    intro job hat
    obtain rfl : ⟨generation, base, pattern, .crashed reason⟩ = job := by simpa [hjob] using hat
    rfl
  next hother =>
    rw [modify_eq_self]
    intro job hat
    obtain ⟨generation, base, pattern, phase⟩ := job
    cases phase with
    | crashed reason => exact absurd hat (hother generation base pattern reason)
    | queued | asleep | settled => rfl

@[simp] theorem start_now (id : Nat) : (s.start engine id).now = s.now := by
  unfold start
  split
  · dsimp only
    split_ifs
    · exact s.finish_now engine id
    · rfl
  · rfl

@[simp] theorem start_generation (id : Nat) :
    (s.start engine id).generation = s.generation := by
  unfold start
  split
  · dsimp only
    split_ifs
    · exact s.finish_generation engine id
    · rfl
  · rfl

@[simp] theorem wake_generation (id : Nat) :
    (s.wake engine id).generation = s.generation := by
  unfold wake
  split
  · split_ifs
    · exact s.finish_generation engine id
    · rfl
  · rfl

@[simp] theorem see_now (id : Nat) : (s.see id).now = s.now := by
  unfold see
  split <;> rfl

@[simp] theorem see_generation (id : Nat) : (s.see id).generation = s.generation := by
  unfold see
  split <;> rfl

end Session

end RouteAudit.Cache
