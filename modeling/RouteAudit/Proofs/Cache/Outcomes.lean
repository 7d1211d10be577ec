import RouteAudit.Proofs.Cache.Origins

/-! # What jobs come to

What a job comes to is what the compiler says of its pair, whoever waits for it and whatever else
happens (`Sound.moves`). Whoever waits gets to see that where a worker catches crashes and looks at
the clock, and where work is done on demand as long as it takes neither (`Engine.Delivers`).
-/

namespace RouteAudit

/-- What those who wait for a compilation are told of a pair in the end. -/
def Compiler.outcome (compiler : Compiler) (base pattern : String) : Outcome :=
  match compiler.ending base pattern with
  | .crash reason => .failed (@CompileError.aborted reason)
  | .result (.error error) => .failed error
  | .result (.ok matcher) => .compiled ⟨pattern, base, matcher⟩

/-- Whether a compilation ends in a crash. -/
def Compiler.crashes (compiler : Compiler) (base pattern : String) : Bool :=
  match compiler.ending base pattern with
  | .crash _ => true
  | .result _ => false

theorem Compiler.entry_of_outcome {compiler : Compiler} {base pattern : String} {entry : Compiled}
    (h : compiler.outcome base pattern = .compiled entry) :
    entry.base = base ∧ entry.pattern = pattern := by
  unfold Compiler.outcome at h
  split at h
  next => cases h
  next => cases h
  next =>
    obtain rfl := Outcome.compiled.inj h
    exact ⟨rfl, rfl⟩

namespace Cache

/-- Whether whoever waits until a deadline, or without one, is told how the jobs end or sees the
deadline come. -/
def Engine.Delivers (engine : Engine) (deadline : Option Nat) : Prop :=
  engine.drive = .eager ∨
    deadline = none ∧ ∀ base pattern, engine.compiler.crashes base pattern = false

namespace Job

/-- What a job has come to is what the compiler says of its pair. -/
structure Sound (compiler : Compiler) (job : Job) : Prop where
  settled : ∀ outcome, job.phase = .settled outcome →
    outcome = compiler.outcome job.base job.pattern
  crashed : ∀ reason, job.phase = .crashed reason →
    compiler.ending job.base job.pattern = .crash reason

variable {engine : Engine} {job : Job}

theorem Sound.outcome_of_crashed {compiler : Compiler} (h : job.Sound compiler)
    {reason : Option String} (hcrashed : job.phase = .crashed reason) :
    compiler.outcome job.base job.pattern = .failed (@CompileError.aborted reason) := by
  rw [Compiler.outcome, h.crashed reason hcrashed]

/-- Where a compilation does not crash its job does not. -/
theorem Sound.not_crashed {compiler : Compiler} (h : job.Sound compiler)
    (hcalm : compiler.crashes job.base job.pattern = false) : job.phase.isCrashed = false := by
  cases hphase : job.phase with
  | crashed reason =>
      rw [Compiler.crashes, h.crashed reason hphase] at hcalm
      cases hcalm
  | queued | asleep | settled => rfl

theorem sound_of_open (hopen : job.phase.stage < 2) : job.Sound engine.compiler where
  settled outcome hsettled := by simp [hsettled, Phase.stage] at hopen
  crashed reason hcrashed := by simp [hcrashed, Phase.stage] at hopen

theorem sound_finished (engine : Engine) (job : Job) :
    (job.finished engine).Sound engine.compiler := by
  unfold finished
  split
  next hending =>
    refine ⟨by simp, fun reason hcrashed => ?_⟩
    obtain rfl := Phase.crashed.inj hcrashed
    exact hending
  next hending => exact ⟨by simp [Compiler.outcome, hending], by simp⟩
  next hending => exact ⟨by simp [Compiler.outcome, hending], by simp⟩

theorem Sound.started (h : job.Sound engine.compiler) (now : Nat) :
    (job.started engine now).Sound engine.compiler := by
  unfold Job.started
  split_ifs
  · exact job.sound_finished engine
  · exact sound_of_open (by simp [Phase.stage])
  · exact h

theorem Sound.woken (h : job.Sound engine.compiler) (now : Nat) :
    (job.woken engine now).Sound engine.compiler := by
  unfold Job.woken
  split
  next =>
    split_ifs
    · exact job.sound_finished engine
    · exact h
  next => exact h

theorem Sound.seen (h : job.Sound engine.compiler) : job.seen.Sound engine.compiler := by
  unfold Job.seen
  split
  next reason hcrashed => exact ⟨by simp [h.outcome_of_crashed hcrashed], by simp⟩
  next => exact h

end Job

namespace Session

/-- All jobs of a session are sound. -/
def Sound (compiler : Compiler) (s : Session) : Prop := ∀ job ∈ s.jobs, job.Sound compiler

section

variable {engine : Engine} {s t : Session}

theorem Sound.of_no_jobs (fresh : s.jobs = []) : s.Sound engine.compiler := by
  intro job hjob
  rw [fresh] at hjob
  cases hjob

theorem Sound.modify (h : s.Sound engine.compiler) {f : Job → Job} {id : Nat}
    (hf : ∀ job : Job, job.Sound engine.compiler → (f job).Sound engine.compiler)
    (hjobs : t.jobs = s.jobs.modify id f) : t.Sound engine.compiler := by
  intro job hjob
  obtain ⟨i, hi⟩ := List.mem_iff_getElem?.mp hjob
  rw [hjobs, List.getElem?_modify] at hi
  obtain ⟨old, hold, rfl⟩ := Option.map_eq_some_iff.mp hi
  have hsound := h old (List.mem_of_getElem? hold)
  by_cases hid : id = i
  · simpa [hid] using hf old hsound
  · simpa [hid] using hsound

theorem Sound.resolve (h : s.Sound engine.compiler) (base pattern : String) :
    (s.resolve base pattern).2.Sound engine.compiler := by
  intro job hjob
  rcases s.resolve_cases base pattern with ⟨-, hjobs⟩ | ⟨-, -, hjobs⟩
  · exact h job (hjobs ▸ hjob)
  · rw [hjobs, List.mem_append, List.mem_singleton] at hjob
    rcases hjob with hjob | rfl
    · exact h job hjob
    · exact Job.sound_of_open (by simp [Phase.stage])

theorem Sound.resolveAll (h : s.Sound engine.compiler) (base : String) (patterns : List String) :
    (s.resolveAll base patterns).2.Sound engine.compiler := by
  induction patterns generalizing s with
  | nil => exact h
  | cons pattern patterns ih => exact ih (h.resolve base pattern)

theorem Sound.move (h : s.Sound engine.compiler) (m : Move) :
    (s.move engine m).2.Sound engine.compiler := by
  cases m with
  | lookup base pattern => exact h.resolve base pattern
  | start id => exact h.modify (fun _ hjob => hjob.started s.now) (s.start_jobs engine id)
  | wake id => exact h.modify (fun _ hjob => hjob.woken s.now) (s.wake_jobs engine id)
  | poll id => exact h.modify (fun _ hjob => hjob.seen) (s.see_jobs id)
  | pass | tell | resetStats | renew => exact h
  | flushStore =>
      intro job hjob
      exact h job (s.flushStore_jobs engine ▸ hjob)

theorem Sound.moves (h : s.Sound engine.compiler) (ms : List Move) :
    (s.moves engine ms).2.Sound engine.compiler := by
  induction ms generalizing s with
  | nil => exact h
  | cons m ms ih => exact ih (h.move m)

theorem Waits.sound (hst : Waits engine s t) (h : s.Sound engine.compiler) :
    t.Sound engine.compiler := by
  obtain ⟨ms, -, rfl⟩ := hst
  exact h.moves ms

/-- An outcome that is known of a job is that of its pair. -/
theorem Sound.outcome? (h : s.Sound engine.compiler) {id : Nat} {outcome : Outcome}
    {pair : String × String} (hpair : s.pair? id = some pair)
    (houtcome : s.outcome? id = some outcome) :
    outcome = engine.compiler.outcome pair.1 pair.2 := by
  unfold Session.outcome? at houtcome
  split at houtcome
  next generation base pattern ended hjob =>
    obtain rfl : (base, pattern) = pair := by simpa [Session.pair?, hjob] using hpair
    obtain rfl := Option.some.inj houtcome
    exact (h _ (List.mem_of_getElem? hjob)).settled ended rfl
  next => cases houtcome

end

end Session

end Cache

end RouteAudit
