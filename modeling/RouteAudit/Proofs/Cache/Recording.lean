import RouteAudit.Proofs.Cache.Provenance
import RouteAudit.Proofs.Cache.WriteOnce
import RouteAudit.Proofs.Store.Pending

/-! # What a cache records

A cache asks its store for two things: to record a compilation that has ended with a matcher, and to
write what was recorded. Which of them a move asks for can be told from the session that it is made
in (`turns`), and store and file are what these turns make of them (`kept?_moves`). A job asks for
its recording when it ends, before its outcome is known and whether or not anybody waits for it, so
among the turns there is one recording of each key that was compiled and none of any other
(`recordsOf_of_fresh`).
-/

namespace RouteAudit.Cache

open Store (Turn Kept)

namespace Job

/-- Whether the compilation of a job has come to its end. -/
def isOver (job : Job) : Bool :=
  match job.phase with
  | .queued | .asleep _ => false
  | .crashed _ | .settled _ => true

/-- Whether a job has come to a matcher. -/
def isCompiled (job : Job) : Bool :=
  match job.phase with
  | .settled outcome => outcome.isCompiled
  | _ => false

/-- Whether a job has come to a matcher for a key. -/
def compiles (key : String) (job : Job) : Bool := job.isCompiled && job.key == key

/-- Whether a job ends as soon as the worker turns to it. -/
def isInstant (engine : Engine) (job : Job) : Bool :=
  job.phase = .queued ∧ engine.compiler.delayMs job.base job.pattern = 0

/-- Whether a job is asleep and its time has come. -/
def isDue (now : Nat) (job : Job) : Bool :=
  match job.phase with
  | .asleep wake => wake ≤ now
  | _ => false

/-- The recording that comes with the end of a job, if it ends with a matcher. -/
def recording (engine : Engine) (now : Int64) (fault : Option Storage.WriteFault) (job : Job) :
    List Turn :=
  match engine.compiler.ending job.base job.pattern with
  | .result (.ok _) =>
    [⟨.record job.base job.pattern
      (.ofNat (engine.compiler.delayMs job.base job.pattern * 1000000)), now, fault⟩]
  | _ => []

end Job

/-- How often a key is recorded. -/
def recordsOf (key : String) (log : List Turn) : Nat :=
  (log.flatMap Turn.recorded).countP fun entry => cacheKey entry.base entry.pattern == key

namespace Session

/-- What the end of the job at a place asks the store for, if it comes to its end. -/
def turnsAt (engine : Engine) (s : Session) (id : Nat) (ends : Job → Bool) : List Turn :=
  match s.jobs[id]? with
  | some job => if ends job then job.recording engine (s.stamp engine) s.site.fault else []
  | none => []

/-- What a move asks the store for. -/
def turns (engine : Engine) (s : Session) : Move → List Turn
  | .start id => s.turnsAt engine id (Job.isInstant engine)
  | .wake id => s.turnsAt engine id (Job.isDue s.now)
  | .flushStore => [⟨.flushIfDirty, s.stamp engine, s.site.fault⟩]
  | .lookup .. | .poll _ | .pass _ | .tell _ | .resetStats | .renew => []

/-- What some moves ask the store for, one after another. -/
def turnsOver (engine : Engine) (s : Session) : List Move → List Turn
  | [] => []
  | m :: ms => s.turns engine m ++ (s.move engine m).2.turnsOver engine ms

/-- Whether the compilation of a key has come to its end, and to a matcher. -/
def hasCompiled (engine : Engine) (s : Session) (key : String) : Bool :=
  s.jobs.any fun job =>
    job.key == key && (job.isOver && (engine.compiler.outcome job.base job.pattern).isCompiled)

/-- The store of the cache with what it finds where it keeps its file. -/
def kept? (s : Session) : Option Kept := s.cache.store.map (⟨·, s.site⟩)

/-- All jobs are of the current generation. -/
def Own (s : Session) : Prop := ∀ job ∈ s.jobs, job.generation = s.generation

section

variable {engine : Engine} {s t : Session} {m : Move} {ms : List Move} {job : Job} {id : Nat}
  {key : String}

/-! ## Store and file -/

@[simp]
theorem run_nil (kept : Option Kept) : kept.map (·.run []) = kept := by
  cases kept <;> rfl

@[simp]
theorem kept?_setPhase (id : Nat) (phase : Phase) : (s.setPhase id phase).kept? = s.kept? := rfl

theorem kept?_countError (number : Nat) : (s.countError number).kept? = s.kept? := by
  unfold countError modifyGeneration
  split <;> rfl

theorem kept?_keep (hgeneration : job.generation = s.generation) :
    (s.keep engine job).kept? = s.kept?.map (·.turn ⟨.record job.base job.pattern
      (.ofNat (engine.compiler.delayMs job.base job.pattern * 1000000)), s.stamp engine,
      s.site.fault⟩) := by
  unfold keep kept?
  rw [generation?, if_pos hgeneration]
  cases hstore : s.cache.store with
  | none => simp [hstore]
  | some store => simp [hstore, modifyGeneration, hgeneration, Kept.turn, Kept.ofDone]

theorem kept?_finish (hjob : s.jobs[id]? = some job) (hgeneration : job.generation = s.generation) :
    (s.finish engine id).kept? =
      s.kept?.map (·.run (job.recording engine (s.stamp engine) s.site.fault)) := by
  unfold finish Job.recording
  rw [hjob]
  dsimp only
  cases engine.compiler.ending job.base job.pattern with
  | crash => exact (run_nil _).symm
  | result result =>
      cases result with
      | error error => exact (kept?_countError job.generation).trans (run_nil _).symm
      | ok matcher =>
          have hkeep : ((s.tell (.patternCompiled job.key)).keep engine job).kept? = _ :=
            kept?_keep hgeneration
          exact hkeep

theorem kept?_flushStore : (s.flushStore engine).kept? =
    s.kept?.map (·.turn ⟨.flushIfDirty, s.stamp engine, s.site.fault⟩) := by
  unfold flushStore kept?
  cases hstore : s.cache.store <;> simp [hstore, Kept.turn, Kept.ofDone]

theorem kept?_resolve (base pattern : String) : (s.resolve base pattern).2.kept? = s.kept? := by
  unfold resolve
  split <;> rfl

theorem kept?_see (id : Nat) : (s.see id).kept? = s.kept? := by
  unfold see
  split <;> rfl

theorem Own.at (h : s.Own) (hjob : s.jobs[id]? = some job) : job.generation = s.generation :=
  h job (List.mem_of_getElem? hjob)

theorem kept?_start (h : s.Own) (id : Nat) : (s.start engine id).kept? =
    s.kept?.map (·.run (s.turns engine (.start id))) := by
  rw [turns, turnsAt]
  cases hjob : s.jobs[id]? with
  | none => simp [start, hjob]
  | some job =>
      have hfinish : (s.finish engine id).kept? = _ := kept?_finish hjob (h.at hjob)
      obtain ⟨generation, base, pattern, phase⟩ := job
      cases phase with
      | queued =>
          by_cases hdelay : engine.compiler.delayMs base pattern = 0
          · simp [start, hjob, hdelay, hfinish, Job.isInstant]
          · simp [start, hjob, hdelay, Job.isInstant]
      | asleep | crashed | settled => simp [start, hjob, Job.isInstant]

theorem kept?_wake (h : s.Own) (id : Nat) : (s.wake engine id).kept? =
    s.kept?.map (·.run (s.turns engine (.wake id))) := by
  rw [turns, turnsAt]
  cases hjob : s.jobs[id]? with
  | none => simp [wake, hjob]
  | some job =>
      have hfinish : (s.finish engine id).kept? = _ := kept?_finish hjob (h.at hjob)
      obtain ⟨generation, base, pattern, phase⟩ := job
      cases phase with
      | asleep time =>
          by_cases htime : time ≤ s.now
          · simp [wake, hjob, htime, hfinish, Job.isDue]
          · simp [wake, hjob, htime, Job.isDue]
      | queued | crashed | settled => simp [wake, hjob, Job.isDue]

/-- What a move does to store and file are the turns that it asks for. -/
theorem kept?_move (h : s.Own) (hm : m ≠ .renew) :
    (s.move engine m).2.kept? = s.kept?.map (·.run (s.turns engine m)) := by
  cases m with
  | lookup base pattern => exact (kept?_resolve base pattern).trans (run_nil _).symm
  | start id => exact kept?_start h id
  | wake id => exact kept?_wake h id
  | poll id => exact (kept?_see id).trans (run_nil _).symm
  | pass | tell | resetStats => exact (run_nil _).symm
  | flushStore => exact kept?_flushStore
  | renew => exact absurd rfl hm

theorem Own.of_origins (h : s.Own) (horigins : t.origins = s.origins)
    (hgeneration : t.generation = s.generation) : t.Own := by
  intro job hjob
  have horigin : job.origin ∈ s.origins := horigins ▸ List.mem_map_of_mem hjob
  obtain ⟨old, hold, heq⟩ := List.mem_map.mp horigin
  have hsame : old.origin.generation = job.origin.generation := congrArg Job.generation heq
  rw [hgeneration]
  exact hsame.symm.trans (h old hold)

theorem Own.move (h : s.Own) (hm : m ≠ .renew) : (s.move engine m).2.Own := by
  by_cases hpair : m.pair? = none
  · exact h.of_origins (move_origins hpair) (move_generation hm)
  · cases m with
    | lookup base pattern =>
        intro job hjob
        rw [move_generation hm]
        rcases s.resolve_cases base pattern with ⟨-, hjobs⟩ | ⟨-, -, hjobs⟩
        · exact h job (hjobs ▸ hjob)
        · rcases List.mem_append.mp (hjobs ▸ hjob) with hjob | hjob
          · exact h job hjob
          · rw [List.mem_singleton.mp hjob]
    | _ => exact absurd rfl hpair

/-- Store and file are what the turns that the moves ask for make of them. -/
theorem kept?_moves (h : s.Own) (hms : .renew ∉ ms) :
    (s.moves engine ms).2.kept? = s.kept?.map (·.run (s.turnsOver engine ms)) := by
  induction ms generalizing s with
  | nil => exact (run_nil _).symm
  | cons m ms ih =>
      rw [List.mem_cons, not_or] at hms
      have hm : m ≠ .renew := Ne.symm hms.1
      simp only [moves, turnsOver]
      rw [ih (h.move hm) hms.2, kept?_move h hm, Option.map_map]
      congr 1
      funext kept
      exact (List.foldl_append).symm

/-! ## Recordings -/

theorem recordsOf_append (key : String) (first second : List Turn) :
    recordsOf key (first ++ second) = recordsOf key first + recordsOf key second := by
  simp [recordsOf]

/-- A job that ends is recorded if it has come to a matcher then. -/
theorem recordsOf_recording (key : String) (now : Int64) (fault : Option Storage.WriteFault)
    (job : Job) : recordsOf key (job.recording engine now fault) =
      if (job.finished engine).compiles key then 1 else 0 := by
  unfold Job.recording Job.finished
  cases engine.compiler.ending job.base job.pattern with
  | crash => rfl
  | result result =>
      cases result with
      | error error => rfl
      | ok matcher =>
          simp [recordsOf, Turn.recorded, Store.entryOf, Job.compiles, Job.isCompiled,
            Outcome.isCompiled, Job.key, List.countP_cons]

/-- Where one job goes on, as many of a key are compiled more as are recorded. -/
theorem recordsOf_turnsAt {f : Job → Job} {ends : Job → Bool}
    (hjobs : t.jobs = s.jobs.modify id f)
    (hends : ∀ job, ends job → ¬ job.compiles key ∧ f job = job.finished engine)
    (hgoes : ∀ job, ¬ ends job → (f job).compiles key = job.compiles key) :
    recordsOf key (s.turnsAt engine id ends) + s.jobs.countP (Job.compiles key) =
      t.jobs.countP (Job.compiles key) := by
  rw [hjobs, turnsAt]
  cases hjob : s.jobs[id]? with
  | none =>
      have hsame : s.jobs.modify id f = s.jobs :=
        modify_eq_self fun job hat => by simp [hjob] at hat
      rw [hsame]
      exact Nat.zero_add _
  | some job =>
      have hcount := countP_modify (Job.compiles key) f hjob
      dsimp only
      by_cases hend : ends job
      · obtain ⟨hopen, hfinished⟩ := hends job hend
        rw [if_pos hend, recordsOf_recording, ← hfinished]
        rw [if_neg hopen] at hcount
        omega
      · rw [if_neg hend]
        rw [hgoes job hend] at hcount
        have hnone : recordsOf key [] = 0 := rfl
        omega

theorem not_compiles_of_open (hopen : job.phase.stage < 2) : ¬ job.compiles key := by
  obtain ⟨generation, base, pattern, phase⟩ := job
  cases phase with
  | settled outcome => simp [Phase.stage] at hopen
  | queued | asleep | crashed => simp [Job.compiles, Job.isCompiled]

theorem compiles_started (hend : ¬ job.isInstant engine) (now : Nat) :
    (job.started engine now).compiles key = job.compiles key := by
  unfold Job.started
  split_ifs with hqueued hdelay
  · simp [Job.isInstant, hqueued, hdelay] at hend
  · simp [Job.compiles, Job.isCompiled, hqueued]
  · rfl

theorem compiles_woken {now : Nat} (hend : ¬ job.isDue now) :
    (job.woken engine now).compiles key = job.compiles key := by
  unfold Job.woken
  split
  next wake hasleep =>
    have hlater : ¬ wake ≤ now := by simpa [Job.isDue, hasleep] using hend
    rw [if_neg hlater]
  next => rfl

theorem compiles_seen (job : Job) : job.seen.compiles key = job.compiles key := by
  unfold Job.seen
  split
  next hcrashed => simp [Job.compiles, Job.isCompiled, hcrashed, Outcome.isCompiled]
  next => rfl

theorem ends_started (hend : job.isInstant engine) (now : Nat) :
    ¬ job.compiles key ∧ job.started engine now = job.finished engine := by
  obtain ⟨hqueued, hdelay⟩ := decide_eq_true_eq.mp hend
  refine ⟨not_compiles_of_open (by simp [hqueued, Phase.stage]), ?_⟩
  rw [Job.started, if_pos hqueued, if_pos hdelay]

theorem ends_woken {now : Nat} (hend : job.isDue now) :
    ¬ job.compiles key ∧ job.woken engine now = job.finished engine := by
  unfold Job.isDue at hend
  split at hend
  next wake hasleep =>
    refine ⟨not_compiles_of_open (by simp [hasleep, Phase.stage]), ?_⟩
    simp only [Job.woken, hasleep]
    rw [if_pos (decide_eq_true_eq.mp hend)]
  next => cases hend

/-- With each move as many compilations of a key are recorded as come to a matcher. -/
theorem recordsOf_move (key : String) (m : Move) :
    recordsOf key (s.turns engine m) + s.jobs.countP (Job.compiles key) =
      (s.move engine m).2.jobs.countP (Job.compiles key) := by
  have hnone : recordsOf key [] = 0 := rfl
  cases m with
  | lookup base pattern =>
      rw [turns, hnone, Nat.zero_add]
      rcases s.resolve_cases base pattern with ⟨-, hjobs⟩ | ⟨-, -, hjobs⟩
      · exact congrArg (List.countP _) hjobs.symm
      · have hqueued : ¬ Job.compiles key { generation := s.generation, base, pattern } :=
          not_compiles_of_open (by simp [Phase.stage])
        have hcount := congrArg (List.countP (Job.compiles key)) hjobs
        rw [List.countP_append, List.countP_singleton, if_neg hqueued] at hcount
        exact hcount.symm
  | start id =>
      exact recordsOf_turnsAt (s.start_jobs engine id) (fun _ hend => ends_started hend s.now)
        fun _ hend => compiles_started hend s.now
  | wake id =>
      exact recordsOf_turnsAt (s.wake_jobs engine id) (fun _ hend => ends_woken hend)
        fun _ hend => compiles_woken hend
  | poll id =>
      have hsame : recordsOf key (s.turnsAt engine id fun _ => false) +
          s.jobs.countP (Job.compiles key) = (s.see id).jobs.countP (Job.compiles key) :=
        recordsOf_turnsAt (s.see_jobs id) (fun _ hend => absurd hend Bool.false_ne_true)
          fun job _ => compiles_seen job
      have hturns : s.turnsAt engine id (fun _ => false) = [] := by
        unfold turnsAt
        split <;> rfl
      rwa [hturns] at hsame
  | pass | tell | resetStats | renew => exact Nat.zero_add _
  | flushStore =>
      have hsame := congrArg (List.countP (Job.compiles key)) (s.flushStore_jobs engine)
      exact (Nat.zero_add _).trans hsame.symm

theorem recordsOf_moves (key : String) (ms : List Move) :
    recordsOf key (s.turnsOver engine ms) + s.jobs.countP (Job.compiles key) =
      (s.moves engine ms).2.jobs.countP (Job.compiles key) := by
  induction ms generalizing s with
  | nil => exact Nat.zero_add _
  | cons m ms ih =>
      rw [turnsOver, recordsOf_append, Nat.add_assoc, Nat.add_left_comm, recordsOf_move]
      exact ih

/-! ## One job of each key -/

theorem Own.of_no_jobs (fresh : s.jobs = []) : s.Own := by
  simp [Own, fresh]

theorem Own.moves (h : s.Own) (hms : .renew ∉ ms) : (s.moves engine ms).2.Own :=
  moves_keep (motive := Own) (fun _ _ hm hown => hown.move hm) hms h

/-- Of jobs that are not alike at most one is counted. -/
theorem countP_of_apart {α : Type} {p : α → Bool} {l : List α}
    (h : l.Pairwise fun a b => p a → ¬ p b) : l.countP p = if l.any p then 1 else 0 := by
  induction l with
  | nil => rfl
  | cons a l ih =>
      obtain ⟨hfirst, hrest⟩ := List.pairwise_cons.mp h
      by_cases ha : p a
      · have hnone : l.countP p = 0 := List.countP_eq_zero.mpr fun b hb => hfirst b hb ha
        simp [ha, hnone]
      · simp [ha, ih hrest]

/-- The jobs of one generation have different keys. -/
theorem Own.apart (h : s.Own) (hdistinct : (s.jobs.map Job.slot).Nodup) (key : String) :
    s.jobs.Pairwise fun job other => job.compiles key → ¬ other.compiles key := by
  refine (List.pairwise_map.mp hdistinct).imp_of_mem ?_
  intro job other hjob hother hslot hcompiles hagain
  simp only [Job.compiles, Bool.and_eq_true, beq_iff_eq] at hcompiles hagain
  apply hslot
  rw [Job.slot, Job.slot, h job hjob, h other hother, hcompiles.2, hagain.2]

/-- A sound job has come to a matcher if it has come to its end and the compiler has a matcher for
its pair. -/
theorem compiles_of_sound (h : job.Sound engine.compiler) (key : String) : job.compiles key =
    (job.key == key &&
      (job.isOver && (engine.compiler.outcome job.base job.pattern).isCompiled)) := by
  rw [Job.compiles, Bool.and_comm]
  congr 1
  obtain ⟨generation, base, pattern, phase⟩ := job
  cases phase with
  | queued | asleep => rfl
  | crashed => simp [Job.isCompiled, Job.isOver, h.outcome_of_crashed rfl, Outcome.isCompiled]
  | settled outcome => simp [Job.isCompiled, Job.isOver, ← h.settled outcome rfl]

/-- Where nothing was looked up before, a key is recorded once if its compilation has come to its
end with a matcher, and never if it has not. -/
theorem recordsOf_of_fresh (fresh : s.jobs = []) (hms : .renew ∉ ms) (key : String) :
    recordsOf key (s.turnsOver engine ms) =
      if (s.moves engine ms).2.hasCompiled engine key then 1 else 0 := by
  have hcount : recordsOf key (s.turnsOver engine ms) =
      (s.moves engine ms).2.jobs.countP (Job.compiles key) := by
    rw [← recordsOf_moves, fresh, List.countP_nil, Nat.add_zero]
  have hown : (s.moves engine ms).2.Own := (Own.of_no_jobs fresh).moves hms
  have hsound : (s.moves engine ms).2.Sound engine.compiler := (Sound.of_no_jobs fresh).moves ms
  have hledger : Ledger _ (s.moves engine ms).2 := (Ledger.of_no_jobs fresh).moves ms
  have hany : (s.moves engine ms).2.jobs.any (Job.compiles key) =
      (s.moves engine ms).2.hasCompiled engine key := by
    rw [hasCompiled, Bool.eq_iff_iff, List.any_eq_true, List.any_eq_true]
    refine exists_congr fun job => and_congr_right fun hjob => ?_
    rw [compiles_of_sound (hsound job hjob)]
  rw [hcount, countP_of_apart (hown.apart hledger.distinct key), hany]

end

end Session

end RouteAudit.Cache
