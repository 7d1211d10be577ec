import Mathlib.Algebra.GroupWithZero.Nat
import RouteAudit.Proofs.Cache.Recording
import RouteAudit.Proofs.Cache.WarmUp

/-! # What counts

A lookup counts what it was answered, and a compilation that ends in an error counts for the cache
that started it. Nothing else counts: through all that happens while somebody waits, as many errors
are counted as compilations of the generation fail (`Waits.counts`), and a row of lookups counts its
answers (`resolveAll_counters`).
-/

namespace RouteAudit

instance : LawfulBEq LookupMode where
  eq_of_beq {first second} h := by
    cases first <;> cases second <;> first | rfl | cases h
  rfl {mode} := by cases mode <;> rfl

/-- Each lookup is answered in one of three ways. -/
theorem LookupMode.count_modes (modes : List LookupMode) :
    modes.count .sync + modes.count .async + modes.count .miss = modes.length := by
  induction modes with
  | nil => rfl
  | cons mode modes ih =>
      rw [List.length_cons, ← ih]
      cases mode <;> simp <;> omega

namespace Counters

/-- The counters after some more lookups that were answered so. -/
def countAll (counters : Counters) (modes : List LookupMode) : Counters :=
  modes.foldl count counters

/-- The counters after some more errors. -/
def addErrors (counters : Counters) (n : Nat) : Counters :=
  { counters with errors := counters.errors + .ofNat n }

@[simp]
theorem addErrors_zero (counters : Counters) : counters.addErrors 0 = counters := by
  simp [addErrors]

theorem addErrors_addErrors (counters : Counters) (first second : Nat) :
    (counters.addErrors first).addErrors second = counters.addErrors (first + second) := by
  simp [addErrors, UInt64.ofNat_add, UInt64.add_assoc]

theorem countAll_eq (counters : Counters) (modes : List LookupMode) : counters.countAll modes =
    { hits := counters.hits + .ofNat (modes.count .sync + modes.count .async)
      misses := counters.misses + .ofNat (modes.count .miss)
      syncHits := counters.syncHits + .ofNat (modes.count .sync)
      errors := counters.errors } := by
  induction modes generalizing counters with
  | nil => simp [countAll]
  | cons mode modes ih =>
      refine (ih (counters.count mode)).trans ?_
      rw [mk.injEq]
      refine ⟨?_, ?_, ?_, ?_⟩ <;> cases mode <;> simp [count] <;> ac_rfl

/-! ### Snapshots -/

/-- In what is told, the hits at once and those under way are all hits. -/
theorem snapshot_hits (counters : Counters) :
    counters.snapshot.hits = counters.snapshot.syncHits + counters.snapshot.asyncHits := by
  rw [snapshot, UInt64.add_comm, UInt64.sub_add_cancel]

/-- Counters that do not overflow are told as they stand: what is left of the hits was under way. -/
theorem snapshot_of_fits (counters : Counters) (sync async : Nat)
    (hhits : counters.hits = .ofNat (sync + async)) (hsync : counters.syncHits = .ofNat sync)
    (hfits : sync + async < 2 ^ 64) : counters.snapshot =
      { hits := counters.hits
        misses := counters.misses
        syncHits := counters.syncHits
        asyncHits := .ofNat async
        errors := counters.errors } := by
  have hless : counters.syncHits ≤ counters.hits := by
    rw [hhits, hsync, UInt64.le_iff_toNat_le, UInt64.toNat_ofNat', UInt64.toNat_ofNat',
      Nat.mod_eq_of_lt hfits, Nat.mod_eq_of_lt (by omega)]
    exact Nat.le_add_right sync async
  have hmax : max counters.hits counters.syncHits = counters.hits := by
    show (if counters.hits ≤ counters.syncHits then _ else _) = _
    split
    next hmore => exact UInt64.le_antisymm hless hmore
    next => rfl
  have hasync : counters.hits - counters.syncHits = .ofNat async := by
    rw [hhits, hsync, UInt64.ofNat_add, UInt64.add_comm, UInt64.add_sub_cancel]
  rw [snapshot, hmax, hasync]

/-- Where all hits were at once, that is told. -/
theorem snapshot_of_sync (hits : UInt64) :
    snapshot { hits, syncHits := hits } = { hits, syncHits := hits } := by
  have hmax : max hits hits = hits := ite_self hits
  simp [snapshot, hmax]

end Counters

/-- Whether a compilation ends in an error. -/
def Compiler.errs (compiler : Compiler) (base pattern : String) : Bool :=
  match compiler.ending base pattern with
  | .result (.error _) => true
  | .result (.ok _) | .crash _ => false

namespace Cache

/-- Whether a job has come to its end in an error. -/
def Job.hasFailed (engine : Engine) (job : Job) : Bool :=
  job.isOver && engine.compiler.errs job.base job.pattern

namespace Session

/-- How many compilations of the current generation have failed. -/
def failed (engine : Engine) (s : Session) : Nat :=
  s.jobs.countP fun job => job.generation == s.generation && job.hasFailed engine

/-- From one session to another as many errors were counted as compilations have failed, and
nothing else was counted. -/
def Counts (engine : Engine) (s t : Session) : Prop :=
  ∃ n, t.failed engine = s.failed engine + n ∧ t.cache.counters = s.cache.counters.addErrors n

section

variable {engine : Engine} {s t u : Session} {job : Job} {id : Nat} {m : Move}

namespace Counts

theorem refl (engine : Engine) (s : Session) : Counts engine s s := ⟨0, rfl, by simp⟩

theorem trans (hst : Counts engine s t) (htu : Counts engine t u) : Counts engine s u := by
  obtain ⟨first, hfailed, hcounters⟩ := hst
  obtain ⟨second, hmore, hlast⟩ := htu
  refine ⟨first + second, ?_, ?_⟩
  · rw [hmore, hfailed, Nat.add_assoc]
  · rw [hlast, hcounters, Counters.addErrors_addErrors]

/-- Where one job goes on that neither fails nor had failed, nothing is counted. -/
theorem of_modify {f : Job → Job} (hjobs : t.jobs = s.jobs.modify id f)
    (hgeneration : t.generation = s.generation) (hcounters : t.cache.counters = s.cache.counters)
    (hf : ∀ job : Job, s.jobs[id]? = some job →
      (f job).generation = job.generation ∧ (f job).hasFailed engine = job.hasFailed engine) :
    Counts engine s t := by
  refine ⟨0, ?_, by rw [hcounters, Counters.addErrors_zero]⟩
  rw [failed, hjobs, hgeneration, Nat.add_zero, failed]
  cases hjob : s.jobs[id]? with
  | none =>
      rw [modify_eq_self fun job hat =>
        absurd (hjob.symm.trans hat) (Option.some_ne_none job).symm]
  | some job =>
      obtain ⟨hsame, hfailed⟩ := hf job hjob
      have hcount := countP_modify
        (fun job : Job => job.generation == s.generation && job.hasFailed engine) f hjob
      simp only [hsame, hfailed] at hcount
      exact Nat.add_right_cancel hcount

end Counts

theorem hasFailed_of_open (hopen : job.phase.stage < 2) : job.hasFailed engine = false := by
  obtain ⟨generation, base, pattern, phase⟩ := job
  cases phase with
  | queued | asleep => rfl
  | crashed | settled => simp [Phase.stage] at hopen

theorem hasFailed_finished (engine : Engine) (job : Job) :
    (job.finished engine).hasFailed engine = engine.compiler.errs job.base job.pattern := by
  unfold Job.finished Job.hasFailed
  split <;> simp [Job.isOver]

theorem generation_of_origin {job other : Job} (h : other.origin = job.origin) :
    other.generation = job.generation := by
  have hgeneration : other.origin.generation = job.origin.generation := congrArg Job.generation h
  exact hgeneration

/-! ## Jobs that end -/

@[simp]
theorem keep_counters (engine : Engine) (s : Session) (job : Job) :
    (s.keep engine job).cache.counters = s.cache.counters := by
  unfold keep modifyGeneration
  split
  · rfl
  · dsimp only
    split <;> rfl

@[simp]
theorem flushStore_counters (engine : Engine) (s : Session) :
    (s.flushStore engine).cache.counters = s.cache.counters := by
  unfold flushStore
  split <;> rfl

theorem finish_counters (hjob : s.jobs[id]? = some job) : (s.finish engine id).cache.counters =
    s.cache.counters.addErrors
      (if job.generation == s.generation && engine.compiler.errs job.base job.pattern then 1
        else 0) := by
  unfold finish Compiler.errs
  rw [hjob]
  dsimp only
  cases engine.compiler.ending job.base job.pattern with
  | crash => simp [setPhase]
  | result result =>
      cases result with
      | ok matcher => simp [setPhase, tell]
      | error error =>
          by_cases hgeneration : job.generation = s.generation
          · simp [setPhase, tell, countError, modifyGeneration, hgeneration, Counters.addErrors]
          · simp [setPhase, tell, countError, modifyGeneration, hgeneration]

/-- A job that ends counts as an error if it fails. -/
theorem counts_finish (hjob : s.jobs[id]? = some job) (hopen : job.phase.stage < 2) :
    Counts engine s (s.finish engine id) := by
  refine ⟨_, ?_, finish_counters hjob⟩
  have hcount := countP_modify
    (fun job : Job => job.generation == s.generation && job.hasFailed engine)
    (Job.finished engine) hjob
  have hgeneration := generation_of_origin (job.finished_origin engine)
  rw [failed, finish_jobs, finish_generation, failed]
  simp only [hasFailed_of_open hopen, hasFailed_finished, hgeneration, Bool.and_false,
    Bool.false_eq_true, if_false, Nat.add_zero] at hcount
  exact hcount

theorem counts_start (engine : Engine) (s : Session) (id : Nat) :
    Counts engine s (s.start engine id) := by
  unfold start
  split
  next generation base pattern hjob =>
    dsimp only
    split
    · exact counts_finish hjob (by simp [Phase.stage])
    · refine .of_modify rfl rfl rfl fun job hat => ⟨rfl, ?_⟩
      obtain rfl := Option.some.inj (hjob.symm.trans hat)
      rfl
  next => exact .refl engine s

theorem counts_wake (engine : Engine) (s : Session) (id : Nat) :
    Counts engine s (s.wake engine id) := by
  unfold wake
  split
  next generation base pattern time hjob =>
    split
    · exact counts_finish hjob (by simp [Phase.stage])
    · exact .refl engine s
  next => exact .refl engine s

theorem counts_see (engine : Engine) (s : Session) (id : Nat) : Counts engine s (s.see id) := by
  have hcounters : (s.see id).cache.counters = s.cache.counters := by
    unfold see
    split <;> rfl
  refine .of_modify (s.see_jobs id) (s.see_generation id) hcounters fun job _ =>
    ⟨generation_of_origin job.seen_origin, ?_⟩
  unfold Job.seen
  split
  next hcrashed => simp [Job.hasFailed, Job.isOver, hcrashed]
  next => rfl

/-- While somebody waits, errors are counted and nothing else. -/
theorem Waits.counts (hst : Waits engine s t) : Counts engine s t := by
  refine hst.induct (motive := Counts engine) (.refl engine) ?_
  intro s m u hquiet hrest
  refine Counts.trans ?_ hrest
  cases m with
  | start id => exact counts_start engine s id
  | wake id => exact counts_wake engine s id
  | poll id => exact counts_see engine s id
  | pass => exact .refl engine s
  | lookup | tell | resetStats | flushStore | renew => exact hquiet.elim

/-! ## Lookups -/

theorem resolve_counters (s : Session) (base pattern : String) :
    (s.resolve base pattern).2.cache.counters =
      s.cache.counters.count (s.resolve base pattern).1.mode := by
  unfold resolve
  split <;> rfl

/-- A lookup starts a compilation and lets none end. -/
theorem resolve_failed (engine : Engine) (s : Session) (base pattern : String) :
    (s.resolve base pattern).2.failed engine = s.failed engine := by
  rw [failed, resolve_generation, failed]
  rcases s.resolve_cases base pattern with ⟨-, hjobs⟩ | ⟨-, -, hjobs⟩
  · rw [hjobs]
  · rw [hjobs, List.countP_append]
    simp [Job.hasFailed, Job.isOver]

/-- A lookup that is a miss starts one job, and no other does. -/
theorem resolve_length (s : Session) (base pattern : String) :
    (s.resolve base pattern).2.jobs.length =
      s.jobs.length + [(s.resolve base pattern).1.mode].count .miss := by
  unfold resolve
  split
  · dsimp only
    split <;> rfl
  · simp only [List.length_append, List.count_singleton_self, List.length_singleton]

variable {base : String} {patterns : List String}

/-- Lookups count what they were answered. -/
theorem resolveAll_counters (s : Session) (base : String) (patterns : List String) :
    (s.resolveAll base patterns).2.cache.counters =
      s.cache.counters.countAll ((s.resolveAll base patterns).1.map (·.mode)) := by
  induction patterns generalizing s with
  | nil => rfl
  | cons pattern patterns ih =>
      refine (ih (s.resolve base pattern).2).trans ?_
      rw [resolve_counters]
      rfl

theorem resolveAll_failed (engine : Engine) (s : Session) (base : String)
    (patterns : List String) : (s.resolveAll base patterns).2.failed engine = s.failed engine := by
  induction patterns generalizing s with
  | nil => rfl
  | cons pattern patterns ih =>
      exact (ih (s.resolve base pattern).2).trans (resolve_failed engine s base pattern)

/-- Each miss among some lookups started a job. -/
theorem resolveAll_misses (s : Session) (base : String) (patterns : List String) :
    (s.resolveAll base patterns).2.jobs.length =
      s.jobs.length + ((s.resolveAll base patterns).1.map (·.mode)).count .miss := by
  induction patterns generalizing s with
  | nil => rfl
  | cons pattern patterns ih =>
      refine (ih (s.resolve base pattern).2).trans ?_
      have hmodes : (s.resolveAll base (pattern :: patterns)).1.map (·.mode) =
          [(s.resolve base pattern).1.mode] ++
            ((s.resolve base pattern).2.resolveAll base patterns).1.map (·.mode) := rfl
      rw [resolve_length, hmodes, List.count_append, Nat.add_assoc]

theorem length_resolveAll (s : Session) (base : String) (patterns : List String) :
    (s.resolveAll base patterns).1.length = patterns.length := by
  induction patterns generalizing s with
  | nil => rfl
  | cons pattern patterns ih => exact congrArg (· + 1) (ih (s.resolve base pattern).2)

/-- Where no job has got its turn yet, none is answered at once. -/
theorem resolveAll_sync (hqueued : ∀ job ∈ s.jobs, job.phase = .queued) (base : String)
    (patterns : List String) :
    ((s.resolveAll base patterns).1.map (·.mode)).count .sync = 0 := by
  induction patterns generalizing s with
  | nil => rfl
  | cons pattern patterns ih =>
      have hnext : ∀ job ∈ (s.resolve base pattern).2.jobs, job.phase = .queued := by
        intro job hjob
        rcases s.resolve_cases base pattern with ⟨-, hjobs⟩ | ⟨-, -, hjobs⟩
        · exact hqueued job (hjobs ▸ hjob)
        · rcases List.mem_append.mp (hjobs ▸ hjob) with hjob | hjob
          · exact hqueued job hjob
          · rw [List.mem_singleton.mp hjob]
      have hmode : (s.resolve base pattern).1.mode ≠ .sync := by
        intro hsync
        obtain ⟨outcome, houtcome⟩ :=
          Option.isSome_iff_exists.mp (s.known_of_sync base pattern hsync)
        unfold outcome? at houtcome
        split at houtcome
        next hjob => exact Phase.noConfusion (hqueued _ (List.mem_of_getElem? hjob))
        next => cases houtcome
      have hmodes : (s.resolveAll base (pattern :: patterns)).1.map (·.mode) =
          (s.resolve base pattern).1.mode ::
            ((s.resolve base pattern).2.resolveAll base patterns).1.map (·.mode) := rfl
      rw [hmodes, List.count_cons_of_ne hmode, ih hnext]

end

end Session

end Cache

end RouteAudit
