import RouteAudit.Proofs.Cache.Requests

/-! # Which failures are counted

A compilation fails in two ways. Where the compiler says what is wrong its job counts an error on
the way out. A job that crashes counts nothing, and nobody does so for it: whoever waits for it
learns that it was aborted, and the counter stays as it was. Both leave a failed key behind, once
however often it is looked up, so the counter is the number of failed keys less those that crashed
(`errors_counted`).
-/

namespace RouteAudit

/-- Those who wait are told an error where the compiler has one or crashes, which exclude each
other. -/
theorem Compiler.outcome_is_error (compiler : Compiler) (base pattern : String) :
    (compiler.outcome base pattern).isCompiled =
        !(compiler.errs base pattern || compiler.crashes base pattern) ∧
      (compiler.errs base pattern && compiler.crashes base pattern) = false := by
  unfold outcome errs crashes
  cases compiler.ending base pattern with
  | crash => exact ⟨rfl, rfl⟩
  | result result => cases result <;> exact ⟨rfl, rfl⟩

theorem Outcome.isCompiled_eq_false {outcome : Outcome} :
    outcome.isCompiled = false ↔ ∃ error, outcome = .failed error := by
  cases outcome <;> simp [isCompiled]

namespace Cache

namespace Job

/-- Whether the compilation of a job has ended in failure. -/
def isFailure (job : Job) : Bool :=
  match job.phase with
  | .crashed _ | .settled (.failed _) => true
  | _ => false

/-- Whether the compilation of a job has ended in a crash. -/
def hasCrashed (engine : Engine) (job : Job) : Bool :=
  job.isOver && engine.compiler.crashes job.base job.pattern

variable {engine : Engine} {job : Job}

/-- A sound job has ended in failure if it is over and its outcome is no matcher. -/
theorem Sound.isFailure_eq (h : job.Sound engine.compiler) : job.isFailure =
    (job.isOver && !(engine.compiler.outcome job.base job.pattern).isCompiled) := by
  obtain ⟨generation, base, pattern, phase⟩ := job
  cases phase with
  | queued | asleep => rfl
  | crashed => simp [isFailure, isOver, h.outcome_of_crashed rfl, Outcome.isCompiled]
  | settled outcome =>
      rw [← h.settled outcome rfl]
      cases outcome <;> rfl

/-- A failure is an error of the compiler or a crash. -/
theorem Sound.isFailure_or (h : job.Sound engine.compiler) :
    job.isFailure = (job.hasFailed engine || job.hasCrashed engine) := by
  rw [h.isFailure_eq, (engine.compiler.outcome_is_error job.base job.pattern).1, Bool.not_not,
    Bool.and_or_distrib_left]
  rfl

theorem not_hasCrashed_of_hasFailed (h : job.hasFailed engine) : job.hasCrashed engine = false := by
  have hnever := (engine.compiler.outcome_is_error job.base job.pattern).2
  rw [hasFailed, Bool.and_eq_true] at h
  rw [h.2, Bool.true_and] at hnever
  rw [hasCrashed, hnever, Bool.and_false]

end Job

namespace Session

/-- The keys of the cache whose compilation has ended in failure. -/
def failedKeys (s : Session) : List String :=
  (s.jobs.filter fun job => job.generation == s.generation && job.isFailure).map Job.key

/-- The keys of the cache whose compilation has ended in a crash. -/
def crashedKeys (engine : Engine) (s : Session) : List String :=
  (s.jobs.filter fun job => job.generation == s.generation && job.hasCrashed engine).map Job.key

/-- The counter of errors is the number of compilations that failed without a crash. -/
def Tallies (engine : Engine) (s : Session) : Prop :=
  s.cache.counters.errors = .ofNat (s.failed engine)

section

variable {engine : Engine} {s t : Session} {m : Move} {ms : List Move} {trace : List Sight}
  {pairs : List (String × String)} {job : Job} {id : Nat}

/-! ## Failed keys -/

theorem failedKeys_nodup (h : Ledger trace s) : s.failedKeys.Nodup := by
  refine (keys_nodup h).sublist (List.Sublist.map _ ?_)
  exact List.monotone_filter_right _ fun job hjob => (Bool.and_eq_true_iff.mp hjob).1

/-- A key has failed if its job has. -/
theorem key_mem_failedKeys (h : Ledger trace s) (hjob : s.jobs[id]? = some job)
    (hgeneration : job.generation = s.generation) :
    job.key ∈ s.failedKeys ↔ job.isFailure := by
  constructor
  · intro hmem
    obtain ⟨other, hother, hkey⟩ := List.mem_map.mp hmem
    obtain ⟨hother, hfailure⟩ := List.mem_filter.mp hother
    rw [Bool.and_eq_true, beq_iff_eq] at hfailure
    have hslot : other.slot = job.slot := by
      rw [Job.slot, Job.slot, hkey, hfailure.1, hgeneration]
    obtain rfl := List.inj_on_of_nodup_map h.distinct hother (List.mem_of_getElem? hjob) hslot
    exact hfailure.2
  · intro hfailure
    refine List.mem_map_of_mem (List.mem_filter.mpr ⟨List.mem_of_getElem? hjob, ?_⟩)
    rw [hgeneration, beq_self_eq_true, hfailure, Bool.and_self]

/-- Whoever waits for a job whose compilation is over is told an error if its key has failed. -/
theorem key_mem_failedKeys_iff (h : Ledger trace s) (hsound : s.Sound engine.compiler)
    (hdelivers : engine.Delivers none) (hjob : s.jobs[id]? = some job)
    (hgeneration : job.generation = s.generation) :
    job.key ∈ s.failedKeys ↔
      job.isOver ∧ ∃ error, (s.await engine id).1 = some (.failed error) := by
  have hpair : s.pair? id = some (job.base, job.pattern) := by simp [pair?, hjob]
  rw [key_mem_failedKeys h hjob hgeneration,
    (hsound job (List.mem_of_getElem? hjob)).isFailure_eq, await_spec hsound hdelivers hpair,
    Bool.and_eq_true, Bool.not_eq_true', Outcome.isCompiled_eq_false]
  simp only [Option.some.injEq]

theorem crashedKeys_sublist (hsound : s.Sound engine.compiler) :
    (s.crashedKeys engine).Sublist s.failedKeys := by
  have hfilter : s.crashedKeys engine = ((s.jobs.filter fun job =>
      job.generation == s.generation && job.isFailure).filter (Job.hasCrashed engine)).map
        Job.key := by
    rw [crashedKeys, List.filter_filter]
    refine congrArg _ (List.filter_congr fun job hjob => ?_)
    rw [(hsound job hjob).isFailure_or]
    cases job.hasCrashed engine <;> simp
  rw [hfilter]
  exact List.filter_sublist.map _

/-- The failed keys are those of which the compiler said what is wrong, and those that crashed. -/
theorem length_failedKeys (hsound : s.Sound engine.compiler) :
    s.failedKeys.length = s.failed engine + (s.crashedKeys engine).length := by
  rw [failedKeys, crashedKeys, List.length_map, List.length_map,
    ← List.countP_eq_length_filter, ← List.countP_eq_length_filter, failed]
  replace hsound : ∀ job ∈ s.jobs, job.Sound engine.compiler := hsound
  generalize s.jobs = jobs at hsound ⊢
  induction jobs with
  | nil => rfl
  | cons job jobs ih =>
      obtain ⟨hjob, hjobs⟩ := List.forall_mem_cons.mp hsound
      rw [List.countP_cons, List.countP_cons, List.countP_cons, ih hjobs, hjob.isFailure_or]
      cases hfailed : job.hasFailed engine with
      | true =>
          rw [Job.not_hasCrashed_of_hasFailed hfailed]
          simp
          omega
      | false =>
          simp
          omega

/-! ## Moves of one cache -/

theorem Counts.tallies (hst : Counts engine s t) (h : s.Tallies engine) : t.Tallies engine := by
  obtain ⟨n, hfailed, hcounters⟩ := hst
  rw [Tallies, hcounters, hfailed, UInt64.ofNat_add, ← h]
  rfl

/-- No compilation of a new cache has failed. -/
theorem Recalls.failed_renew (hrecalls : Recalls pairs s) : (s.renew engine).failed engine = 0 := by
  refine List.countP_eq_zero.mpr fun job hjob => ?_
  have hle := hrecalls.started job hjob
  rw [renew_generation]
  simp
  omega

theorem Tallies.move (h : s.Tallies engine) (hrecalls : Recalls pairs s) (hm : m ≠ .resetStats) :
    (s.move engine m).2.Tallies engine := by
  cases m with
  | lookup base pattern =>
      have hcount (counters : Counters) (mode : LookupMode) :
          (counters.count mode).errors = counters.errors := by cases mode <;> rfl
      show (s.resolve base pattern).2.Tallies engine
      rw [Tallies, resolve_counters, resolve_failed, hcount]
      exact h
  | start id => exact (counts_start engine s id).tallies h
  | wake id => exact (counts_wake engine s id).tallies h
  | poll id => exact (counts_see engine s id).tallies h
  | pass | tell => exact h
  | resetStats => exact absurd rfl hm
  | flushStore =>
      show (s.flushStore engine).Tallies engine
      rw [Tallies, flushStore_counters, failed, flushStore_jobs, flushStore_generation]
      exact h
  | renew =>
      show (s.renew engine).Tallies engine
      rw [Tallies, Recalls.failed_renew hrecalls]
      rfl

theorem Tallies.moves (fresh : s.jobs = []) (uncounted : s.cache.counters.errors = 0)
    (hms : .resetStats ∉ sinceRenewal ms) : (s.moves engine ms).2.Tallies engine := by
  induction ms using List.reverseRecOn with
  | nil =>
      show s.Tallies engine
      rw [Tallies, uncounted, failed, fresh]
      rfl
  | append_singleton ms m ih =>
      have hrecalls : Recalls _ (s.moves engine ms).2 := (Recalls.of_no_jobs fresh).moves ms
      rw [moves_append]
      show ((s.moves engine ms).2.move engine m).2.Tallies engine
      by_cases hm : m = .renew
      -- A new cache has counted nothing, whatever the one before it has.
      · subst hm
        rw [Tallies, Session.move, Recalls.failed_renew hrecalls]
        rfl
      · rw [sinceRenewal, List.rtakeWhile_concat_pos _ _ _ (by simpa using hm), List.mem_append,
          List.mem_singleton, not_or] at hms
        exact (ih hms.1).move hrecalls (Ne.symm hms.2)

end

end Session

/-! ## Main result -/

/-- In every interleaving of any number of callers with the worker and the clock on a new cache
whose counters are not reset, the failed keys of the cache are all different and just those whose
compilation is over and of which whoever waits is told an error, if told at all. The counter of
errors is their number less those that crashed, so it is the number of failed keys exactly as long
as none did. The run of a script that asks for no reset is one of these interleavings. -/
theorem errors_counted (engine : Engine) (new : Session) (fresh : new.jobs = [])
    (uncounted : new.cache.stats.errors = 0) :
    (∀ moves : List Move, .resetStats ∉ sinceRenewal moves →
      let s := (new.moves engine moves).2
      s.failedKeys.Nodup ∧
        (engine.Delivers none → ∀ id job, s.jobs[id]? = some job → job.generation = s.generation →
          (job.key ∈ s.failedKeys ↔
            job.isOver ∧ ∃ error, (s.await engine id).1 = some (.failed error))) ∧
        (s.crashedKeys engine).Sublist s.failedKeys ∧
        s.cache.stats.errors = .ofNat (s.failedKeys.length - (s.crashedKeys engine).length) ∧
        (s.failedKeys.length < 2 ^ 64 →
          (s.cache.stats.errors.toNat = s.failedKeys.length ↔ s.crashedKeys engine = []))) ∧
      ∀ script : List Step, .resetStats ∉ sinceRenewal (script.flatMap Step.requests) →
        ∃ moves : List Move, .resetStats ∉ sinceRenewal moves ∧
          (new.moves engine moves).2 = (new.run engine script).2 := by
  refine ⟨?_, ?_⟩
  · intro moves hmoves s
    have hledger : Ledger _ s := (Ledger.of_no_jobs fresh).moves moves
    have hsound : s.Sound engine.compiler := (Session.Sound.of_no_jobs fresh).moves moves
    have htallies : s.Tallies engine := Session.Tallies.moves fresh uncounted hmoves
    have hlength := s.length_failedKeys hsound
    have herrors : s.cache.stats.errors =
        .ofNat (s.failedKeys.length - (s.crashedKeys engine).length) := by
      rw [hlength, Nat.add_sub_cancel]
      exact htallies
    refine ⟨Session.failedKeys_nodup hledger,
      fun hdelivers id job hjob => Session.key_mem_failedKeys_iff hledger hsound hdelivers hjob,
      Session.crashedKeys_sublist hsound, herrors, fun hfits => ?_⟩
    rw [herrors, UInt64.toNat_ofNat', Nat.mod_eq_of_lt (by omega), ← List.length_eq_zero_iff]
    omega
  · intro script hscript
    have henacts : Session.Enacts engine new (script.flatMap Step.requests)
        (new.run engine script).2 := new.run_enacts script
    obtain ⟨moves, hlast, hrequests⟩ := henacts
    refine ⟨moves, fun hreset => hscript ?_, hlast⟩
    rw [← hrequests, ← sinceRenewal_filter]
    exact List.mem_filter.mpr ⟨hreset, rfl⟩

/-- A compiler that crashes on one pattern and has an error for every other. -/
def failingButFor (pattern : String) : Engine := { compiler := {
  delayMs := fun _ _ => 0
  ending := fun _ other =>
    if other = pattern then .crash else .result (.error (@CompileError.invalidRegex none)) } }

/-- Of two keys that failed, one of them looked up twice, the one that crashed is not counted. -/
theorem crash_is_not_counted :
    let engine := failingButFor "/p"
    let moves : List Move := [.lookup "" "/p", .start 0, .poll 0, .lookup "" "/q", .start 1,
      .lookup "" "/p", .lookup "" "/q"]
    let s := (({} : Session).moves engine moves).2
    ({} : Session).jobs = [] ∧ ({} : Session).cache.stats.errors = 0 ∧ engine.Delivers none ∧
      .resetStats ∉ sinceRenewal moves ∧ s.failedKeys = ["::/p", "::/q"] ∧
      s.crashedKeys engine = ["::/p"] ∧ (∃ error, (s.await engine 0).1 = some (.failed error)) ∧
      s.cache.stats.errors = 1 ∧ s.cache.stats.errors.toNat ≠ s.failedKeys.length := by
  intro engine moves s
  have hmoves : .resetStats ∉ sinceRenewal moves := by decide
  have hfailed : s.failedKeys = ["::/p", "::/q"] := by decide
  have hcrashed : s.crashedKeys engine = ["::/p"] := by decide
  let job : Job := ⟨0, "", "/p", .settled (.failed (@CompileError.aborted none))⟩
  have hjob : s.jobs[0]? = some job := by decide
  have hkey : job.key ∈ s.failedKeys := by decide
  obtain ⟨-, htold, -, herrors, hexact⟩ := (errors_counted engine {} rfl rfl).1 moves hmoves
  have hdelivers : engine.Delivers none := .inl rfl
  refine ⟨rfl, rfl, hdelivers, hmoves, hfailed, hcrashed,
    ((htold hdelivers 0 _ hjob rfl).mp hkey).2, ?_, ?_⟩
  · rw [herrors, hfailed, hcrashed]
    rfl
  · have hfits : s.failedKeys.length < 2 ^ 64 := by rw [hfailed]; decide
    intro hall
    have hnone := (hexact hfits).mp hall
    rw [hcrashed] at hnone
    cases hnone

end Cache

end RouteAudit
