import RouteAudit.Proofs.Cache.Requests

/-! # Lookups and their counters

Every lookup is counted as what it is answered, and only a miss makes the cache larger. All else
that happens, however lookups, waits and timeouts follow each other, leaves these counters and the
size of the cache alone, so since the counters were last zero they say how often each answer was
given (`lookups_counted`). What is counted of jobs under way is what is left of the hits.
-/

namespace RouteAudit.Cache

/-- How a lookup was answered. -/
def Sight.answer? : Sight → Option LookupMode
  | answered _ mode => some mode
  | _ => none

/-- The answers to all lookups, in order. -/
def answers (trace : List Sight) : List LookupMode := trace.filterMap Sight.answer?

@[simp] theorem answers_append (first second : List Sight) :
    answers (first ++ second) = answers first ++ answers second := List.filterMap_append ..

/-- Errors are counted apart from lookups. -/
theorem countAll_errors (counters : Counters) (errors : UInt64) (modes : List LookupMode) :
    { counters with errors }.countAll modes = { counters.countAll modes with errors } := by
  rw [Counters.countAll_eq, Counters.countAll_eq]

namespace Session

/-- The lookups between two sessions were answered so and counted so, and nothing else was counted
but errors. -/
structure Answers (s : Session) (modes : List LookupMode) (t : Session) : Prop where
  size : t.size = s.size + modes.count .miss
  counters : t.cache.counters =
    { s.cache.counters.countAll modes with errors := t.cache.counters.errors }

/-- What the counters say of some lookups, as they were asked and answered, if they were zero before
them. -/
structure Accounts (s : Session) (asked : List (String × String)) (modes : List LookupMode)
    (t : Session) : Prop where
  answered : modes.length = asked.length
  misses : t.cache.stats.misses = .ofNat (modes.count .miss)
  growth : t.size = s.size + modes.count .miss
  syncHits : t.cache.stats.syncHits = .ofNat (modes.count .sync)
  hits : t.cache.stats.hits = t.cache.stats.syncHits + t.cache.stats.asyncHits
  counted : t.cache.counters.hits = .ofNat (modes.count .sync + modes.count .async)
  total : t.cache.counters.hits + t.cache.counters.misses = .ofNat asked.length
  /-- The hits under way are what the hits at once leave, unless a counter has overflown. -/
  derived : asked.length < 2 ^ 64 →
    t.cache.stats.hits = t.cache.counters.hits ∧
      t.cache.stats.asyncHits = .ofNat (modes.count .async)

section

variable {engine : Engine} {s t u : Session} {m : Move} {ms : List Move}
  {modes later : List LookupMode}

/-! ## Sizes -/

theorem size_congr (horigins : t.origins = s.origins) (hgeneration : t.generation = s.generation) :
    t.size = s.size := by
  have horigin (u : Session) : u.size = u.origins.countP (·.generation == u.generation) := by
    rw [size, origins, List.countP_map]
    rfl
  rw [horigin, horigin, horigins, hgeneration]

/-- A lookup that misses adds a key, and no other does. -/
theorem resolve_size (base pattern : String) : (s.resolve base pattern).2.size =
    s.size + [(s.resolve base pattern).1.mode].count .miss := by
  rw [size, resolve_generation, size]
  unfold resolve
  split
  · dsimp only
    split <;> rfl
  · simp

/-! ## Answers -/

namespace Answers

theorem refl (s : Session) : Answers s [] s := ⟨rfl, rfl⟩

theorem trans (hst : Answers s modes t) (htu : Answers t later u) :
    Answers s (modes ++ later) u where
  size := by rw [htu.size, hst.size, List.count_append, Nat.add_assoc]
  counters := by
    have happend : s.cache.counters.countAll (modes ++ later) =
        (s.cache.counters.countAll modes).countAll later := List.foldl_append
    rw [htu.counters, hst.counters, countAll_errors, happend]

/-- Where neither lookups nor what they count have changed, nothing was looked up. -/
theorem of_same (horigins : t.origins = s.origins) (hgeneration : t.generation = s.generation)
    (hcounters : t.cache.counters = { s.cache.counters with errors := t.cache.counters.errors }) :
    Answers s [] t :=
  ⟨size_congr horigins hgeneration, hcounters⟩

theorem resolve (base pattern : String) :
    Answers s [(s.resolve base pattern).1.mode] (s.resolve base pattern).2 where
  size := resolve_size base pattern
  counters := by
    rw [resolve_counters]
    rfl

end Answers

theorem Counts.answers (hst : Counts engine s t) (horigins : t.origins = s.origins)
    (hgeneration : t.generation = s.generation) : Answers s [] t := by
  obtain ⟨n, -, hcounters⟩ := hst
  exact .of_same horigins hgeneration (by rw [hcounters]; rfl)

theorem answers_toldAt (s : Session) (id : Nat) : answers (s.toldAt id) = [] := by
  rw [toldAt, answers, List.filterMap_flatMap, List.flatMap_eq_nil_iff]
  intro job _
  unfold Job.told
  split <;> rfl

theorem answers_callAt (s : Session) (id : Nat) : answers (s.callAt id) = [] := by
  rw [callAt, answers, List.filterMap_flatMap, List.flatMap_eq_nil_iff]
  intro job _
  unfold Job.call
  split <;> rfl

/-- Each move that leaves the counters from being set to zero counts the answer that it gives. -/
theorem move_answers (hm : m.zeroes = false) :
    Answers s (answers (s.move engine m).1) (s.move engine m).2 := by
  cases m with
  | lookup base pattern =>
      have hanswer : answers (s.move engine (.lookup base pattern)).1 =
          [(s.resolve base pattern).1.mode] := congrArg _ (answers_toldAt s _)
      rw [hanswer]
      exact .resolve base pattern
  | start id =>
      rw [Session.move, answers_callAt]
      exact (counts_start engine s id).answers (move_origins (m := .start id) rfl)
        (s.start_generation engine id)
  | wake id =>
      exact (counts_wake engine s id).answers (move_origins (m := .wake id) rfl)
        (s.wake_generation engine id)
  | poll id =>
      rw [Session.move, answers_toldAt]
      have horigins : (s.move engine (.poll id)).2.origins = s.origins := move_origins rfl
      exact (counts_see engine s id).answers horigins (s.see_generation id)
  | pass | tell => exact .of_same rfl rfl rfl
  | flushStore =>
      exact .of_same (move_origins (m := .flushStore) rfl) s.flushStore_generation
        (by rw [Session.move, flushStore_counters])
  | resetStats | renew => cases hm

theorem moves_answers (hms : ∀ m ∈ ms, m.zeroes = false) :
    Answers s (answers (s.moves engine ms).1) (s.moves engine ms).2 := by
  induction ms generalizing s with
  | nil => exact .refl s
  | cons m ms ih =>
      obtain ⟨hm, hms⟩ := List.forall_mem_cons.mp hms
      have hmove : Answers s (answers (s.move engine m).1) (s.move engine m).2 := move_answers hm
      have hmoves := hmove.trans (ih hms)
      rw [← answers_append] at hmoves
      exact hmoves

/-- There is one answer for each lookup. -/
theorem length_answers (ms : List Move) :
    (answers (s.moves engine ms).1).length = (ms.filterMap Move.pair?).length := by
  induction ms generalizing s with
  | nil => rfl
  | cons m ms ih =>
      have hmove : (answers (s.move engine m).1).length = ([m].filterMap Move.pair?).length := by
        cases m with
        | lookup => exact congrArg (·.length + 1) (answers_toldAt s _)
        | start => exact congrArg List.length (answers_callAt s _)
        | poll => exact congrArg List.length (answers_toldAt _ _)
        | wake | pass | tell | resetStats | flushStore | renew => rfl
      rw [moves, answers_append, List.length_append, hmove, ih, ← List.length_append,
        ← List.filterMap_append]
      rfl

/-! ## Counters -/

/-- Until something is looked up after a reset, or in a new cache, the counters stand at zero. -/
theorem counters_untilReset (hzero : s.cache.counters = {}) (ms : List Move) :
    (s.moves engine (untilReset ms)).2.cache.counters = {} := by
  by_cases hnone : untilReset ms = []
  · rw [hnone]
    exact hzero
  · have hlast : ((untilReset ms).getLast hnone).zeroes = true := by
      have hnot := List.rdropWhile_last_not _ ms hnone
      rwa [Bool.not_eq_true, Bool.not_eq_false'] at hnot
    rw [← List.dropLast_append_getLast hnone, moves_append]
    generalize (untilReset ms).getLast hnone = m at hlast
    cases m with
    | resetStats | renew => rfl
    | lookup | start | wake | poll | pass | tell | flushStore => cases hlast

/-- Where the counters stood at zero they say what was answered since. -/
theorem Answers.accounts (h : Answers s modes t) (hzero : s.cache.counters = {})
    {asked : List (String × String)} (hasked : modes.length = asked.length) :
    Accounts s asked modes t := by
  have hmodes := LookupMode.count_modes modes
  have hcounters := h.counters
  rw [hzero, Counters.countAll_eq] at hcounters
  generalize t.cache.counters.errors = errors at hcounters
  have hhits : t.cache.counters.hits = .ofNat (modes.count .sync + modes.count .async) := by
    rw [hcounters]
    exact UInt64.zero_add _
  have hmisses : t.cache.counters.misses = .ofNat (modes.count .miss) := by
    rw [hcounters]
    exact UInt64.zero_add _
  have hsync : t.cache.counters.syncHits = .ofNat (modes.count .sync) := by
    rw [hcounters]
    exact UInt64.zero_add _
  exact {
    answered := hasked
    misses := hmisses
    growth := h.size
    syncHits := hsync
    hits := t.cache.counters.snapshot_hits
    counted := hhits
    total := by rw [hhits, hmisses, ← UInt64.ofNat_add, hmodes, hasked]
    derived := fun hfits => by
      have htold := t.cache.counters.snapshot_of_fits _ _ hhits hsync (by omega)
      exact ⟨congrArg CacheStats.hits htold, congrArg CacheStats.asyncHits htold⟩ }

end

end Session

/-! ## Main result -/

/-- In every interleaving of any number of callers with the worker and the clock on a new cache, the
counters say what the lookups since the last reset were answered: misses, by as many of which the
cache has grown since then, hits at once and hits under way, which make up all hits and, with the
misses, all lookups. The cache is as large as there are different keys that were looked up in it. A
script is one of these interleavings, with the lookups and resets that its steps ask for. -/
theorem lookups_counted (engine : Engine) (new : Session) (fresh : new.jobs = [])
    (uncounted : new.cache.counters = {}) :
    (∀ moves : List Move,
      let zero := (new.moves engine (untilReset moves)).2
      let since := zero.moves engine (sinceReset moves)
      let s := (new.moves engine moves).2
      zero.Accounts ((sinceReset moves).filterMap Move.pair?) (answers since.1) s ∧
        s.size = ((lookedUp moves).map fun pair => cacheKey pair.1 pair.2).dedup.length) ∧
      ∀ script : List Step, ∃ moves : List Move,
        (new.moves engine moves).2 = (new.run engine script).2 ∧
          moves.filter Move.isRequest = script.flatMap Step.requests ∧
          (sinceReset moves).filterMap Move.pair? =
            (sinceReset (script.flatMap Step.requests)).filterMap Move.pair? := by
  refine ⟨?_, ?_⟩
  · intro moves zero since s
    have hlast : since.2 = s := by
      have hmoves : (new.moves engine (untilReset moves ++ sinceReset moves)).2 = s := by
        rw [untilReset_append_sinceReset]
      rw [Session.moves_append] at hmoves
      exact hmoves
    have hanswers : zero.Answers (answers since.1) since.2 :=
      Session.moves_answers fun m hm => zeroes_of_mem_sinceReset hm
    have hledger : Ledger _ s := (Ledger.of_no_jobs fresh).moves moves
    have hrecalls : Recalls _ s := (Recalls.of_no_jobs fresh).moves moves
    refine ⟨?_, ?_⟩
    · rw [← hlast]
      exact hanswers.accounts (Session.counters_untilReset uncounted moves)
        (zero.length_answers (sinceReset moves))
    · rw [← Session.length_keys]
      exact (Session.keys_perm hledger hrecalls).length_eq
  · intro script
    have henacts : Session.Enacts engine new (script.flatMap Step.requests)
        (new.run engine script).2 := new.run_enacts script
    obtain ⟨moves, hlast, hrequests⟩ := henacts
    refine ⟨moves, hlast, hrequests, ?_⟩
    rw [← hrequests, ← sinceReset_filter, filterMap_pair?_filter]

/-- A compiler that takes its time and has an error for every pattern. -/
def failingLate : Engine := { compiler := {
  delayMs := fun _ _ => 5
  ending := fun _ _ => .result (.error (@CompileError.invalidRegex none)) } }

/-- After a reset with one job under way, a second key is a miss, and the key under way is found
first open and then known. -/
theorem lookups_around_reset_counted :
    let moves : List Move := [.lookup "" "/a", .start 0, .resetStats, .lookup "" "/a",
      .lookup "" "/b", .pass 5, .wake 0, .lookup "" "/a"]
    let s := (({} : Session).moves failingLate moves).2
    ({} : Session).jobs = [] ∧ ({} : Session).cache.counters = {} ∧
      s.cache.stats.misses = 1 ∧ s.cache.stats.syncHits = 1 ∧
      s.cache.counters.hits + s.cache.counters.misses = 3 ∧ s.size = 2 ∧
      s.cache.stats.hits = s.cache.counters.hits ∧ s.cache.stats.asyncHits = 1 := by
  intro moves s
  obtain ⟨haccounts, hsize⟩ := (lookups_counted failingLate {} rfl rfl).1 moves
  obtain ⟨hhits, hasync⟩ := haccounts.derived (by decide)
  exact ⟨rfl, rfl, haccounts.misses.trans (by decide), haccounts.syncHits.trans (by decide),
    haccounts.total.trans (by decide), hsize.trans (by decide), hhits,
    hasync.trans (by decide)⟩

end RouteAudit.Cache
