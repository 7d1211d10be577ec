import RouteAudit.Proofs.Cache.Progress

/-! # Which job answers a lookup

Only the origins of the jobs decide which of them a lookup finds, and no origin ever
changes: a first lookup of a key adds one, and nothing removes any. So the job of a key
compiles the pair that was looked up first of all pairs with that key (`Recalls`), and
stays the job of the key for as long as the cache is not renewed.
-/

namespace RouteAudit.Cache

namespace Session

/-- The jobs as they were first. -/
def origins (s : Session) : List Job := s.jobs.map Job.origin

/-- The base and the pattern that a job compiles. -/
def pair? (s : Session) (id : Nat) : Option (String × String) :=
  s.jobs[id]?.map fun job => (job.base, job.pattern)

section

variable {engine : Engine} {s t : Session}

theorem find?_eq_origins (key : String) : s.find? key =
    s.origins.findIdx? fun job => job.generation == s.generation && job.key == key := by
  rw [find?, origins, List.findIdx?_map]
  rfl

theorem pair?_eq_origins (id : Nat) :
    s.pair? id = s.origins[id]?.map fun job => (job.base, job.pattern) := by
  rw [pair?, origins, List.getElem?_map, Option.map_map]
  rfl

/-- The job that is found for a key is a job of the current generation with this key. -/
theorem of_find? {key : String} {id : Nat} (hfind : s.find? key = some id) :
    ∃ job, s.jobs[id]? = some job ∧ job.generation = s.generation ∧ job.key = key := by
  obtain ⟨hlt, hmatch, -⟩ := List.findIdx?_eq_some_iff_getElem.mp hfind
  rw [Bool.and_eq_true, beq_iff_eq, beq_iff_eq] at hmatch
  exact ⟨s.jobs[id], List.getElem?_eq_getElem hlt, hmatch⟩

theorem find?_lt {key : String} {id : Nat} (hfind : s.find? key = some id) :
    id < s.jobs.length := by
  obtain ⟨job, hjob, -⟩ := of_find? hfind
  exact (List.getElem?_eq_some_iff.mp hjob).1

/-! ## What moves keep -/

theorem origins_modify {f : Job → Job} (hf : ∀ job, (f job).origin = job.origin) {id : Nat}
    (hjobs : t.jobs = s.jobs.modify id f) : t.origins = s.origins := by
  rw [origins, hjobs, map_modify hf, origins]

/-- A move that looks nothing up leaves all origins as they are. -/
theorem move_origins {m : Move} (hm : m.pair? = none) :
    (s.move engine m).2.origins = s.origins := by
  cases m with
  | lookup base pattern => cases hm
  | start id => exact origins_modify (Job.started_origin engine s.now) (s.start_jobs engine id)
  | wake id => exact origins_modify (Job.woken_origin engine s.now) (s.wake_jobs engine id)
  | poll id => exact origins_modify Job.seen_origin (s.see_jobs id)
  | pass | tell | resetStats | renew => rfl
  | flushStore => exact congrArg (List.map Job.origin) (s.flushStore_jobs engine)

@[simp] theorem flushStore_generation : (s.flushStore engine).generation = s.generation := by
  unfold flushStore
  split <;> rfl

@[simp] theorem resolve_generation (base pattern : String) :
    (s.resolve base pattern).2.generation = s.generation := by
  unfold resolve
  split <;> rfl

theorem renew_generation : (s.renew engine).generation = s.generation + 1 := by
  simp [renew, generation]

theorem move_generation {m : Move} (hm : m ≠ .renew) :
    (s.move engine m).2.generation = s.generation := by
  cases m with
  | lookup base pattern => exact s.resolve_generation base pattern
  | start id => exact s.start_generation engine id
  | wake id => exact s.wake_generation engine id
  | poll id => exact s.see_generation id
  | pass | tell | resetStats => rfl
  | flushStore => exact s.flushStore_generation
  | renew => exact absurd rfl hm

/-- Each renewal among the moves goes on by one generation. -/
theorem generation_moves (ms : List Move) :
    (s.moves engine ms).2.generation = s.generation + ms.count .renew := by
  induction ms generalizing s with
  | nil => rfl
  | cons m ms ih =>
      rw [moves]
      dsimp only
      rw [ih]
      by_cases hm : m = .renew
      · subst hm
        rw [List.count_cons_self, Session.move, renew_generation]
        omega
      · rw [move_generation hm, List.count_cons_of_ne hm]

/-- Waiting leaves the origins and the generation as they are. -/
theorem Waits.origins_eq (hst : Waits engine s t) :
    t.origins = s.origins ∧ t.generation = s.generation := by
  have hmove (s : Session) (m : Move) (hquiet : m.IsQuiet) : m.pair? = none ∧ m ≠ .renew := by
    cases m <;> first | exact ⟨rfl, Move.noConfusion⟩ | exact hquiet.elim
  obtain ⟨ms, hquiet, rfl⟩ := hst
  induction ms generalizing s with
  | nil => exact ⟨rfl, rfl⟩
  | cons m ms ih =>
      obtain ⟨hpair, hrenew⟩ := hmove s m (hquiet m List.mem_cons_self)
      obtain ⟨horigins, hgeneration⟩ := ih (s := (s.move engine m).2) fun other hother =>
        hquiet other (List.mem_cons_of_mem m hother)
      exact ⟨horigins.trans (move_origins hpair), hgeneration.trans (move_generation hrenew)⟩

/-- Where origins and generation stay, every lookup finds the job that it found. -/
theorem find?_congr (horigins : t.origins = s.origins) (hgeneration : t.generation = s.generation)
    (key : String) : t.find? key = s.find? key := by
  rw [find?_eq_origins, find?_eq_origins, horigins, hgeneration]

theorem pair?_congr (horigins : t.origins = s.origins) (id : Nat) : t.pair? id = s.pair? id := by
  rw [pair?_eq_origins, pair?_eq_origins, horigins]

/-- A job goes on compiling the pair that it was started for. -/
theorem Onward.pair? (hst : Onward s t) {id : Nat} {pair : String × String}
    (hpair : s.pair? id = some pair) : t.pair? id = some pair := by
  obtain ⟨job, hjob, rfl⟩ := Option.map_eq_some_iff.mp hpair
  obtain ⟨next, hnext, honward⟩ := hst id job hjob
  have hpair : (next.origin.base, next.origin.pattern) = (job.base, job.pattern) := by
    rw [honward.origin]
    rfl
  rw [Session.pair?, hnext]
  exact congrArg some hpair

/-! ## Lookups -/

/-- A lookup that is not the first of its key changes no job, and any other adds one. -/
theorem resolve_cases (base pattern : String) :
    (s.find? (cacheKey base pattern) = some (s.resolve base pattern).1.job ∧
        (s.resolve base pattern).2.jobs = s.jobs) ∨
      (s.find? (cacheKey base pattern) = none ∧
        (s.resolve base pattern).1.job = s.jobs.length ∧
        (s.resolve base pattern).2.jobs =
          s.jobs ++ [{ generation := s.generation, base, pattern }]) := by
  unfold resolve
  split
  next id hfind => exact .inl ⟨hfind, rfl⟩
  next hfind => exact .inr ⟨hfind, rfl, rfl⟩

/-- After a lookup its key finds the job of its answer, and any other key what it found. -/
theorem find?_resolve (base pattern key : String) :
    (s.resolve base pattern).2.find? key =
      if key = cacheKey base pattern then some (s.resolve base pattern).1.job
      else s.find? key := by
  have hgeneration := s.resolve_generation base pattern
  rcases s.resolve_cases base pattern with ⟨hfind, hjobs⟩ | ⟨hfind, hplace, hjobs⟩
  · have hsame : (s.resolve base pattern).2.find? key = s.find? key :=
      find?_congr (congrArg (List.map Job.origin) hjobs) hgeneration key
    split_ifs with hkey
    · rw [hsame, hkey, hfind]
    · exact hsame
  · rw [find?, hjobs, hgeneration, List.findIdx?_append, ← find?]
    split_ifs with hkey
    · subst hkey
      simp [hfind, hplace, Job.key]
    · simp [Job.key, Ne.symm hkey]

end

end Session

/-! ## The first pair of a key -/

/-- The pairs that were looked up since the cache was last renewed, after one more move. -/
def Move.record (pairs : List (String × String)) : Move → List (String × String)
  | .lookup base pattern => pairs ++ [(base, pattern)]
  | .renew => []
  | _ => pairs

/-- The pairs that some moves look up since they last renew the cache, in order. -/
def lookedUp (ms : List Move) : List (String × String) := ms.foldl Move.record []

/-- The first of some pairs that has a key. -/
def firstWith (key : String) (pairs : List (String × String)) : Option (String × String) :=
  pairs.find? fun pair => cacheKey pair.1 pair.2 == key

/-- Of the pairs that were looked up, the job of a key compiles the first one with that
key. -/
structure Recalls (pairs : List (String × String)) (s : Session) : Prop where
  started : ∀ job ∈ s.jobs, job.generation ≤ s.generation
  first : ∀ key, (s.find? key).bind s.pair? = firstWith key pairs

namespace Recalls

open Session

variable {engine : Engine} {s t : Session} {pairs : List (String × String)}

theorem of_no_jobs (hnone : s.jobs = []) : Recalls [] s where
  started := by simp [hnone]
  first key := by simp [find?, hnone, firstWith]

theorem same_origins (h : Recalls pairs s) (horigins : t.origins = s.origins)
    (hgeneration : t.generation = s.generation) : Recalls pairs t where
  started job hjob := by
    have hmem : job.origin ∈ s.origins := horigins ▸ List.mem_map_of_mem hjob
    obtain ⟨old, hold, heq⟩ := List.mem_map.mp hmem
    have hsame : old.origin.generation = job.origin.generation := by rw [heq]
    rw [hgeneration]
    exact Nat.le_trans (Nat.le_of_eq hsame.symm) (h.started old hold)
  first key := by
    rw [find?_congr horigins hgeneration, ← h.first key]
    congr 1
    funext id
    exact pair?_congr horigins id

theorem firstWith_concat (key : String) (pair : String × String) :
    firstWith key (pairs ++ [pair]) =
      (firstWith key pairs).or (if key = cacheKey pair.1 pair.2 then some pair else none) := by
  rw [firstWith, List.find?_append]
  congr 1
  by_cases hkey : key = cacheKey pair.1 pair.2
  · simp [hkey]
  · simp [hkey, Ne.symm hkey]

theorem lookup (h : Recalls pairs s) (base pattern : String) :
    Recalls (pairs ++ [(base, pattern)]) (s.resolve base pattern).2 where
  started job hjob := by
    rw [resolve_generation]
    rcases s.resolve_cases base pattern with ⟨-, hjobs⟩ | ⟨-, -, hjobs⟩
    · exact h.started job (hjobs ▸ hjob)
    · rw [hjobs, List.mem_append, List.mem_singleton] at hjob
      rcases hjob with hjob | rfl
      · exact h.started job hjob
      · exact Nat.le_refl _
  first key := by
    have hkeeps (id : Nat) (hid : id < s.jobs.length) :
        (s.resolve base pattern).2.pair? id = s.pair? id := by
      have hpair : s.pair? id = some (s.jobs[id].base, s.jobs[id].pattern) := by
        rw [pair?, List.getElem?_eq_getElem hid]
        rfl
      rw [hpair, (onward_resolve base pattern).pair? hpair]
    rw [find?_resolve, firstWith_concat, ← h.first key]
    -- Only the key that was looked up can have got a job that it did not have.
    split_ifs with hkey
    · subst hkey
      rcases s.resolve_cases base pattern with ⟨hfind, -⟩ | ⟨hfind, hplace, hjobs⟩
      · have hlt := find?_lt hfind
        rw [hfind, Option.bind_some, Option.bind_some, hkeeps _ hlt, pair?,
          List.getElem?_eq_getElem hlt]
        rfl
      · simp [hfind, hplace, hjobs, pair?]
    · cases hfind : s.find? key with
      | none => rfl
      | some id =>
          rw [Option.bind_some, Option.bind_some, hkeeps id (find?_lt hfind), Option.or_none]

/-- A new cache remembers nothing, because no job is of its generation. -/
theorem renew (h : Recalls pairs s) : Recalls [] (s.renew engine) where
  started job hjob := by
    rw [renew_generation]
    exact Nat.le_succ_of_le (h.started job hjob)
  first key := by
    cases hfind : (s.renew engine).find? key with
    | none => rfl
    | some id =>
        obtain ⟨job, hjob, hgeneration, -⟩ := of_find? hfind
        have hle := h.started job (List.mem_of_getElem? hjob)
        rw [renew_generation] at hgeneration
        omega

theorem move (h : Recalls pairs s) (m : Move) : Recalls (m.record pairs) (s.move engine m).2 := by
  cases m with
  | lookup base pattern => exact h.lookup base pattern
  | start | wake | poll | pass | tell | resetStats | flushStore =>
      exact h.same_origins (move_origins rfl) (move_generation Move.noConfusion)
  | renew => exact h.renew

theorem moves (h : Recalls pairs s) (ms : List Move) :
    Recalls (ms.foldl Move.record pairs) (s.moves engine ms).2 := by
  induction ms generalizing pairs s with
  | nil => exact h
  | cons m ms ih => exact ih (h.move m)

end Recalls

end RouteAudit.Cache
