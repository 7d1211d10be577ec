import RouteAudit.Proofs.Cache.Waiting
import RouteAudit.Proofs.Cache.Origins
import RouteAudit.Proofs.Cache.WriteOnce

/-! # What a warm-up leaves behind

A warm-up looks a list up at one go and waits until all that was not known is known, with other
callers, the worker and the clock at work meanwhile. It may have found its keys unknown, under way,
over, or with a job that crashed unseen: in the end each of them has a job with an outcome, and as
long as the cache is not renewed no move takes that away (`warmed_up_answers_at_once`).
-/

namespace RouteAudit.Cache

namespace Session

/-- What a warm-up says in the end of a list so long and of the jobs that it waited for. -/
def summary (s : Session) (requested : Nat) (pending : List Nat) : WarmUp where
  requested
  compiled := pending.countP fun id => (s.outcome? id).any Outcome.isCompiled
  failed := pending.countP fun id => (s.outcome? id).any (!·.isCompiled)

section

variable {engine : Engine} {s t : Session} {key base pattern : String} {id : Nat}

theorem Plays.onward {asked : List (String × String)} {sights : List Sight}
    (h : Plays engine s asked sights t) : Onward s t := by
  obtain ⟨ms, rfl, -⟩ := h
  exact onward_moves ms

/-! ## A key keeps its job -/

theorem resolve_find? (hfind : s.find? key = some id) (base pattern : String) :
    (s.resolve base pattern).2.find? key = some id := by
  rw [find?_resolve]
  split_ifs with hkey
  · subst hkey
    rcases s.resolve_cases base pattern with ⟨hsame, -⟩ | ⟨hnone, -⟩
    · exact hsame.symm.trans hfind
    · rw [hnone] at hfind
      cases hfind
  · exact hfind

theorem move_find? {m : Move} (hm : m ≠ .renew) (hfind : s.find? key = some id) :
    (s.move engine m).2.find? key = some id := by
  cases hpair : m.pair? with
  | none => rw [find?_congr (move_origins hpair) (move_generation hm), hfind]
  | some pair =>
      cases m with
      | lookup base pattern => exact resolve_find? hfind base pattern
      | start | wake | poll | pass | tell | resetStats | flushStore | renew => cases hpair

/-- As long as the cache is not renewed, a key keeps the job that it has. -/
theorem moves_find? {ms : List Move} (hms : .renew ∉ ms) (hfind : s.find? key = some id) :
    (s.moves engine ms).2.find? key = some id :=
  moves_keep (motive := fun s => s.find? key = some id) (fun _ _ hm h => move_find? hm h) hms hfind

theorem moves_generation {ms : List Move} (hms : .renew ∉ ms) :
    (s.moves engine ms).2.generation = s.generation := by
  rw [generation_moves, List.count_eq_zero.mpr hms, Nat.add_zero]

/-- A lookup of a key whose outcome is known is answered with that outcome. -/
theorem sights_of_known {outcome : Outcome} (hfind : s.find? (cacheKey base pattern) = some id)
    (hknown : s.outcome? id = some outcome) :
    (s.move engine (.lookup base pattern)).1 =
      [.answered ⟨s.generation, cacheKey base pattern⟩ .sync,
        .told ⟨s.generation, cacheKey base pattern⟩ outcome] := by
  have hanswer : (s.resolve base pattern).1 = ⟨.sync, id⟩ := by
    rw [resolve, hfind]
    dsimp only
    rw [hknown]
    rfl
  obtain ⟨job, hjob, hgeneration, hkey⟩ := of_find? hfind
  have htold : s.toldAt id = [.told ⟨s.generation, cacheKey base pattern⟩ outcome] := by
    obtain ⟨number, base', pattern', phase⟩ := job
    rw [outcome?, hjob] at hknown
    cases phase with
    | settled ended =>
        obtain rfl : ended = outcome := Option.some.inj hknown
        rw [toldAt, hjob, ← hgeneration, ← hkey]
        rfl
    | queued | asleep | crashed => cases hknown
  rw [move]
  dsimp only
  rw [hanswer, htold]

/-! ## All lookups of a list -/

theorem moves_lookups (engine : Engine) (s : Session) (base : String) (patterns : List String) :
    (s.moves engine (patterns.map (.lookup base))).2 = (s.resolveAll base patterns).2 := by
  induction patterns generalizing s with
  | nil => rfl
  | cons pattern patterns ih => exact ih _

theorem renew_not_mem_lookups (base : String) (patterns : List String) :
    .renew ∉ patterns.map (Move.lookup base) := by
  intro h
  obtain ⟨pattern, -, hlookup⟩ := List.mem_map.mp h
  cases hlookup

/-- A key keeps its job while more is looked up. -/
theorem resolveAll_find? (hfind : s.find? key = some id) (base : String)
    (patterns : List String) : (s.resolveAll base patterns).2.find? key = some id := by
  rw [← s.moves_lookups {}]
  exact moves_find? (renew_not_mem_lookups base patterns) hfind

theorem pendingJobs_cons (first : Resolution) (rest : List Resolution) :
    pendingJobs (first :: rest) =
      if first.mode = .sync then pendingJobs rest else first.job :: pendingJobs rest := by
  obtain ⟨mode, job⟩ := first
  cases mode <;> rfl

/-- Who is answered synchronously knows the outcome. -/
theorem known_of_sync (base pattern : String)
    (hsync : (s.resolve base pattern).1.mode = .sync) :
    (s.outcome? (s.resolve base pattern).1.job).isSome := by
  unfold resolve at hsync ⊢
  split
  next id hfind =>
    rw [hfind] at hsync
    by_contra hopen
    simp [hopen] at hsync
  next hfind =>
    rw [hfind] at hsync
    cases hsync

/-- After all lookups every pattern has a job, which has to be waited for or is known. -/
theorem resolveAll_jobs (base : String) (patterns : List String) :
    (∀ id ∈ pendingJobs (s.resolveAll base patterns).1,
        id < (s.resolveAll base patterns).2.jobs.length) ∧
      ∀ pattern ∈ patterns, ∃ id,
        (s.resolveAll base patterns).2.find? (cacheKey base pattern) = some id ∧
          (id ∈ pendingJobs (s.resolveAll base patterns).1 ∨
            ((s.resolveAll base patterns).2.outcome? id).isSome) := by
  induction patterns generalizing s with
  | nil => simp [resolveAll, pendingJobs]
  | cons pattern patterns ih =>
      obtain ⟨hplaces, hjobs⟩ := ih (s := (s.resolve base pattern).2)
      have hfind : (s.resolve base pattern).2.find? (cacheKey base pattern) =
          some (s.resolve base pattern).1.job := by
        rw [find?_resolve, if_pos rfl]
      have hlast := resolveAll_find? hfind base patterns
      have honward : Onward s ((s.resolve base pattern).2.resolveAll base patterns).2 :=
        (onward_resolve base pattern).trans
          (resolveAll_plays base patterns : Plays {} _ _ _ _).onward
      have hsync := s.known_of_sync base pattern
      unfold resolveAll
      dsimp only
      generalize (s.resolve base pattern).2.resolveAll base patterns = all
        at hplaces hjobs hlast honward ⊢
      rw [pendingJobs_cons]
      split_ifs with hmode
      · have hknown := honward.isSome (hsync hmode)
        exact ⟨hplaces, List.forall_mem_cons.mpr ⟨⟨_, hlast, .inr hknown⟩, hjobs⟩⟩
      · refine ⟨List.forall_mem_cons.mpr ⟨find?_lt hlast, hplaces⟩,
          List.forall_mem_cons.mpr ⟨⟨_, hlast, .inl List.mem_cons_self⟩, ?_⟩⟩
        intro other hother
        obtain ⟨id, hid, hknown⟩ := hjobs other hother
        exact ⟨id, hid, hknown.imp_left (List.mem_cons_of_mem _)⟩

/-! ## The end of a warm-up -/

/-- Where all outcomes are known, each job that was waited for counts on one side. -/
theorem summary_total {ids : List Nat} (hknown : s.knows ids) (requested : Nat) :
    (s.summary requested ids).compiled + (s.summary requested ids).failed = ids.length := by
  have hfailed : ids.countP (fun id => (s.outcome? id).any (!·.isCompiled)) =
      ids.countP fun id => ¬ (s.outcome? id).any Outcome.isCompiled := by
    refine List.countP_congr fun id hid => ?_
    obtain ⟨outcome, houtcome⟩ := Option.isSome_iff_exists.mp (List.all_eq_true.mp hknown id hid)
    rw [houtcome]
    simp
  rw [summary, hfailed]
  exact (List.length_eq_countP_add_countP fun id =>
    (s.outcome? id).any Outcome.isCompiled).symm

theorem summary_eq {ids : List Nat} (hknown : s.knows ids) (requested : Nat) :
    s.summary requested ids = ⟨requested, (s.summary requested ids).compiled,
      ids.length - (s.summary requested ids).compiled⟩ := by
  rw [← summary_total hknown requested, Nat.add_sub_cancel_left]
  rfl

theorem length_pendingJobs (resolutions : List Resolution) :
    (pendingJobs resolutions).length = resolutions.countP (·.mode ≠ .sync) := by
  rw [pendingJobs, List.length_map, ← List.countP_eq_length_filter]
  refine List.countP_congr fun resolution _ => ?_
  cases resolution.mode <;> decide

end

/-- While a warm-up of a list goes on that was begun on a session, other callers, the worker and
the clock make these moves, and at the end of them all that it waits for is known. -/
structure WarmsUp (engine : Engine) (s : Session) (base : String) (patterns : List String)
    (meanwhile : List Move) : Prop where
  stays : .renew ∉ meanwhile
  known : ((s.resolveAll base patterns).2.moves engine meanwhile).2.knows
    (pendingJobs (s.resolveAll base patterns).1)

section

variable {engine : Engine} {s t : Session} {base : String} {patterns : List String}
  {meanwhile : List Move}

/-- A warm-up that nobody cuts short and nobody else disturbs comes to its end. -/
theorem warmUp_warmsUp (hsound : s.Sound engine.compiler) (hdelivers : engine.Delivers none)
    (base : String) (patterns : List String) :
    ∃ meanwhile, WarmsUp engine s base patterns meanwhile ∧
      let t := ((s.resolveAll base patterns).2.moves engine meanwhile).2
      s.warmUp engine base patterns none =
        (t.summary patterns.length (pendingJobs (s.resolveAll base patterns).1), t) := by
  obtain ⟨hplaces, -⟩ := s.resolveAll_jobs base patterns
  obtain ⟨hdone, hlate⟩ := wait_spec (hsound.resolveAll base patterns) hplaces hdelivers
  have hended : ((s.resolveAll base patterns).2.wait engine
      (some (pendingJobs (s.resolveAll base patterns).1)) none).1 = true := by
    by_contra hopen
    obtain ⟨-, time, hnone, -⟩ := hlate (eq_false_of_ne_true hopen)
    cases hnone
  have hknown := hdone hended
  obtain ⟨meanwhile, hquiet, hmoves⟩ : Waits engine (s.resolveAll base patterns).2 _ :=
    wait_waits (some (pendingJobs (s.resolveAll base patterns).1)) none
  refine ⟨meanwhile, ⟨fun hrenew => hquiet _ hrenew, hmoves ▸ hknown⟩, ?_⟩
  dsimp only
  rw [hmoves, summary_eq hknown, warmUp]
  dsimp only
  rw [if_pos hended]
  rfl

/-- The outcome that each pattern has in the end of a warm-up is what every later lookup of it
is answered with at once. -/
theorem WarmsUp.answers (h : WarmsUp engine s base patterns meanwhile) {pattern : String}
    (hpattern : pattern ∈ patterns) :
    ∃ outcome, ∀ later, .renew ∉ later →
      let t := ((s.resolveAll base patterns).2.moves engine (meanwhile ++ later)).2
      (t.move engine (.lookup base pattern)).1 =
        [.answered ⟨s.generation, cacheKey base pattern⟩ .sync,
          .told ⟨s.generation, cacheKey base pattern⟩ outcome] := by
  obtain ⟨id, hfind, hjob⟩ := (s.resolveAll_jobs base patterns).2 pattern hpattern
  have hknown : (((s.resolveAll base patterns).2.moves engine meanwhile).2.outcome? id).isSome := by
    rcases hjob with hpending | hknown
    · exact List.all_eq_true.mp h.known id hpending
    · exact (onward_moves meanwhile).isSome hknown
  obtain ⟨outcome, houtcome⟩ := Option.isSome_iff_exists.mp hknown
  refine ⟨outcome, fun later hlater => ?_⟩
  have hmoves : .renew ∉ meanwhile ++ later := by
    rw [List.mem_append, not_or]
    exact ⟨h.stays, hlater⟩
  have hgeneration : (s.resolveAll base patterns).2.generation = s.generation := by
    rw [← s.moves_lookups engine]
    exact moves_generation (renew_not_mem_lookups base patterns)
  have hlast : ((s.resolveAll base patterns).2.moves engine (meanwhile ++ later)).2.outcome? id =
      some outcome := by
    rw [moves_append]
    exact (onward_moves later).outcome? houtcome
  dsimp only
  rw [sights_of_known (moves_find? hmoves hfind) hlast, moves_generation hmoves, hgeneration]

end

end Session

/-! ## Main result -/

/-- From any session that callers of a new cache can have come to, a warm-up of any list comes to
its end on its own, unless it works itself and something crashes; and however it comes to its end
with others at work, it says how long the list is and how each lookup ended that was not answered
at once, every later lookup of one of its patterns is answered at once and always with the same
outcome, and over the whole run nothing has been compiled twice. -/
theorem warmed_up_answers_at_once (engine : Engine) (new : Session) (fresh : new.jobs = [])
    (before : List Move) (base : String) (patterns : List String) :
    let s := (new.moves engine before).2
    let looked := s.resolveAll base patterns
    (engine.Delivers none → ∃ meanwhile, s.WarmsUp engine base patterns meanwhile ∧
        s.warmUp engine base patterns none =
          ((looked.2.moves engine meanwhile).2.summary patterns.length
            (Session.pendingJobs looked.1), (looked.2.moves engine meanwhile).2)) ∧
      ∀ meanwhile, s.WarmsUp engine base patterns meanwhile →
        let summary := (looked.2.moves engine meanwhile).2.summary patterns.length
          (Session.pendingJobs looked.1)
        summary.requested = patterns.length ∧
          summary.compiled + summary.failed = looked.1.countP (·.mode ≠ .sync) ∧
          (∀ pattern ∈ patterns, ∃ outcome, ∀ later, .renew ∉ later →
            ((looked.2.moves engine (meanwhile ++ later)).2.move engine (.lookup base pattern)).1 =
              [.answered ⟨s.generation, cacheKey base pattern⟩ .sync,
                .told ⟨s.generation, cacheKey base pattern⟩ outcome]) ∧
          ∀ later slot, callsOf slot (new.moves engine
            (before ++ patterns.map (.lookup base) ++ meanwhile ++ later)).1 ≤ 1 := by
  intro s looked
  have hsound : s.Sound engine.compiler := (Session.Sound.of_no_jobs fresh).moves before
  refine ⟨fun hdelivers => Session.warmUp_warmsUp hsound hdelivers base patterns,
    fun meanwhile hwarms => ⟨rfl, ?_, ?_, ?_⟩⟩
  · rw [Session.summary_total hwarms.known, Session.length_pendingJobs]
  · exact fun pattern hpattern => hwarms.answers hpattern
  · exact fun later slot =>
      (((Ledger.of_no_jobs fresh).moves _).writtenOnce slot).compiled_once

/-- A compiler that crashes on one pattern and makes a sentinel for every other. -/
def crashingOn (pattern : String) : Engine where
  compiler :=
    { delayMs := fun _ _ => 5
      ending := fun base other =>
        if other = pattern then .crash else .result (.ok (.sentinel other base)) }

/-- A job that crashed before the warm-up, unseen, is waited for as often as its pattern is on the
list, next to one that is started; another caller looks that one up meanwhile. -/
theorem crashed_key_warmed_up :
    let before : List Move := [.lookup "" "/a", .start 0, .pass 5, .wake 0]
    let s := (({} : Session).moves (crashingOn "/a") before).2
    let looked := s.resolveAll "" ["/a", "/b", "/a"]
    let meanwhile : List Move := [.start 1, .lookup "" "/b", .poll 0, .pass 10, .wake 1]
    let t := (looked.2.moves (crashingOn "/a") meanwhile).2
    ({} : Session).jobs = [] ∧ (crashingOn "/a").Delivers none ∧
      (∃ own, s.WarmsUp (crashingOn "/a") "" ["/a", "/b", "/a"] own) ∧
      s.WarmsUp (crashingOn "/a") "" ["/a", "/b", "/a"] meanwhile ∧
      t.summary 3 (Session.pendingJobs looked.1) = ⟨3, 1, 2⟩ ∧
      looked.1.countP (·.mode ≠ .sync) = 3 ∧
      .renew ∉ [Move.pass 99] ∧
      ∃ outcome, ((looked.2.moves (crashingOn "/a") (meanwhile ++ [.pass 99])).2.move
        (crashingOn "/a") (.lookup "" "/a")).1 =
          [.answered ⟨0, "::/a"⟩ .sync, .told ⟨0, "::/a"⟩ outcome] := by
  intro before s looked meanwhile t
  have hwarms : s.WarmsUp (crashingOn "/a") "" ["/a", "/b", "/a"] meanwhile :=
    ⟨by decide, by decide⟩
  obtain ⟨hown, hall⟩ :=
    warmed_up_answers_at_once (crashingOn "/a") {} rfl before "" ["/a", "/b", "/a"]
  obtain ⟨own, hends, -⟩ := hown (.inl rfl)
  obtain ⟨-, -, hanswers, -⟩ := hall meanwhile hwarms
  obtain ⟨outcome, hlater⟩ := hanswers "/a" List.mem_cons_self
  exact ⟨rfl, .inl rfl, ⟨own, hends⟩, hwarms, by decide, by decide, by decide, outcome,
    hlater [.pass 99] (by decide)⟩

end RouteAudit.Cache
