import RouteAudit.Proofs.Cache.Provenance
import RouteAudit.Proofs.Cache.WarmUp

/-! # The two passes of an analysis

The first pass looks every pattern up and waits, so afterwards either all outcomes are
known or the deadline is past (`warmUp_ready`). From then on nothing is left to wait for:
the second pass finds the jobs of the first, works on none of them and lets no time
pass, and tells of every pattern what is still known of it in the end
(`passOver_ready`).
-/

namespace RouteAudit.Cache.Session

/-- What is known of a pattern on a base. -/
def fate? (s : Session) (base pattern : String) : Option Outcome :=
  (s.find? (cacheKey base pattern)).bind s.outcome?

/-- Every pattern of a list has a job, and each of these is known unless the deadline is
past. -/
def Ready (s : Session) (base : String) (deadline : Option Nat) (patterns : List String) : Prop :=
  ∀ pattern ∈ patterns, ∃ id, s.find? (cacheKey base pattern) = some id ∧
    ((s.outcome? id).isSome ∨ deadline.any (· ≤ s.now))

/-- All jobs but those that crashed are exactly as they were. -/
def Rests (s t : Session) : Prop :=
  ∀ (id : Nat) (job : Job), s.jobs[id]? = some job → job.phase.isCrashed = false →
    t.jobs[id]? = some job

section

variable {engine : Engine} {s t u : Session} {base pattern : String} {deadline : Option Nat}
  {patterns : List String} {outcome : Outcome} {id : Nat}

theorem outcome?_congr (hjobs : t.jobs = s.jobs) (id : Nat) : t.outcome? id = s.outcome? id := by
  rw [outcome?, outcome?, hjobs]

theorem fate?_congr (hjobs : t.jobs = s.jobs) (hgeneration : t.generation = s.generation) :
    t.fate? base pattern = s.fate? base pattern := by
  rw [fate?, fate?, find?_congr (congrArg (List.map Job.origin) hjobs) hgeneration]
  congr 1
  funext id
  exact outcome?_congr hjobs id

theorem Rests.refl (s : Session) : Rests s s := fun _ _ hjob _ => hjob

theorem Rests.trans (hst : Rests s t) (htu : Rests t u) : Rests s u :=
  fun id job hjob hphase => htu id job (hst id job hjob hphase) hphase

/-- Looking at a job changes nothing unless it crashed. -/
theorem rests_see (id : Nat) : Rests s (s.see id) := by
  intro i job hjob hphase
  rw [see_jobs, List.getElem?_modify, hjob]
  by_cases hid : id = i
  · simp [hid, Job.seen_of_not_crashed hphase]
  · simp [hid]

theorem Rests.outcome? (hst : Rests s t) {id : Nat} {job : Job} (hjob : s.jobs[id]? = some job)
    (hphase : job.phase.isCrashed = false) : t.outcome? id = s.outcome? id := by
  rw [Session.outcome?, Session.outcome?, hst id job hjob hphase, hjob]

/-! ## Nothing left to wait for -/

theorem see_of_known (houtcome : s.outcome? id = some outcome) : s.see id = s := by
  unfold outcome? at houtcome
  unfold see
  split
  next hjob =>
    rw [hjob] at houtcome
    cases houtcome
  next => rfl

/-- A lookup of a pattern that is known counts and changes nothing else. -/
theorem resolve_of_known (hfate : s.fate? base pattern = some outcome) : ∃ id,
    s.outcome? id = some outcome ∧
      s.resolve base pattern = (⟨.sync, id⟩, s.setCounters (s.cache.counters.count .sync)) := by
  obtain ⟨id, hfind, houtcome⟩ := Option.bind_eq_some_iff.mp hfate
  refine ⟨id, houtcome, ?_⟩
  rw [Session.resolve, hfind]
  dsimp only
  rw [houtcome]
  rfl

theorem seeAll_of_knows {ids : List Nat} (hknown : s.knows ids) : s.seeAll ids = s := by
  induction ids with
  | nil => rfl
  | cons id ids ih =>
      rw [knows, List.all_cons, Bool.and_eq_true] at hknown
      obtain ⟨outcome, houtcome⟩ := Option.isSome_iff_exists.mp hknown.1
      rw [seeAll, List.foldl_cons, see_of_known houtcome]
      exact ih hknown.2

/-- Nobody waits for jobs whose outcomes are known. -/
theorem wait_of_knows (engine : Engine) {ids : List Nat} (deadline : Option Nat)
    (hknown : s.knows ids) : s.wait engine (some ids) deadline = (true, s) := by
  unfold wait waitFor workFor
  simp only [Option.getD_some, Option.any_some, seeAll_of_knows hknown, hknown, if_true]
  split <;> rfl

theorem wait_of_known (engine : Engine) (deadline : Option Nat)
    (houtcome : s.outcome? id = some outcome) :
    s.wait engine (some [id]) deadline = (true, s) :=
  wait_of_knows engine deadline (by simp [knows, houtcome])

/-- Whoever comes past the deadline only looks once, where a worker works. -/
theorem wait_past {ids : List Nat} (hdrive : engine.drive = .eager)
    (hpast : deadline.any (· ≤ s.now)) :
    s.wait engine (some ids) deadline = ((s.seeAll ids).knows ids, s.seeAll ids) := by
  rw [wait_of_eager hdrive]
  unfold waitFor
  dsimp only [Option.getD_some, Option.any_some]
  rw [seeAll_now]
  by_cases hknown : (s.seeAll ids).knows ids
  · rw [if_pos hknown, hknown]
  · rw [if_neg hknown, if_pos hpast, eq_false_of_ne_true hknown]

theorem resolve_of_find? {id : Nat} (hfind : s.find? (cacheKey base pattern) = some id) :
    (s.resolve base pattern).1.job = id ∧ (s.resolve base pattern).2.jobs = s.jobs ∧
      (s.resolve base pattern).2.now = s.now := by
  unfold resolve
  rw [hfind]
  exact ⟨rfl, rfl, rfl⟩

/-- What somebody gets who looks up a pattern that is ready: what is known of its job, and
nothing has happened but that the job was looked at. -/
structure Glance (s : Session) (id : Nat) (found : Option Outcome × Session) : Prop where
  told : found.1 = found.2.outcome? id
  jobs : found.2.jobs = (s.see id).jobs
  now : found.2.now = s.now
  generation : found.2.generation = s.generation

theorem glance_of_wait (hdelivers : engine.Delivers deadline) {id : Nat} (hjobs : t.jobs = s.jobs)
    (hnow : t.now = s.now) (hgeneration : t.generation = s.generation)
    (hready : (s.outcome? id).isSome ∨ deadline.any (· ≤ s.now)) :
    (t.wait engine (some [id]) deadline).1 = (t.see id).knows [id] ∧
      (t.wait engine (some [id]) deadline).2 = t.see id ∧
      Glance s id ((t.see id).outcome? id, t.see id) := by
  have hwait : t.wait engine (some [id]) deadline = ((t.see id).knows [id], t.see id) := by
    rcases hready with hknown | hpast
    · obtain ⟨outcome, houtcome⟩ := Option.isSome_iff_exists.mp hknown
      rw [← outcome?_congr hjobs] at houtcome
      rw [wait_of_known engine deadline houtcome, see_of_known houtcome]
      simp [knows, houtcome]
    · rcases hdelivers with hdrive | ⟨rfl, -⟩
      · exact wait_past hdrive (hnow ▸ hpast)
      · cases hpast
  rw [hwait]
  refine ⟨rfl, rfl, rfl, ?_, ?_, ?_⟩
  · rw [see_jobs, see_jobs, hjobs]
  · rw [see_now, hnow]
  · rw [see_generation, hgeneration]

theorem resolveOutcome_ready (hdelivers : engine.Delivers none) {id : Nat}
    (hfind : s.find? (cacheKey base pattern) = some id) (hready : (s.outcome? id).isSome) :
    Glance s id (s.resolveOutcome engine base pattern) := by
  obtain ⟨hid, hjobs, hnow⟩ := resolve_of_find? hfind
  have hgeneration := s.resolve_generation base pattern
  obtain ⟨-, hlast, hglance⟩ :=
    glance_of_wait hdelivers hjobs hnow hgeneration (.inl hready)
  unfold resolveOutcome await
  dsimp only
  rw [hid, hlast]
  exact hglance

theorem resolveWithin_ready {id time : Nat} (hdelivers : engine.Delivers (some time))
    (hfind : s.find? (cacheKey base pattern) = some id)
    (hready : (s.outcome? id).isSome ∨ time ≤ s.now) :
    Glance s id (s.resolveWithin engine base pattern (time - s.now)) := by
  obtain ⟨hid, hjobs, hnow⟩ := resolve_of_find? hfind
  have hgeneration := s.resolve_generation base pattern
  have hlimit : engine.Delivers (some (s.now + (time - s.now))) :=
    .inl (hdelivers.resolve_right nofun)
  obtain ⟨hdone, hlast, hglance⟩ := glance_of_wait hlimit hjobs hnow hgeneration
      (hready.imp_right fun hpast => decide_eq_true (by omega))
  unfold resolveWithin
  dsimp only
  rw [hid, hnow, hdone, hlast]
  have htold : (if ((s.resolve base pattern).2.see id).knows [id] then
      ((s.resolve base pattern).2.see id).outcome? id else none) =
      ((s.resolve base pattern).2.see id).outcome? id := by
    cases houtcome : ((s.resolve base pattern).2.see id).outcome? id <;> simp [knows, houtcome]
  rw [htold]
  exact hglance

namespace Glance

variable {id : Nat} {outcome : Option Outcome}

theorem origins_eq (h : Glance s id (outcome, t)) : t.origins = s.origins :=
  (congrArg (List.map Job.origin) h.jobs).trans (origins_modify Job.seen_origin (s.see_jobs id))

theorem onward (h : Glance s id (outcome, t)) : Onward s t :=
  (onward_modify Job.onward_seen (s.see_jobs id)).trans (onward_of_jobs_eq h.jobs)

theorem rests (h : Glance s id (outcome, t)) : Rests s t := by
  intro i job hjob hphase
  have hafter := rests_see id i job hjob hphase
  rw [h.jobs]
  exact hafter

/-- The job that was looked at has not crashed unseen. -/
theorem looked (h : Glance s id (outcome, t)) (hid : id < s.jobs.length) :
    ∃ job, t.jobs[id]? = some job ∧ job.phase.isCrashed = false := by
  refine ⟨s.jobs[id].seen, ?_, Job.isCrashed_seen _⟩
  rw [h.jobs, see_jobs, List.getElem?_modify, List.getElem?_eq_getElem hid]
  simp

theorem ready (h : Glance s id (outcome, t)) (hready : s.Ready base deadline patterns) :
    t.Ready base deadline patterns := by
  intro pattern hpattern
  obtain ⟨place, hplace, hsettled⟩ := hready pattern hpattern
  refine ⟨place, (find?_congr h.origins_eq h.generation _).trans hplace, ?_⟩
  rw [h.now]
  exact hsettled.imp_left h.onward.isSome

end Glance

/-! ## The second pass -/

/-- The second pass over a list that is ready tells of every pattern what is known of it in
the end, and lets no time pass. -/
theorem passOver_ready (hdelivers : engine.Delivers deadline)
    (hready : s.Ready base deadline patterns) :
    (passOver engine base deadline patterns s).1 = patterns.map (fun pattern =>
        (pattern, (passOver engine base deadline patterns s).2.fate? base pattern)) ∧
      Rests s (passOver engine base deadline patterns s).2 ∧
      (passOver engine base deadline patterns s).2.now = s.now ∧
      (passOver engine base deadline patterns s).2.origins = s.origins ∧
      (passOver engine base deadline patterns s).2.generation = s.generation := by
  induction patterns generalizing s with
  | nil => exact ⟨rfl, .refl s, rfl, rfl, rfl⟩
  | cons pattern patterns ih =>
      obtain ⟨id, hfind, hknown⟩ := hready pattern List.mem_cons_self
      -- With a deadline or without, the first pattern is only glanced at.
      obtain ⟨⟨outcome, t⟩, hpass, hglance⟩ : ∃ found,
          passOver engine base deadline (pattern :: patterns) s =
              ((pattern, found.1) :: (passOver engine base deadline patterns found.2).1,
                (passOver engine base deadline patterns found.2).2) ∧
            Glance s id found := by
        cases deadline with
        | none => exact ⟨_, rfl, resolveOutcome_ready hdelivers hfind (by simpa using hknown)⟩
        | some time => exact ⟨_, rfl, resolveWithin_ready hdelivers hfind (by simpa using hknown)⟩
      have hrest : s.Ready base deadline patterns :=
        fun other hother => hready other (List.mem_cons_of_mem pattern hother)
      obtain ⟨hresults, hkept, hclock, hlast, hnumber⟩ := ih (hglance.ready hrest)
      rw [hpass]
      generalize passOver engine base deadline patterns t = passed
        at hresults hkept hclock hlast hnumber ⊢
      have horigins := hlast.trans hglance.origins_eq
      have hgeneration := hnumber.trans hglance.generation
      refine ⟨?_, hglance.rests.trans hkept, hclock.trans hglance.now, horigins, hgeneration⟩
      -- What the pass tells of the first pattern is still all that is known in the end.
      have hfate : passed.2.fate? base pattern = outcome := by
        obtain ⟨job, hjob, hnot⟩ := hglance.looked (find?_lt hfind)
        rw [fate?, find?_congr horigins hgeneration, hfind, Option.bind_some,
          hkept.outcome? hjob hnot]
        exact hglance.told.symm
      rw [List.map_cons, hfate, hresults]

/-! ## The first pass -/

theorem Plays.sound {asked : List (String × String)} {sights : List Sight}
    (h : Plays engine s asked sights t) (hsound : s.Sound engine.compiler) :
    t.Sound engine.compiler := by
  obtain ⟨ms, rfl, -⟩ := h
  exact hsound.moves ms

theorem resolveAll_recalls {pairs : List (String × String)} (h : Recalls pairs s)
    (base : String) (patterns : List String) :
    Recalls (pairs ++ patterns.map (base, ·)) (s.resolveAll base patterns).2 := by
  induction patterns generalizing pairs s with
  | nil =>
      rw [List.map_nil, List.append_nil]
      exact h
  | cons pattern patterns ih =>
      have hrest := ih (h.lookup base pattern)
      rw [List.append_assoc] at hrest
      exact hrest

theorem resolve_now (base pattern : String) : (s.resolve base pattern).2.now = s.now := by
  unfold resolve
  split <;> rfl

theorem resolveAll_now (base : String) (patterns : List String) :
    (s.resolveAll base patterns).2.now = s.now := by
  induction patterns generalizing s with
  | nil => rfl
  | cons pattern patterns ih =>
      exact (ih (s := (s.resolve base pattern).2)).trans (resolve_now base pattern)

/-- After the first pass every pattern has a job that is known, unless the pass has come to
the deadline. -/
theorem warmUp_jobs (hsound : s.Sound engine.compiler) (hdelivers : engine.Delivers deadline)
    (base : String) (patterns : List String) :
    ∀ pattern ∈ patterns, ∃ id,
      (s.warmUp engine base patterns deadline).2.find? (cacheKey base pattern) = some id ∧
        (((s.warmUp engine base patterns deadline).2.outcome? id).isSome ∨
          ∃ time, deadline = some time ∧
            (s.warmUp engine base patterns deadline).2.now = max s.now time) := by
  obtain ⟨hplaces, hjobs⟩ := s.resolveAll_jobs base patterns
  have hnow := s.resolveAll_now base patterns
  have hall := hsound.resolveAll base patterns
  unfold warmUp
  dsimp only
  generalize s.resolveAll base patterns = all at hplaces hjobs hnow hall ⊢
  obtain ⟨hdone, hlate⟩ := wait_spec hall hplaces hdelivers
  have hwaits : Waits engine all.2 _ := wait_waits (some (pendingJobs all.1)) deadline
  rw [hnow] at hlate
  generalize all.2.wait engine (some (pendingJobs all.1)) deadline = waited
    at hdone hlate hwaits ⊢
  obtain ⟨done, t⟩ := waited
  obtain ⟨horigins, hgeneration⟩ := hwaits.origins_eq
  intro pattern hpattern
  obtain ⟨id, hfind, hjob⟩ := hjobs pattern hpattern
  refine ⟨id, (find?_congr horigins hgeneration _).trans hfind, ?_⟩
  rcases hjob with hpending | hknown
  · cases done with
    | true => exact .inl (List.all_eq_true.mp (hdone rfl) id hpending)
    | false => exact .inr (hlate rfl).2
  · exact .inl (hwaits.onward.isSome hknown)

theorem warmUp_ready (hsound : s.Sound engine.compiler) (hdelivers : engine.Delivers deadline)
    (base : String) (patterns : List String) :
    (s.warmUp engine base patterns deadline).2.Ready base deadline patterns := by
  intro pattern hpattern
  obtain ⟨id, hfind, hknown | ⟨time, rfl, hnow⟩⟩ :=
    warmUp_jobs hsound hdelivers base patterns pattern hpattern
  · exact ⟨id, hfind, .inl hknown⟩
  · refine ⟨id, hfind, .inr (decide_eq_true ?_)⟩
    rw [hnow]
    exact Nat.le_max_right _ time

end

end RouteAudit.Cache.Session
