import RouteAudit.Proofs.Cache.Outcomes

/-! # Waiting ends

Whoever waits for jobs that exist waits until their outcomes are known or until the
deadline: the fuel of the loops is always enough, because every turn of the first loop
takes a job out of the queue and every turn of the second ends a job that was asleep.
Without a deadline the outcomes are known in the end (`wait_spec`), whatever else is
under way and whichever of the jobs crash, as long as there is a worker to catch that.
-/

namespace RouteAudit.Cache.Session

section

variable {engine : Engine} {s t : Session}

/-! ## Looking at jobs -/

/-- Who looks at some jobs turns each crash among them into an outcome. -/
theorem seeAll_getElem? (ids : List Nat) (i : Nat) :
    (s.seeAll ids).jobs[i]? = s.jobs[i]?.map fun job => if i ∈ ids then job.seen else job := by
  have hseen (job : Job) : job.seen.seen = job.seen := Job.seen_of_not_crashed job.isCrashed_seen
  induction ids generalizing s with
  | nil => simp [seeAll]
  | cons id ids ih =>
      have hrest := ih (s := s.see id)
      rw [see_jobs, List.getElem?_modify] at hrest
      rw [show s.seeAll (id :: ids) = (s.see id).seeAll ids from rfl, hrest]
      by_cases hid : id = i
      · subst hid
        by_cases hmem : id ∈ ids <;> simp [hmem, hseen, Function.comp_def]
      · simp [hid, Ne.symm hid]

/-- None of some jobs crashed without being seen. -/
def Looked (s : Session) (ids : List Nat) : Prop :=
  ∀ id ∈ ids, ∀ job, s.jobs[id]? = some job → job.phase.isCrashed = false

theorem looked_seeAll (ids : List Nat) : (s.seeAll ids).Looked ids := by
  intro id hid job hjob
  rw [seeAll_getElem?] at hjob
  obtain ⟨old, -, rfl⟩ := Option.map_eq_some_iff.mp hjob
  simpa [hid] using old.isCrashed_seen

/-- The outcomes of jobs that are over are known where the crashes were seen. -/
theorem Looked.knows {ids : List Nat} (hlooked : s.Looked ids)
    (hover : ∀ id ∈ ids, ∃ job, s.jobs[id]? = some job ∧ 2 ≤ job.phase.stage) :
    s.knows ids := by
  rw [Session.knows, List.all_eq_true]
  intro id hid
  obtain ⟨job, hjob, hstage⟩ := hover id hid
  have hseen := hlooked id hid job hjob
  obtain ⟨generation, base, pattern, phase⟩ := job
  cases phase with
  | queued | asleep => simp [Phase.stage] at hstage
  | crashed => cases hseen
  | settled outcome => simp [Session.outcome?, hjob]

@[simp] theorem seeAll_now (ids : List Nat) : (s.seeAll ids).now = s.now := by
  induction ids generalizing s with
  | nil => rfl
  | cons id ids ih => exact ih.trans (s.see_now id)

/-! ## The queue -/

theorem beq_queued (phase : Phase) : (phase == .queued) = true ↔ phase = .queued := by
  cases phase with
  | queued => exact iff_of_true rfl rfl
  | asleep | crashed | settled => exact iff_of_false Bool.false_ne_true Phase.noConfusion

theorem mem_queue {id : Nat} :
    id ∈ s.queue ↔ ∃ job, s.jobs[id]? = some job ∧ job.phase = .queued := by
  unfold queue
  rw [List.mem_filter, List.mem_range]
  constructor
  · rintro ⟨hlt, hqueued⟩
    rw [List.getElem?_eq_getElem hlt] at hqueued ⊢
    exact ⟨_, rfl, (beq_queued _).mp hqueued⟩
  · rintro ⟨job, hjob, hqueued⟩
    exact ⟨(List.getElem?_eq_some_iff.mp hjob).1, by simpa [hjob, beq_queued] using hqueued⟩

/-- Where no job is queued, all of them have been started. -/
theorem before_one_of_queue (hempty : s.queue.isEmpty) : s.before 1 = 0 := by
  rw [before, List.countP_eq_zero]
  intro job hjob hbefore
  obtain ⟨id, hid⟩ := List.mem_iff_getElem?.mp hjob
  have hqueued : job.phase = .queued := by
    cases hphase : job.phase <;> simp_all [Phase.stage]
  have hmem : id ∈ s.queue := mem_queue.mpr ⟨job, hid, hqueued⟩
  rw [List.isEmpty_iff.mp hempty] at hmem
  cases hmem

/-- Taking turns takes at least one job out of the queue. -/
theorem before_takeTurns_lt (hsome : ¬ s.queue.isEmpty) :
    (s.takeTurns engine).before 1 < s.before 1 := by
  obtain ⟨id, rest, hqueue⟩ : ∃ id rest, s.queue = id :: rest := by
    cases hqueue : s.queue with
    | nil => simp [hqueue] at hsome
    | cons id rest => exact ⟨id, rest, rfl⟩
  obtain ⟨job, hjob, hqueued⟩ := mem_queue.mp (hqueue ▸ List.mem_cons_self)
  have hfirst : (s.start engine id).before 1 < s.before 1 := by
    exact before_modify_lt hjob (s.start_jobs engine id) (by simp [hqueued, Phase.stage])
      (job.stage_started engine s.now)
  have hrest : Waits engine (s.start engine id) (s.takeTurns engine) := by
    rw [takeTurns, hqueue, turnsAtOnce, List.take_succ_cons, List.foldl_cons]
    exact foldl_waits (fun _ id => .of_move (m := .start id) trivial) _
  exact Nat.lt_of_le_of_lt (hrest.before_le 1) hfirst

theorem takeTurns_now : (s.takeTurns engine).now = s.now := by
  unfold takeTurns
  generalize s.queue.take turnsAtOnce = ids
  induction ids generalizing s with
  | nil => rfl
  | cons id ids ih => exact ih.trans (start_now engine s id)

/-- No time passes while jobs start. -/
theorem startQueued_now (engine : Engine) (goal : Option (List Nat)) (fuel : Nat) :
    (startQueued engine goal fuel s).2.now = s.now := by
  induction fuel generalizing s with
  | zero => rfl
  | succ fuel ih =>
      unfold startQueued
      split
      next => rfl
      next =>
        dsimp only
        split
        next => rw [seeAll_now, takeTurns_now]
        next => rw [ih, seeAll_now, takeTurns_now]

/-- The first loop ends because its goal is reached or because the queue is empty. -/
theorem startQueued_spec (engine : Engine) (goal : Option (List Nat)) {fuel : Nat}
    (hfuel : s.before 1 < fuel) :
    ((startQueued engine goal fuel s).1 = true →
        goal.any (startQueued engine goal fuel s).2.knows) ∧
      ((startQueued engine goal fuel s).1 = false →
        (startQueued engine goal fuel s).2.before 1 = 0) := by
  induction fuel generalizing s with
  | zero => omega
  | succ fuel ih =>
      unfold startQueued
      split
      next hempty => exact ⟨by simp, fun _ => before_one_of_queue hempty⟩
      next hsome =>
        have hless : ((s.takeTurns engine).seeAll (goal.getD [])).before 1 < s.before 1 :=
          Nat.lt_of_le_of_lt ((seeAll_waits _ : Waits engine _ _).before_le 1)
            (before_takeTurns_lt hsome)
        dsimp only
        split
        next hknown => exact ⟨fun _ => hknown, by simp⟩
        next => exact ih (by omega)

/-! ## The clock -/

/-- Where no job wakes next, none is asleep. -/
theorem nextOf?_eq_none {first : Nat} {jobs : List Job} (hnone : nextOf? first jobs = none) :
    ∀ job ∈ jobs, ∀ wake, job.phase ≠ .asleep wake := by
  induction jobs generalizing first with
  | nil => simp
  | cons job jobs ih =>
      unfold nextOf? at hnone
      split at hnone
      next => split at hnone <;> cases hnone
      next => cases hnone
      next hnot hother =>
        intro other hmem wake hasleep
        rcases List.mem_cons.mp hmem with rfl | hmem
        · cases hrest : nextOf? (first + 1) jobs with
          | none => exact hother wake hasleep hrest
          | some next => exact hnot wake next.1 next.2 hasleep hrest
        · exact ih hnone other hmem wake hasleep

/-- Waking the next job ends one. -/
theorem before_finish_lt (engine : Engine) {wake id : Nat} (hnext : s.next? = some (wake, id))
    (now : Nat) :
    ({ s with now }.finish engine id).before 2 < s.before 2 := by
  obtain ⟨-, job, hjob, hasleep⟩ := nextOf?_eq_some hnext
  exact before_modify_lt hjob (finish_jobs engine { s with now } id)
    (by simp [hasleep, Phase.stage]) (job.stage_finished engine)

/-- The second loop ends because its goal is reached, because nobody is asleep any more,
or at the deadline. -/
theorem passTime_spec (engine : Engine) (goal : Option (List Nat)) (deadline : Option Nat)
    {fuel : Nat} (hfuel : s.before 2 < fuel) :
    ((passTime engine goal deadline fuel s).1 = true →
        goal.any (passTime engine goal deadline fuel s).2.knows) ∧
      ((passTime engine goal deadline fuel s).1 = false →
        ¬ goal.any (passTime engine goal deadline fuel s).2.knows ∧
        (((passTime engine goal deadline fuel s).2.Looked (goal.getD []) ∧
            (passTime engine goal deadline fuel s).2.next? = none) ∨
          ∃ time, deadline = some time ∧
            (passTime engine goal deadline fuel s).2.now = max s.now time)) := by
  induction fuel generalizing s with
  | zero => omega
  | succ fuel ih =>
      have hless : (s.seeAll (goal.getD [])).before 2 ≤ s.before 2 :=
        (seeAll_waits _ : Waits engine _ _).before_le 2
      have hlooked := s.looked_seeAll (goal.getD [])
      have hnow := s.seeAll_now (goal.getD [])
      unfold passTime
      dsimp only
      generalize s.seeAll (goal.getD []) = looked at hless hlooked hnow ⊢
      split
      next hknown => exact ⟨fun _ => hknown, by simp⟩
      next hopen =>
        split
        next hnext => exact ⟨by simp, fun _ => ⟨hopen, .inl ⟨hlooked, hnext⟩⟩⟩
        next time _ =>
          refine ⟨by simp, fun _ => ⟨hopen, .inr ⟨time, rfl, ?_⟩⟩⟩
          rw [hnow]
        -- A job ends, and from there on the induction speaks.
        next wake id hnext =>
          have hend := before_finish_lt engine hnext (max looked.now wake)
          obtain ⟨hdone, hlate⟩ := ih (s := { looked with now := max looked.now wake }.finish
            engine id) (by omega)
          refine ⟨hdone, fun hfalse => ?_⟩
          obtain ⟨hunknown, hstalled | ⟨time, htime, -⟩⟩ := hlate hfalse
          · exact ⟨hunknown, .inl hstalled⟩
          · cases htime
        next wake id time hnext =>
          split
          next =>
            refine ⟨by simp, fun _ => ⟨hopen, .inr ⟨time, rfl, ?_⟩⟩⟩
            rw [hnow]
          next hearly =>
            have hend := before_finish_lt engine hnext (max looked.now wake)
            obtain ⟨hdone, hlate⟩ := ih (s := { looked with now := max looked.now wake }.finish
              engine id) (by omega)
            refine ⟨hdone, fun hfalse => ?_⟩
            obtain ⟨hunknown, hstalled | ⟨limit, hlimit, hclock⟩⟩ := hlate hfalse
            · exact ⟨hunknown, .inl hstalled⟩
            · obtain rfl := Option.some.inj hlimit
              refine ⟨hunknown, .inr ⟨time, rfl, ?_⟩⟩
              -- The job woke before the deadline, so the clock only gets there now.
              have hpassed : max (max looked.now wake) time = max s.now time := by omega
              rw [hclock, finish_now]
              exact hpassed

theorem before_lt_fuel (stage : Nat) : s.before stage < s.jobs.length + 1 :=
  Nat.lt_succ_of_le List.countP_le_length

/-- Once every job has been started, the second loop brings the outcomes or it comes to
the deadline. -/
theorem passTime_started {ids : List Nat} (hids : ∀ id ∈ ids, id < s.jobs.length)
    (hstarted : s.before 1 = 0) (deadline : Option Nat)
    (hlate : (passTime engine (some ids) deadline (s.jobs.length + 1) s).1 = false) :
    ¬ (passTime engine (some ids) deadline (s.jobs.length + 1) s).2.knows ids ∧
      ∃ time, deadline = some time ∧
        (passTime engine (some ids) deadline (s.jobs.length + 1) s).2.now = max s.now time := by
  have hwaits : Waits engine s _ := passTime_waits (some ids) deadline (s.jobs.length + 1)
  obtain ⟨hopen, ⟨hlooked, hnext⟩ | hdeadline⟩ :=
    (passTime_spec engine (some ids) deadline (s.before_lt_fuel 2)).2 hlate
  · generalize (passTime engine (some ids) deadline (s.jobs.length + 1) s).2 = t
      at hwaits hopen hlooked hnext
    -- Nobody is queued and nobody is asleep, so nothing can be unknown.
    refine absurd (hlooked.knows fun id hid => ?_) hopen
    obtain ⟨job, hjob, -⟩ := hwaits.onward id _ (List.getElem?_eq_getElem (hids id hid))
    refine ⟨job, hjob, ?_⟩
    have hqueued : ¬ job.phase.stage < 1 := by
      have hnone : t.before 1 = 0 := Nat.le_zero.mp (hstarted ▸ hwaits.before_le 1)
      rw [before, List.countP_eq_zero] at hnone
      simpa using hnone job (List.mem_of_getElem? hjob)
    have hasleep := nextOf?_eq_none hnext job (List.mem_of_getElem? hjob)
    cases hphase : job.phase with
    | queued => simp [hphase, Phase.stage] at hqueued
    | asleep wake => exact absurd hphase (hasleep wake)
    | crashed | settled => simp [Phase.stage]
  · exact ⟨hopen, hdeadline⟩

/-! ## Work on demand -/

/-- A job that somebody runs to its end is over. -/
theorem complete_over (engine : Engine) {id : Nat} {job : Job} (hjob : s.jobs[id]? = some job) :
    ∃ next, (s.complete engine id).jobs[id]? = some next ∧ 2 ≤ next.phase.stage := by
  have hstarted : (s.start engine id).jobs[id]? = some (job.started engine s.now) := by
    rw [start_jobs, List.getElem?_modify, hjob]
    simp
  unfold complete
  dsimp only
  split
  next generation base pattern wake hasleep =>
    refine ⟨Job.finished engine ⟨generation, base, pattern, .asleep wake⟩, ?_,
      Job.stage_finished engine _⟩
    rw [finish_jobs, List.getElem?_modify]
    simp [hasleep]
  next hnot =>
    refine ⟨job.started engine s.now, hstarted, ?_⟩
    have hasleep (wake : Nat) : (job.started engine s.now).phase ≠ .asleep wake := by
      intro hphase
      apply hnot (job.started engine s.now).generation (job.started engine s.now).base
        (job.started engine s.now).pattern wake
      rw [hstarted, ← hphase]
    have hstage := job.stage_started engine s.now
    cases hphase : (job.started engine s.now).phase with
    | queued => simp [hphase, Phase.stage] at hstage
    | asleep wake => exact absurd hphase (hasleep wake)
    | crashed | settled => simp [Phase.stage]

/-- The outcome of a job that somebody runs to its end is known where nothing crashes. -/
theorem complete_known (hsound : s.Sound engine.compiler)
    (hcalm : ∀ base pattern, engine.compiler.crashes base pattern = false) {id : Nat}
    (hid : id < s.jobs.length) : ((s.complete engine id).outcome? id).isSome := by
  obtain ⟨job, hjob, hover⟩ := complete_over engine (List.getElem?_eq_getElem hid)
  have hended := (complete_waits id : Waits engine s _).sound hsound
  have hnot := (hended job (List.mem_of_getElem? hjob)).not_crashed (hcalm _ _)
  obtain ⟨generation, base, pattern, phase⟩ := job
  cases phase with
  | queued | asleep => simp [Phase.stage] at hover
  | crashed => cases hnot
  | settled outcome => simp [outcome?, hjob]

/-- Who runs some jobs to their end knows how they ended where nothing crashes. -/
theorem completeAll_knows (hsound : s.Sound engine.compiler)
    (hcalm : ∀ base pattern, engine.compiler.crashes base pattern = false) {ids : List Nat}
    (hids : ∀ id ∈ ids, id < s.jobs.length) : (completeAll engine ids s).knows ids := by
  induction ids generalizing s with
  | nil => rfl
  | cons first ids ih =>
      obtain ⟨hfirst, hrest⟩ := List.forall_mem_cons.mp hids
      have hknown := complete_known hsound hcalm hfirst
      have hwaits : Waits engine s (s.complete engine first) := complete_waits first
      have hplaces : ∀ id ∈ ids, id < (s.complete engine first).jobs.length := fun id hid =>
        hwaits.onward.place_lt (hrest id hid)
      have hafter : Waits engine (s.complete engine first) _ := completeAll_waits ids
      rw [completeAll, if_pos hknown, knows, List.all_cons, Bool.and_eq_true]
      exact ⟨hafter.onward.isSome hknown, ih (hwaits.sound hsound) hplaces⟩

/-! ## Main result -/

/-- A wait for jobs that exist, while the worker works, either ends with all their outcomes known,
or it had a deadline, the clock has come to it and some outcome is still unknown. -/
theorem waitFor_spec (engine : Engine) {ids : List Nat} (hids : ∀ id ∈ ids, id < s.jobs.length)
    (deadline : Option Nat) :
    ((s.waitFor engine (some ids) deadline).1 = true →
        (s.waitFor engine (some ids) deadline).2.knows ids) ∧
      ((s.waitFor engine (some ids) deadline).1 = false →
        ¬ (s.waitFor engine (some ids) deadline).2.knows ids ∧
          ∃ time, deadline = some time ∧
            (s.waitFor engine (some ids) deadline).2.now = max s.now time) := by
  have hlength : ∀ id ∈ ids, id < (s.seeAll ids).jobs.length := fun id hid =>
    (seeAll_waits ids : Waits engine s _).onward.place_lt (hids id hid)
  have hnow := s.seeAll_now ids
  unfold waitFor
  dsimp only [Option.getD_some, Option.any_some]
  generalize s.seeAll ids = s' at hlength hnow ⊢
  split
  next hknown => exact ⟨fun _ => hknown, by simp⟩
  next hopen =>
    split
    next hpassed =>
      refine ⟨by simp, fun _ => ⟨hopen, ?_⟩⟩
      obtain ⟨time, rfl, htime⟩ : ∃ time, deadline = some time ∧ time ≤ s'.now := by
        cases deadline <;> simp_all
      exact ⟨time, rfl, by show s'.now = _; omega⟩
    next hahead =>
      have hwaits : Waits engine s' _ := startQueued_waits (some ids) (s'.jobs.length + 1)
      have hclock := s'.startQueued_now engine (some ids) (s'.jobs.length + 1)
      obtain ⟨hdone, hstarted⟩ := startQueued_spec engine (some ids) (s'.before_lt_fuel 1)
      generalize startQueued engine (some ids) (s'.jobs.length + 1) s' = started
        at hwaits hclock hdone hstarted ⊢
      obtain ⟨done, u⟩ := started
      have hplaces : ∀ id ∈ ids, id < u.jobs.length := fun id hid =>
        hwaits.onward.place_lt (hlength id hid)
      cases done with
      | true => exact ⟨fun _ => hdone rfl, by simp⟩
      | false =>
          obtain ⟨hknown, -⟩ := passTime_spec engine (some ids) deadline (u.before_lt_fuel 2)
          refine ⟨hknown, fun hlate => ?_⟩
          have hend := passTime_started hplaces (hstarted rfl) deadline hlate
          rwa [hclock, hnow] at hend

theorem wait_of_eager (hdrive : engine.drive = .eager) (goal : Option (List Nat))
    (deadline : Option Nat) : s.wait engine goal deadline = s.waitFor engine goal deadline := by
  simp only [wait, hdrive]

/-- Who works without a deadline for jobs that exist knows their outcomes in the end where nothing
crashes. -/
theorem workFor_spec (hsound : s.Sound engine.compiler)
    (hcalm : ∀ base pattern, engine.compiler.crashes base pattern = false) {ids : List Nat}
    (hids : ∀ id ∈ ids, id < s.jobs.length) :
    (s.workFor engine (some ids) none).1 = true ∧
      (s.workFor engine (some ids) none).2.knows ids := by
  have hknown := completeAll_knows hsound hcalm hids
  unfold workFor
  dsimp only [Option.getD_some, Option.any_some]
  split
  next hbefore => exact ⟨rfl, hbefore⟩
  next => exact ⟨hknown, hknown⟩

/-- A wait that is told either ends with all outcomes known, or it had a deadline, the clock has
come to it and some outcome is still unknown. -/
theorem wait_spec (hsound : s.Sound engine.compiler) {ids : List Nat}
    (hids : ∀ id ∈ ids, id < s.jobs.length) {deadline : Option Nat}
    (hdelivers : engine.Delivers deadline) :
    ((s.wait engine (some ids) deadline).1 = true →
        (s.wait engine (some ids) deadline).2.knows ids) ∧
      ((s.wait engine (some ids) deadline).1 = false →
        ¬ (s.wait engine (some ids) deadline).2.knows ids ∧
          ∃ time, deadline = some time ∧
            (s.wait engine (some ids) deadline).2.now = max s.now time) := by
  unfold wait
  split
  next => exact waitFor_spec engine hids deadline
  next hdrive =>
    rcases hdelivers with heager | ⟨rfl, hcalm⟩
    · rw [hdrive] at heager
      cases heager
    · obtain ⟨hdone, hknown⟩ := workFor_spec hsound hcalm hids
      exact ⟨fun _ => hknown, fun hlate => absurd hdone (by simp [hlate])⟩

end

end RouteAudit.Cache.Session
