import RouteAudit.Proofs.Analysis.Passes
import RouteAudit.Proofs.Cache.Counters

/-! # Lookups that give up

Who waits for a pattern only so long and gives up leaves everything as if somebody else had waited:
the job goes on in its place, the clock has come to the limit and not beyond, and all that happened
meanwhile is what the worker does on its own.
-/

namespace RouteAudit.Cache

namespace Session

section

variable {engine : Engine} {s t : Session} {base pattern : String} {ids : List Nat} {id time : Nat}

/-! ## Who sleeps on at the deadline -/

/-- No job wakes before the one that wakes next. -/
theorem nextOf?_le {first wake later : Nat} {job : Job} {jobs : List Job}
    (hnext : nextOf? first jobs = some (wake, id)) (hjob : job ∈ jobs)
    (hasleep : job.phase = .asleep later) : wake ≤ later := by
  induction jobs generalizing first wake id with
  | nil => cases hjob
  | cons head jobs ih =>
      unfold nextOf? at hnext
      split at hnext
      next here time other hphase hrest =>
        have hfirst : wake ≤ here ∧ wake ≤ time := by
          split_ifs at hnext with hle
          · obtain ⟨rfl, -⟩ := Prod.mk.inj (Option.some.inj hnext)
            exact ⟨le_refl _, hle⟩
          · obtain ⟨rfl, -⟩ := Prod.mk.inj (Option.some.inj hnext)
            exact ⟨by omega, le_refl _⟩
        rcases List.mem_cons.mp hjob with rfl | hjob
        · obtain rfl := Phase.asleep.inj (hphase.symm.trans hasleep)
          exact hfirst.1
        · exact hfirst.2.trans (ih hrest hjob)
      next here hphase hrest =>
        obtain ⟨rfl, -⟩ := Prod.mk.inj (Option.some.inj hnext)
        rcases List.mem_cons.mp hjob with rfl | hjob
        · obtain rfl := Phase.asleep.inj (hphase.symm.trans hasleep)
          exact le_refl _
        · exact absurd hasleep (nextOf?_eq_none hrest job hjob later)
      next hnot hother =>
        rcases List.mem_cons.mp hjob with rfl | hjob
        · -- A head that is asleep is in one of the cases above.
          cases hrest : nextOf? (first + 1) jobs with
          | none => exact absurd hrest (hother later hasleep)
          | some next => exact absurd hrest (hnot later next.1 next.2 hasleep)
        · exact ih hnext hjob

/-- Each job that is asleep sleeps at least until some time. -/
def SleepsUntil (s : Session) (time : Nat) : Prop :=
  ∀ job ∈ s.jobs, ∀ wake, job.phase = .asleep wake → time ≤ wake

theorem passTime_late {fuel : Nat} (hfuel : s.before 2 < fuel)
    (hlate : (passTime engine (some ids) (some time) fuel s).1 = false) :
    (passTime engine (some ids) (some time) fuel s).2.Looked ids ∧
      (passTime engine (some ids) (some time) fuel s).2.SleepsUntil time := by
  induction fuel generalizing s with
  | zero => omega
  | succ fuel ih =>
      have hless : (s.seeAll ids).before 2 ≤ s.before 2 :=
        (seeAll_waits _ : Waits engine _ _).before_le 2
      have hlooked := s.looked_seeAll ids
      unfold passTime at hlate ⊢
      dsimp only [Option.getD_some, Option.any_some] at hlate ⊢
      generalize s.seeAll ids = looked at hless hlooked hlate ⊢
      split at hlate
      next => cases hlate
      next hopen =>
        rw [if_neg hopen]
        cases hnext : looked.next? with
        | none =>
            exact ⟨hlooked, fun job hjob wake hasleep =>
              absurd hasleep (nextOf?_eq_none hnext job hjob wake)⟩
        | some next =>
            obtain ⟨wake, id⟩ := next
            simp only [hnext] at hlate ⊢
            split at hlate
            next hsoon =>
              rw [if_pos hsoon]
              exact ⟨hlooked, fun job hjob later hasleep =>
                hsoon.trans (nextOf?_le hnext hjob hasleep)⟩
            next hearly =>
              rw [if_neg hearly]
              have hend := before_finish_lt engine hnext (max looked.now wake)
              exact ih (by omega) hlate

/-- A wait that comes to its deadline has seen all crashes that it waits for, and if it had time
everything is started and what is asleep sleeps on. -/
theorem waitFor_late (hids : ∀ id ∈ ids, id < s.jobs.length)
    (hlate : (s.waitFor engine (some ids) (some time)).1 = false) :
    (s.waitFor engine (some ids) (some time)).2.Looked ids ∧
      (s.now < time → (s.waitFor engine (some ids) (some time)).2.before 1 = 0 ∧
        (s.waitFor engine (some ids) (some time)).2.SleepsUntil time) := by
  have hlooked := s.looked_seeAll ids
  have hlength : ∀ id ∈ ids, id < (s.seeAll ids).jobs.length := fun id hid =>
    (seeAll_waits ids : Waits engine s _).onward.place_lt (hids id hid)
  have hnow := s.seeAll_now ids
  unfold waitFor at hlate ⊢
  dsimp only [Option.getD_some, Option.any_some] at hlate ⊢
  rw [hnow] at hlate ⊢
  generalize s.seeAll ids = looked at hlooked hlength hlate ⊢
  split at hlate
  next => cases hlate
  next hopen =>
    rw [if_neg hopen]
    split at hlate
    next hpassed =>
      rw [if_pos hpassed]
      exact ⟨hlooked, fun hahead => absurd hahead (Nat.not_lt.mpr (of_decide_eq_true hpassed))⟩
    next hahead =>
      rw [if_neg hahead]
      obtain ⟨-, hstarted⟩ := startQueued_spec engine (some ids) (looked.before_lt_fuel 1)
      generalize startQueued engine (some ids) (looked.jobs.length + 1) looked = started
        at hstarted hlate ⊢
      obtain ⟨done, u⟩ := started
      cases done with
      | true => cases hlate
      | false =>
          obtain ⟨hseen, hsleeps⟩ := passTime_late (u.before_lt_fuel 2) hlate
          have hwaits : Waits engine u _ :=
            passTime_waits (some ids) (some time) (u.jobs.length + 1)
          have hnone := hwaits.before_le 1
          rw [hstarted rfl] at hnone
          exact ⟨hseen, fun _ => ⟨Nat.le_zero.mp hnone, hsleeps⟩⟩

/-! ## What happens to other jobs -/

/-- All jobs but one are those that were there before, and what is known of them is what was known
before, or what the compiler says of their own pairs and was not known before. -/
def SettlesOthers (compiler : Compiler) (s t : Session) (id : Nat) : Prop :=
  ∀ place ≠ id, t.jobs[place]?.map Job.origin = s.jobs[place]?.map Job.origin ∧
    (t.outcome? place = s.outcome? place ∨
      s.outcome? place = none ∧
        t.outcome? place = (s.pair? place).map fun pair => compiler.outcome pair.1 pair.2)

theorem Waits.settlesOthers (hst : Waits engine s t) (hsound : s.Sound engine.compiler) (id : Nat) :
    SettlesOthers engine.compiler s t id := by
  intro place _
  have horigins := hst.origins_eq.1
  refine ⟨?_, ?_⟩
  · rw [← List.getElem?_map, ← List.getElem?_map]
    exact congrArg (·[place]?) horigins
  · cases hafter : t.outcome? place with
    | none =>
        refine .inl (Eq.symm ?_)
        by_contra hknown
        obtain ⟨outcome, houtcome⟩ := Option.ne_none_iff_exists'.mp hknown
        rw [hst.onward.outcome? houtcome] at hafter
        cases hafter
    | some outcome =>
        cases hbefore : s.outcome? place with
        | some earlier => exact .inl (hafter.symm.trans (hst.onward.outcome? hbefore))
        | none =>
            obtain ⟨pair, hpair⟩ : ∃ pair, t.pair? place = some pair := by
              unfold outcome? at hafter
              split at hafter
              next hjob => exact ⟨_, by rw [pair?, hjob]; rfl⟩
              next => cases hafter
            have hown := (hst.sound hsound).outcome? hpair hafter
            refine .inr ⟨rfl, ?_⟩
            rw [← pair?_congr horigins, hpair, hown]
            rfl

theorem resolve_getElem? (base pattern : String) {place : Nat}
    (hplace : place ≠ (s.resolve base pattern).1.job) :
    (s.resolve base pattern).2.jobs[place]? = s.jobs[place]? := by
  rcases s.resolve_cases base pattern with ⟨-, hjobs⟩ | ⟨-, hnew, hjobs⟩
  · rw [hjobs]
  · rw [hjobs, List.getElem?_append]
    rw [hnew] at hplace
    split
    next => rfl
    next hout =>
      rw [List.getElem?_eq_none (Nat.not_lt.mp hout), List.getElem?_eq_none]
      simp only [List.length_singleton]
      omega

theorem SettlesOthers.of_resolve {compiler : Compiler} (base pattern : String)
    (h : SettlesOthers compiler (s.resolve base pattern).2 t (s.resolve base pattern).1.job) :
    SettlesOthers compiler s t (s.resolve base pattern).1.job := by
  intro place hplace
  have hsame := resolve_getElem? base pattern hplace
  have houtcome : (s.resolve base pattern).2.outcome? place = s.outcome? place := by
    rw [outcome?, outcome?, hsame]
  have hpair : (s.resolve base pattern).2.pair? place = s.pair? place := by
    rw [pair?, pair?, hsame]
  have hsettles := h place hplace
  rwa [hsame, houtcome, hpair] at hsettles

/-! ## The job that is given up -/

/-- The one job of a slot is under way. -/
structure UnderWay (s : Session) (slot : Slot) (id : Nat) (job : Job) : Prop where
  held : s.jobs[id]? = some job
  slot_eq : job.slot = slot
  alone : ∀ place other, s.jobs[place]? = some other → other.slot = slot → place = id
  running : job.isOver = false

theorem UnderWay.job_eq {slot : Slot} {job other : Job} (h : s.UnderWay slot id job)
    (hother : s.jobs[id]? = some other) : job = other :=
  Option.some.inj (h.held.symm.trans hother)

theorem slot?_eq_some_iff {slot : Slot} :
    s.slot? id = some slot ↔ ∃ job, s.jobs[id]? = some job ∧ job.slot = slot := by
  rw [slot?, Option.map_eq_some_iff]

theorem pair?_of_getElem? {job : Job} (hjob : s.jobs[id]? = some job) :
    s.pair? id = some (job.base, job.pattern) := by
  rw [pair?, hjob]
  rfl

theorem resolve_place (base pattern : String) :
    ∀ id ∈ [(s.resolve base pattern).1.job], id < (s.resolve base pattern).2.jobs.length := by
  intro id hid
  obtain rfl := List.mem_singleton.mp hid
  obtain ⟨job, hjob, -⟩ := slot?_eq_some_iff.mp (s.resolve_slot? base pattern)
  exact (List.getElem?_eq_some_iff.mp hjob).1

theorem resolveWithin_waits (engine : Engine) (s : Session) (base pattern : String)
    (limitMs : Nat) :
    Waits engine (s.resolve base pattern).2 (s.resolveWithin engine base pattern limitMs).2 :=
  wait_waits (some [(s.resolve base pattern).1.job])
    (some ((s.resolve base pattern).2.now + limitMs))

/-- A lookup that gives up has waited in vain for the job that it found or started. -/
theorem waitFor_of_resolveWithin (hdrive : engine.drive = .eager) {limitMs : Nat}
    (hnone : (s.resolveWithin engine base pattern limitMs).1 = none) :
    let looked := s.resolve base pattern
    let waited := looked.2.waitFor engine (some [looked.1.job]) (some (looked.2.now + limitMs))
    waited.1 = false ∧ (s.resolveWithin engine base pattern limitMs).2 = waited.2 := by
  intro looked waited
  have hwithin : s.resolveWithin engine base pattern limitMs =
      (if waited.1 then waited.2.outcome? looked.1.job else none, waited.2) := by
    rw [resolveWithin]
    dsimp only
    rw [wait_of_eager hdrive]
  obtain ⟨hdone, -⟩ :=
    waitFor_spec engine (resolve_place base pattern) (some (looked.2.now + limitMs))
  rw [hwithin] at hnone ⊢
  refine ⟨?_, rfl⟩
  by_contra hended
  rw [Bool.not_eq_false] at hended
  have hknown : (waited.2.outcome? looked.1.job).isSome := by simpa [knows] using hdone hended
  simp only [hended, if_true] at hnone
  rw [hnone] at hknown
  cases hknown

/-- The job of a lookup that gives up has not ended. If there was time at all it is asleep, and
wakes at the deadline or later. -/
theorem running_of_resolveWithin (hdrive : engine.drive = .eager) {limitMs : Nat}
    (hnone : (s.resolveWithin engine base pattern limitMs).1 = none) :
    let t := (s.resolveWithin engine base pattern limitMs).2
    t.now = s.now + limitMs ∧
      ∃ job, t.jobs[(s.resolve base pattern).1.job]? = some job ∧
        job.slot = ⟨s.generation, cacheKey base pattern⟩ ∧ job.isOver = false ∧
        (0 < limitMs → ∃ wake, job.phase = .asleep wake ∧ s.now + limitMs ≤ wake) := by
  obtain ⟨hlate, hwaited⟩ := waitFor_of_resolveWithin hdrive hnone
  dsimp only
  rw [hwaited]
  obtain ⟨first, hfirst, hslot⟩ := slot?_eq_some_iff.mp (s.resolve_slot? base pattern)
  have hplace := s.resolve_place base pattern
  have hwaits : Waits engine (s.resolve base pattern).2 _ :=
    waitFor_waits (some [(s.resolve base pattern).1.job])
      (some ((s.resolve base pattern).2.now + limitMs))
  obtain ⟨hunknown, time, htime, hclock⟩ := (waitFor_spec engine hplace _).2 hlate
  obtain ⟨hseen, hslept⟩ := waitFor_late hplace hlate
  obtain rfl := Option.some.inj htime
  have hnow := s.resolve_now base pattern
  generalize (s.resolve base pattern).2.waitFor engine (some [(s.resolve base pattern).1.job])
    (some ((s.resolve base pattern).2.now + limitMs)) = waited
    at hwaits hunknown hclock hseen hslept ⊢
  obtain ⟨job, hjob, honward⟩ := hwaits.onward _ first hfirst
  have hcrash := hseen _ List.mem_cons_self job hjob
  have hsettled (outcome : Outcome) : job.phase ≠ .settled outcome := by
    intro hphase
    obtain ⟨generation, base, pattern, phase⟩ := job
    obtain rfl : phase = .settled outcome := hphase
    exact hunknown (by simp [knows, outcome?, hjob])
  refine ⟨by omega, job, hjob, (Job.slot_eq honward.origin).trans hslot, ?_, fun hpos => ?_⟩
  · unfold Job.isOver
    cases hphase : job.phase with
    | queued | asleep => rfl
    | crashed => simp [hphase, Phase.isCrashed] at hcrash
    | settled outcome => exact absurd hphase (hsettled outcome)
  · obtain ⟨hstarted, hsleeps⟩ := hslept (by omega)
    have hmem := List.mem_of_getElem? hjob
    cases hphase : job.phase with
    | queued =>
        rw [before, List.countP_eq_zero] at hstarted
        exact absurd (hstarted job hmem) (by simp [hphase, Phase.stage])
    | asleep wake => exact ⟨wake, rfl, hnow ▸ hsleeps job hmem wake hphase⟩
    | crashed => simp [hphase, Phase.isCrashed] at hcrash
    | settled outcome => exact absurd hphase (hsettled outcome)

/-- The outcome of a pattern that is known is told at once. -/
theorem resolveWithin_of_known {outcome : Outcome} (engine : Engine) (limitMs : Nat)
    (hfate : s.fate? base pattern = some outcome) :
    s.resolveWithin engine base pattern limitMs =
      (some outcome, s.setCounters (s.cache.counters.count .sync)) := by
  obtain ⟨id, houtcome, hresolve⟩ := resolve_of_known hfate
  have hknown : (s.setCounters (s.cache.counters.count .sync)).outcome? id = some outcome :=
    houtcome
  rw [resolveWithin, hresolve]
  dsimp only
  rw [wait_of_known engine _ hknown, if_pos rfl, hknown]

theorem outcome?_of_running {job : Job} (hjob : s.jobs[id]? = some job)
    (hrunning : job.isOver = false) : s.outcome? id = none := by
  obtain ⟨generation, base, pattern, phase⟩ := job
  rw [outcome?, hjob]
  cases phase with
  | queued | asleep | crashed => rfl
  | settled => cases hrunning

/-- Who asks for a pattern whose job is known is told about that job, if anything. -/
theorem told_of_find? (hsound : s.Sound engine.compiler) (hdelivers : engine.Delivers none)
    (hfind : s.find? (cacheKey base pattern) = some id) {pair : String × String}
    (hpair : s.pair? id = some pair) :
    (s.resolveOutcome engine base pattern).1 =
        some (engine.compiler.outcome pair.1 pair.2) ∧
      ∀ limitMs outcome, (s.resolveWithin engine base pattern limitMs).1 = some outcome →
        outcome = engine.compiler.outcome pair.1 pair.2 := by
  obtain ⟨hid, -, -⟩ := resolve_of_find? hfind
  have hlooked := (onward_resolve base pattern).pair? hpair
  refine ⟨?_, fun limitMs outcome htold => ?_⟩
  · rw [resolveOutcome]
    dsimp only
    rw [hid]
    exact await_spec (hsound.resolve base pattern) hdelivers hlooked
  · have hknown := outcome?_of_resolveWithin htold
    rw [hid] at hknown
    have hwaits := resolveWithin_waits engine s base pattern limitMs
    exact (hwaits.sound (hsound.resolve base pattern)).outcome?
      (hwaits.onward.pair? hlooked) hknown

/-- What a lookup that gave up left behind. -/
structure SoftMiss (engine : Engine) (s t : Session) (base pattern : String) (limitMs : Nat)
    (job : Job) : Prop where
  clock : t.now = s.now + limitMs
  underWay : t.UnderWay ⟨s.generation, cacheKey base pattern⟩ (s.resolve base pattern).1.job job
  /-- The job sleeps on at the limit, unless there was no time in which to start it. -/
  sleeps : 0 < limitMs → ∃ wake, job.phase = .asleep wake ∧ s.now + limitMs ≤ wake
  same : ∀ id, s.find? (cacheKey base pattern) = some id → id = (s.resolve base pattern).1.job
  finds : ∀ key, t.find? key =
    if key = cacheKey base pattern then some (s.resolve base pattern).1.job else s.find? key
  /-- The lookup counts as any lookup, and then the errors count that others came to. -/
  counts : (s.resolve base pattern).1.mode ≠ .sync ∧
    ∃ n, t.failed engine = s.failed engine + n ∧
      t.cache.counters = (s.resolve base pattern).2.cache.counters.addErrors n
  others : SettlesOthers engine.compiler s t (s.resolve base pattern).1.job

theorem softMiss_of_none (hdrive : engine.drive = .eager) {trace : List Sight} {limitMs : Nat}
    (hsound : s.Sound engine.compiler)
    (hledger : Ledger trace (s.resolveWithin engine base pattern limitMs).2)
    (hnone : (s.resolveWithin engine base pattern limitMs).1 = none) :
    ∃ job, SoftMiss engine s (s.resolveWithin engine base pattern limitMs).2 base pattern limitMs
      job := by
  have hwaits := resolveWithin_waits engine s base pattern limitMs
  obtain ⟨hclock, job, hjob, hslot, hrunning, hsleeps⟩ := running_of_resolveWithin hdrive hnone
  generalize (s.resolveWithin engine base pattern limitMs).2 = t
    at hledger hwaits hclock hjob hsleeps ⊢
  obtain ⟨horigins, hgeneration⟩ := hwaits.origins_eq
  refine ⟨job, hclock, ⟨hjob, hslot, ?_, hrunning⟩, hsleeps, ?_, ?_, ⟨?_, ?_⟩, ?_⟩
  · intro place other hother hsame
    exact hledger.place_unique hother hjob (hsame.trans hslot.symm)
  · intro id hfind
    exact (resolve_of_find? hfind).1.symm
  · intro key
    rw [find?_congr horigins hgeneration, find?_resolve]
  · intro hsync
    have hknown := (onward_resolve base pattern).isSome (s.known_of_sync base pattern hsync)
    have hlast := hwaits.onward.isSome hknown
    rw [outcome?_of_running hjob hrunning] at hlast
    cases hlast
  · obtain ⟨n, hfailed, hcounters⟩ := hwaits.counts
    rw [resolve_failed] at hfailed
    exact ⟨n, hfailed, hcounters⟩
  · exact (hwaits.settlesOthers (hsound.resolve base pattern) _).of_resolve base pattern

end

end Session

/-! ## Main result -/

/-- From any session that callers of a new cache can have come to, a lookup that waits only so long
is told at once what is known of its pattern. If it gives up while a worker works, the clock has
come to the limit and the one job of the key has not ended; the lookup counts as any other and all
that happened meanwhile is what the worker did on other jobs, each of which is as it was or has come
to its own outcome. Whatever follows, the job was called at most once, and whoever waits for it, or
asks for the pattern again, is told its outcome or nothing yet. -/
theorem timeout_leaves_job_running (engine : Engine) (new : Session) (fresh : new.jobs = [])
    (before : List Move) (base pattern : String) (limitMs : Nat) :
    let s := (new.moves engine before).2
    let found := s.resolveWithin engine base pattern limitMs
    let slot : Slot := ⟨s.generation, cacheKey base pattern⟩
    let id := (s.resolve base pattern).1.job
    (∀ outcome, s.fate? base pattern = some outcome →
        found = (some outcome, s.setCounters (s.cache.counters.count .sync))) ∧
      (engine.drive = .eager → found.1 = none → ∃ job meanwhile,
        s.SoftMiss engine found.2 base pattern limitMs job ∧
          (∀ m ∈ meanwhile, m.IsQuiet) ∧
          found.2 = (new.moves engine (before ++ .lookup base pattern :: meanwhile)).2 ∧
          ∀ after,
            let u := (found.2.moves engine after).2
            let own := engine.compiler.outcome job.base job.pattern
            callsOf slot
                (new.moves engine (before ++ .lookup base pattern :: meanwhile ++ after)).1 ≤ 1 ∧
              (u.await engine id).1 = some own ∧
              (.renew ∉ after → u.find? slot.key = some id ∧
                (u.resolveOutcome engine base pattern).1 = some own ∧
                ∀ moreMs outcome, (u.resolveWithin engine base pattern moreMs).1 = some outcome →
                  outcome = own)) := by
  intro s found slot id
  refine ⟨fun outcome hfate => Session.resolveWithin_of_known engine limitMs hfate,
    fun hdrive hnone => ?_⟩
  obtain ⟨meanwhile, hquiet, hmoves⟩ := s.resolveWithin_waits engine base pattern limitMs
  have hreached : found.2 = (new.moves engine (before ++ .lookup base pattern :: meanwhile)).2 := by
    rw [Session.moves_append]
    exact hmoves.symm
  have hnew : new.Sound engine.compiler := .of_no_jobs fresh
  have hsound : found.2.Sound engine.compiler := by
    rw [hreached]
    exact hnew.moves _
  obtain ⟨trace, hledger⟩ : ∃ trace, Ledger trace found.2 := by
    rw [hreached]
    exact ⟨_, (Ledger.of_no_jobs fresh).moves _⟩
  obtain ⟨job, hmiss⟩ := Session.softMiss_of_none hdrive (hnew.moves before) hledger hnone
  have hpair := Session.pair?_of_getElem? hmiss.underWay.held
  have hfind : found.2.find? slot.key = some id := (hmiss.finds slot.key).trans (if_pos rfl)
  refine ⟨job, meanwhile, hmiss, hquiet, hreached, fun after => ⟨?_, ?_, fun hafter => ?_⟩⟩
  · exact (((Ledger.of_no_jobs fresh).moves _).writtenOnce slot).compiled_once
  · exact Session.await_spec (hsound.moves after) (.inl hdrive)
      ((Session.onward_moves after).pair? hpair)
  · have hlater : (found.2.moves engine after).2.find? slot.key = some id :=
      Session.moves_find? hafter hfind
    obtain ⟨htold, hwithin⟩ := Session.told_of_find? (hsound.moves after) (.inl hdrive) hlater
      ((Session.onward_moves after).pair? hpair)
    exact ⟨hlater, htold, hwithin⟩

/-- A compiler that takes long for one pattern and soon fails on every other. -/
def stalling : Engine := { compiler := {
  delayMs := fun _ pattern => if pattern = "/slow" then 10000 else 20
  ending := fun base pattern =>
    .result (if pattern = "/slow" then .ok (.sentinel pattern base)
      else .error (@CompileError.invalidRegex none)) } }

/-- While a lookup waits in vain another compilation fails. The one that it gave up goes on and is
what the next lookup is told, and the failed one is told without waiting. -/
theorem slow_compile_outlives_timeout :
    let s := (({} : Session).moves stalling [.lookup "" "/bad", .start 0]).2
    let found := s.resolveWithin stalling "" "/slow" 50
    let after : List Move := [.pass 9000, .lookup "" "/slow"]
    let failed := (({} : Session).moves stalling
      [.lookup "" "/bad", .start 0, .pass 20, .wake 0]).2
    ({} : Session).jobs = [] ∧ stalling.drive = .eager ∧ found.1 = none ∧ found.2.now = 50 ∧
      found.2.cache.counters = { misses := 2, errors := 1 } ∧ .renew ∉ after ∧
      ((found.2.moves stalling after).2.resolveOutcome stalling "" "/slow").1 =
        some (.compiled ⟨"/slow", "", .sentinel "/slow" ""⟩) ∧
      failed.fate? "" "/bad" = some (.failed (@CompileError.invalidRegex none)) ∧
      failed.resolveWithin stalling "" "/bad" 50 =
        (some (.failed (@CompileError.invalidRegex none)),
          failed.setCounters (failed.cache.counters.count .sync)) := by
  intro s found after failed
  have hnone : found.1 = none := by decide
  have hafter : .renew ∉ after := by decide
  have hfate : failed.fate? "" "/bad" = some (.failed (@CompileError.invalidRegex none)) := by
    decide
  obtain ⟨-, hmiss⟩ :=
    timeout_leaves_job_running stalling {} rfl [.lookup "" "/bad", .start 0] "" "/slow" 50
  obtain ⟨hknown, -⟩ := timeout_leaves_job_running stalling {} rfl
    [.lookup "" "/bad", .start 0, .pass 20, .wake 0] "" "/bad" 50
  obtain ⟨job, _, hjob, -, -, hlater⟩ := hmiss rfl hnone
  obtain ⟨-, -, hrest⟩ := hlater after
  obtain rfl : job = ⟨0, "", "/slow", .asleep 10000⟩ := hjob.underWay.job_eq (by decide)
  have hclock : found.2.now = 50 := by decide
  have hcounters : found.2.cache.counters = { misses := 2, errors := 1 } := by decide
  have hown : stalling.compiler.outcome "" "/slow" =
      .compiled ⟨"/slow", "", .sentinel "/slow" ""⟩ := by decide
  have htold := (hrest hafter).2.1.trans (congrArg some hown)
  exact ⟨rfl, rfl, hnone, hclock, hcounters, hafter, htold, hfate, hknown _ hfate⟩

end RouteAudit.Cache
