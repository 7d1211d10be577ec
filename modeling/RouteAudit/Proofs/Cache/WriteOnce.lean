import RouteAudit.Proofs.Cache.Scripts

/-! # Every slot is written once

A slot starts absent, holds a job from its first lookup on, and that job ends once. The
trace of any interleaving shows it: the invariant (`Ledger`) says for every job what
the trace may hold of its slot while the job is in its phase, and for every slot
without a job that the trace says nothing of it.

A job settles by either of two moves, when the worker ends it or, after a crash, when
somebody who waits looks at it. Both leave a settled phase that no move changes again.
-/

namespace RouteAudit.Cache

namespace Sight

/-- The slot that a sight is about. -/
def slot : Sight → Slot
  | answered slot _ | called slot | told slot _ => slot

/-- How a lookup of a slot was answered. -/
def mode? (about : Slot) : Sight → Option LookupMode
  | answered slot mode => if slot = about then some mode else none
  | _ => none

/-- What a caller was told of a slot. -/
def outcome? (about : Slot) : Sight → Option Outcome
  | told slot outcome => if slot = about then some outcome else none
  | _ => none

end Sight

/-- The answers to the lookups of a slot, in order. -/
def modesOf (slot : Slot) (trace : List Sight) : List LookupMode :=
  trace.filterMap (Sight.mode? slot)

/-- How often the compiler was called for a slot. -/
def callsOf (slot : Slot) (trace : List Sight) : Nat := trace.count (.called slot)

/-- The outcomes that callers were told of a slot, in order. -/
def outcomesOf (slot : Slot) (trace : List Sight) : List Outcome :=
  trace.filterMap (Sight.outcome? slot)

/-- A slot is compiled at most once, its first lookup and no later one misses, whoever is
told its outcome is told the same, and from a synchronous answer on all are. -/
structure WrittenOnce (slot : Slot) (trace : List Sight) : Prop where
  compiled_once : callsOf slot trace ≤ 1
  first_misses : modesOf slot trace = [] ∨
    ∃ later, modesOf slot trace = .miss :: later ∧ .miss ∉ later
  one_outcome : ∀ first ∈ outcomesOf slot trace, ∀ second ∈ outcomesOf slot trace, first = second
  stays_sync : (modesOf slot trace).Pairwise fun earlier later => earlier = .sync → later = .sync

section

variable {slot : Slot} {trace seen : List Sight}

@[simp] theorem modesOf_append : modesOf slot (trace ++ seen) =
    modesOf slot trace ++ modesOf slot seen := List.filterMap_append ..

@[simp] theorem callsOf_append : callsOf slot (trace ++ seen) =
    callsOf slot trace + callsOf slot seen := List.count_append ..

@[simp] theorem outcomesOf_append : outcomesOf slot (trace ++ seen) =
    outcomesOf slot trace ++ outcomesOf slot seen := List.filterMap_append ..

@[simp] theorem of_answered (mode : LookupMode) : modesOf slot [.answered slot mode] = [mode] ∧
    callsOf slot [.answered slot mode] = 0 ∧ outcomesOf slot [.answered slot mode] = [] := by
  simp [modesOf, callsOf, outcomesOf, Sight.mode?, Sight.outcome?, List.filterMap_cons]

@[simp] theorem of_called : modesOf slot [.called slot] = [] ∧
    callsOf slot [.called slot] = 1 ∧ outcomesOf slot [.called slot] = [] := by
  simp [modesOf, callsOf, outcomesOf, Sight.mode?, Sight.outcome?, List.filterMap_cons]

@[simp] theorem of_told (outcome : Outcome) : modesOf slot [.told slot outcome] = [] ∧
    callsOf slot [.told slot outcome] = 0 ∧ outcomesOf slot [.told slot outcome] = [outcome] := by
  simp [modesOf, callsOf, outcomesOf, Sight.mode?, Sight.outcome?, List.filterMap_cons]

/-- Sights of other slots say nothing of a slot. -/
theorem nothing_of_others (hseen : ∀ sight ∈ seen, sight.slot ≠ slot) :
    modesOf slot seen = [] ∧ callsOf slot seen = 0 ∧ outcomesOf slot seen = [] := by
  refine ⟨List.filterMap_eq_nil_iff.mpr ?_, List.count_eq_zero.mpr ?_,
    List.filterMap_eq_nil_iff.mpr ?_⟩
  · intro sight hsight
    have := hseen sight hsight
    cases sight <;> simp_all [Sight.mode?, Sight.slot]
  · intro hcalled
    exact hseen _ hcalled rfl
  · intro sight hsight
    have := hseen sight hsight
    cases sight <;> simp_all [Sight.outcome?, Sight.slot]

/-- What a trace may say of a slot whose job is in a phase. -/
structure Standing (slot : Slot) (trace : List Sight) (phase : Phase) : Prop where
  modes : ∃ later, modesOf slot trace = .miss :: later ∧ .miss ∉ later
  calls : callsOf slot trace = if phase = .queued then 0 else 1
  outcomes : ∀ outcome ∈ outcomesOf slot trace, phase = .settled outcome
  sync : .sync ∈ modesOf slot trace → ∃ outcome, phase = .settled outcome
  stays : (modesOf slot trace).Pairwise fun earlier later => earlier = .sync → later = .sync

namespace Standing

variable {phase next : Phase} {outcome : Outcome}

theorem writtenOnce (h : Standing slot trace phase) : WrittenOnce slot trace where
  compiled_once := by
    rw [h.calls]
    split <;> omega
  first_misses := .inr h.modes
  one_outcome first hfirst second hsecond := by
    have := (h.outcomes first hfirst).symm.trans (h.outcomes second hsecond)
    exact Phase.settled.inj this
  stays_sync := h.stays

/-- Sights of other slots change nothing. -/
theorem append_others (h : Standing slot trace phase)
    (hseen : ∀ sight ∈ seen, sight.slot ≠ slot) : Standing slot (trace ++ seen) phase := by
  obtain ⟨hmodes, hcalls, houtcomes⟩ := nothing_of_others hseen
  constructor
  · simpa [hmodes] using h.modes
  · simpa [hcalls] using h.calls
  · simpa [houtcomes] using h.outcomes
  · simpa [hmodes] using h.sync
  · simpa [hmodes] using h.stays

/-- A job that has not settled may go on to any phase but the first. -/
theorem progress (h : Standing slot trace phase) (hqueued : phase ≠ .queued)
    (hopen : ∀ outcome, phase ≠ .settled outcome) (hnext : next ≠ .queued) :
    Standing slot trace next where
  modes := h.modes
  calls := by simpa [hqueued, hnext] using h.calls
  outcomes outcome hmem := absurd (h.outcomes outcome hmem) (hopen outcome)
  sync hmem := by
    obtain ⟨outcome, hsettled⟩ := h.sync hmem
    exact absurd hsettled (hopen outcome)
  stays := h.stays

/-- The worker turns to a job that is queued. -/
theorem call (h : Standing slot trace .queued) (hnext : next ≠ .queued) :
    Standing slot (trace ++ [.called slot]) next where
  modes := by simpa using h.modes
  calls := by
    have hnone : callsOf slot trace = 0 := by simpa using h.calls
    simp [hnone, hnext]
  outcomes outcome hmem := by
    have := h.outcomes outcome (by simpa using hmem)
    cases this
  sync hmem := by
    obtain ⟨outcome, hsettled⟩ := h.sync (by simpa using hmem)
    cases hsettled
  stays := by simpa using h.stays

/-- Somebody is told the outcome of a job that has settled. -/
theorem tell (h : Standing slot trace (.settled outcome)) :
    Standing slot (trace ++ [.told slot outcome]) (.settled outcome) where
  modes := by simpa using h.modes
  calls := by simpa using h.calls
  outcomes other hmem := by
    have hcases : other ∈ outcomesOf slot trace ∨ other = outcome := by simpa using hmem
    rcases hcases with hmem | rfl
    · exact h.outcomes other hmem
    · rfl
  sync _ := ⟨outcome, rfl⟩
  stays := by simpa using h.stays

/-- A later lookup of the slot is answered by a mode that fits the phase of its job. -/
theorem answer (h : Standing slot trace phase) {mode : LookupMode} (hmiss : mode ≠ .miss)
    (hsync : mode = .sync ↔ ∃ outcome, phase = .settled outcome) :
    Standing slot (trace ++ [.answered slot mode]) phase where
  modes := by
    obtain ⟨later, hlater, hnone⟩ := h.modes
    exact ⟨later ++ [mode], by simp [hlater], by simp [hnone, Ne.symm hmiss]⟩
  calls := by simpa using h.calls
  outcomes outcome hmem := h.outcomes outcome (by simpa using hmem)
  sync hmem := by
    have hcases : .sync ∈ modesOf slot trace ∨ .sync = mode := by simpa using hmem
    rcases hcases with hmem | heq
    · exact h.sync hmem
    · exact hsync.mp heq.symm
  stays := by
    rw [modesOf_append, List.pairwise_append]
    refine ⟨h.stays, by simp, ?_⟩
    intro earlier hearlier later hlater heq
    obtain rfl : later = mode := by simpa using hlater
    exact hsync.mpr (h.sync (heq ▸ hearlier))

/-- The first lookup of a slot. -/
theorem first (hnone : ∀ sight ∈ trace, sight.slot ≠ slot) :
    Standing slot (trace ++ [.answered slot .miss]) .queued := by
  obtain ⟨hmodes, hcalls, houtcomes⟩ := nothing_of_others hnone
  constructor <;> simp [hmodes, hcalls, houtcomes]

end Standing

end

/-! ## What each move does to the standing of its job -/

namespace Job

variable {engine : Engine} {job : Job} {trace : List Sight}

theorem finished_phase_ne (engine : Engine) (job : Job) :
    (job.finished engine).phase ≠ .queued := by
  unfold finished
  split <;> simp

theorem standing_started (h : Standing job.slot trace job.phase) (now : Nat) :
    Standing job.slot (trace ++ job.call) (job.started engine now).phase := by
  by_cases hqueued : job.phase = .queued
  · rw [hqueued] at h
    rw [call, if_pos hqueued]
    apply h.call
    unfold started
    split_ifs
    · exact job.finished_phase_ne engine
    · simp
  · simpa [call, started, hqueued] using h

theorem standing_woken (h : Standing job.slot trace job.phase) (now : Nat) :
    Standing job.slot trace (job.woken engine now).phase := by
  unfold woken
  split
  next wake hasleep =>
    split_ifs
    · rw [hasleep] at h
      exact h.progress (by simp) (by simp) (job.finished_phase_ne engine)
    · exact h
  next => exact h

theorem standing_told (h : Standing job.slot trace job.phase) :
    Standing job.slot (trace ++ job.told) job.phase := by
  unfold told
  split
  next outcome hsettled =>
    rw [hsettled] at h ⊢
    exact h.tell
  next => simpa using h

theorem standing_seen (h : Standing job.slot trace job.phase) :
    Standing job.slot (trace ++ job.seen.told) job.seen.phase := by
  have hslot : job.seen.slot = job.slot := slot_eq job.seen_origin
  have hseen : Standing job.seen.slot trace job.seen.phase := by
    rw [hslot]
    unfold seen
    split
    next hcrashed =>
      rw [hcrashed] at h
      exact h.progress (by simp) (by simp) (by simp)
    next => exact h
  rw [← hslot]
  exact standing_told hseen

theorem call_slot {sight : Sight} (hsight : sight ∈ job.call) : sight.slot = job.slot := by
  unfold call at hsight
  split_ifs at hsight
  · obtain rfl := List.mem_singleton.mp hsight
    rfl
  · cases hsight

theorem told_slot {sight : Sight} (hsight : sight ∈ job.told) : sight.slot = job.slot := by
  unfold told at hsight
  split at hsight
  · obtain rfl := List.mem_singleton.mp hsight
    rfl
  · cases hsight

end Job

/-! ## The ledger -/

/-- What a trace and the session it leads to have in common: slots with a job stand as
the phase of the job says, and slots without one were never seen. -/
structure Ledger (trace : List Sight) (s : Session) : Prop where
  distinct : (s.jobs.map Job.slot).Nodup
  opened : ∀ job ∈ s.jobs, Standing job.slot trace job.phase
  unopened : ∀ slot, slot ∉ s.jobs.map Job.slot → ∀ sight ∈ trace, sight.slot ≠ slot

namespace Ledger

variable {engine : Engine} {s t : Session} {trace seen : List Sight}

theorem of_no_jobs (hnone : s.jobs = []) : Ledger [] s where
  distinct := by simp [hnone]
  opened := by simp [hnone]
  unopened := by simp

theorem writtenOnce (h : Ledger trace s) (slot : Slot) : WrittenOnce slot trace := by
  by_cases hslot : slot ∈ s.jobs.map Job.slot
  · obtain ⟨job, hjob, rfl⟩ := List.mem_map.mp hslot
    exact (h.opened job hjob).writtenOnce
  · obtain ⟨hmodes, hcalls, houtcomes⟩ := nothing_of_others (h.unopened slot hslot)
    constructor <;> simp [hmodes, hcalls, houtcomes]

/-- Two jobs of one slot stand at one place. -/
theorem place_unique (h : Ledger trace s) {i j : Nat} {job other : Job}
    (hi : s.jobs[i]? = some job) (hj : s.jobs[j]? = some other) (hslot : job.slot = other.slot) :
    i = j := by
  obtain ⟨hlt, -⟩ := List.getElem?_eq_some_iff.mp hi
  apply (List.getElem?_inj (by simpa using hlt) h.distinct).mp
  rw [List.getElem?_map, List.getElem?_map, hi, hj]
  exact congrArg some hslot

/-- Nothing was seen and no job has changed. -/
theorem same_jobs (h : Ledger trace s) (hjobs : t.jobs = s.jobs) : Ledger (trace ++ []) t := by
  rw [List.append_nil]
  exact ⟨hjobs ▸ h.distinct, hjobs ▸ h.opened, hjobs ▸ h.unopened⟩

/-- One job went on, and what was seen is about its slot. -/
theorem modify (h : Ledger trace s) {id : Nat} {f : Job → Job}
    (hjobs : t.jobs = s.jobs.modify id f) (horigin : ∀ job, (f job).origin = job.origin)
    (hnone : s.jobs[id]? = none → seen = [])
    (hseen : ∀ job, s.jobs[id]? = some job → ∀ sight ∈ seen, sight.slot = job.slot)
    (hstanding : ∀ job, s.jobs[id]? = some job → Standing job.slot trace job.phase →
      Standing job.slot (trace ++ seen) (f job).phase) :
    Ledger (trace ++ seen) t := by
  have hslot (job : Job) : (f job).slot = job.slot := Job.slot_eq (horigin job)
  have hslots : t.jobs.map Job.slot = s.jobs.map Job.slot := by
    rw [hjobs, map_modify hslot]
  refine ⟨hslots ▸ h.distinct, ?_, ?_⟩
  · intro job hjob
    obtain ⟨i, hi⟩ := List.mem_iff_getElem?.mp hjob
    rw [hjobs, List.getElem?_modify] at hi
    obtain ⟨old, hold, rfl⟩ := Option.map_eq_some_iff.mp hi
    have hbefore := h.opened old (List.mem_of_getElem? hold)
    by_cases hid : id = i
    · subst hid
      simpa [hslot] using hstanding old hold hbefore
    · simp only [hid, if_false]
      -- A sight of this slot would be one of the job that went on, which stands elsewhere.
      refine hbefore.append_others fun sight hsight heq => hid ?_
      cases hat : s.jobs[id]? with
      | none => simp [hnone hat] at hsight
      | some other =>
          exact h.place_unique hat hold ((hseen other hat sight hsight).symm.trans heq)
  · intro slot hnot sight hsight
    rw [hslots] at hnot
    rcases List.mem_append.mp hsight with hsight | hsight
    · exact h.unopened slot hnot sight hsight
    · cases hat : s.jobs[id]? with
      | none => simp [hnone hat] at hsight
      | some job =>
          rw [hseen job hat sight hsight]
          rintro rfl
          exact hnot (List.mem_map_of_mem (List.mem_of_getElem? hat))

/-- The first lookup of a slot starts its job. -/
theorem add (h : Ledger trace s) {job : Job} (hjobs : t.jobs = s.jobs ++ [job])
    (hqueued : job.phase = .queued) (hnew : job.slot ∉ s.jobs.map Job.slot) :
    Ledger (trace ++ [.answered job.slot .miss]) t := by
  have hslots : t.jobs.map Job.slot = s.jobs.map Job.slot ++ [job.slot] := by simp [hjobs]
  refine ⟨?_, ?_, ?_⟩
  · rw [hslots, List.nodup_append]
    refine ⟨h.distinct, by simp, ?_⟩
    rintro slot hslot _ hlast rfl
    exact hnew (List.mem_singleton.mp hlast ▸ hslot)
  · intro other hother
    rw [hjobs] at hother
    rcases List.mem_append.mp hother with hother | hother
    · refine (h.opened other hother).append_others ?_
      intro sight hsight heq
      obtain rfl := List.mem_singleton.mp hsight
      exact hnew (List.mem_map.mpr ⟨other, hother, heq.symm⟩)
    · obtain rfl := List.mem_singleton.mp hother
      rw [hqueued]
      exact Standing.first (h.unopened _ hnew)
  · intro slot hnot sight hsight
    rw [hslots, List.mem_append, not_or] at hnot
    rcases List.mem_append.mp hsight with hsight | hsight
    · exact h.unopened slot hnot.1 sight hsight
    · obtain rfl := List.mem_singleton.mp hsight
      intro heq
      exact hnot.2 (List.mem_singleton.mpr heq.symm)

theorem lookup (h : Ledger trace s) (base pattern : String) :
    Ledger (trace ++ (s.move engine (.lookup base pattern)).1)
      (s.move engine (.lookup base pattern)).2 := by
  simp only [Session.move, Session.resolve]
  split
  -- The slot has a job. It stays as it is and may be told of at once.
  next id hfind =>
    obtain ⟨hlt, hmatch, -⟩ := List.findIdx?_eq_some_iff_getElem.mp hfind
    have hat : s.jobs[id]? = some s.jobs[id] := List.getElem?_eq_getElem hlt
    generalize s.jobs[id] = job at hat hmatch
    have hslot : (⟨s.generation, cacheKey base pattern⟩ : Slot) = job.slot := by
      simp only [Bool.and_eq_true, beq_iff_eq] at hmatch
      rw [Job.slot, hmatch.1, hmatch.2]
    have houtcome : (s.outcome? id).isSome ↔ ∃ outcome, job.phase = .settled outcome := by
      obtain ⟨generation, base, pattern, phase⟩ := job
      cases phase <;> simp [Session.outcome?, hat]
    have hsame : s.jobs = s.jobs.modify id fun job => job := (List.modify_id id _).symm
    refine h.modify hsame (fun _ => rfl) ?_ ?_ ?_
    · simp [hat]
    · intro other hother sight hsight
      obtain rfl : job = other := by simpa [hat] using hother
      rcases List.mem_cons.mp hsight with rfl | htold
      · exact hslot
      · exact Job.told_slot (by simpa [Session.toldAt, hat] using htold)
    · intro other hother hstanding
      obtain rfl : job = other := by simpa [hat] using hother
      have hanswered : Standing job.slot (trace ++ [.answered job.slot
          (if (s.outcome? id).isSome then .sync else .async)]) job.phase := by
        refine hstanding.answer ?_ ?_
        · split <;> simp
        · rw [← houtcome]
          split
          next hknown => simp [hknown]
          next hopen => simp [hopen]
      rw [List.append_cons, hslot]
      simpa [Session.toldAt, hat] using Job.standing_told hanswered
  -- The slot is new, and so is its job.
  next hfind =>
    have hnew : (⟨s.generation, cacheKey base pattern⟩ : Slot) ∉ s.jobs.map Job.slot := by
      intro hmem
      obtain ⟨job, hjob, hslot⟩ := List.mem_map.mp hmem
      obtain ⟨hgeneration, hkey⟩ := Slot.mk.inj hslot
      have := List.findIdx?_eq_none_iff.mp hfind job hjob
      simp [hgeneration, hkey] at this
    have hnone : s.toldAt s.jobs.length = [] := by simp [Session.toldAt]
    rw [hnone]
    let job : Job := { generation := s.generation, base, pattern }
    have hjob : job.slot ∉ s.jobs.map Job.slot := hnew
    exact h.add rfl rfl hjob

theorem move (h : Ledger trace s) (m : Move) :
    Ledger (trace ++ (s.move engine m).1) (s.move engine m).2 := by
  cases m with
  | lookup base pattern => exact h.lookup base pattern
  | start id =>
      refine h.modify (s.start_jobs engine id) (Job.started_origin engine s.now) ?_ ?_ ?_
      · intro hnone
        simp [Session.move, Session.callAt, hnone]
      · intro job hjob sight hsight
        exact Job.call_slot (by simpa [Session.move, Session.callAt, hjob] using hsight)
      · intro job hjob hstanding
        simpa [Session.move, Session.callAt, hjob] using Job.standing_started hstanding s.now
  | wake id =>
      refine h.modify (s.wake_jobs engine id) (Job.woken_origin engine s.now) ?_ ?_ ?_
      · exact fun _ => rfl
      · intro job hjob sight hsight
        cases hsight
      · intro job hjob hstanding
        simpa [Session.move] using Job.standing_woken hstanding s.now
  | poll id =>
      have hafter : (s.see id).jobs[id]? = s.jobs[id]?.map Job.seen := by
        simp [Session.see_jobs]
      refine h.modify (s.see_jobs id) Job.seen_origin ?_ ?_ ?_
      · intro hnone
        simp [Session.move, Session.toldAt, hafter, hnone]
      · intro job hjob sight hsight
        rw [← Job.slot_eq job.seen_origin]
        exact Job.told_slot (by simpa [Session.move, Session.toldAt, hafter, hjob] using hsight)
      · intro job hjob hstanding
        simpa [Session.move, Session.toldAt, hafter, hjob] using Job.standing_seen hstanding
  | pass | tell | resetStats | renew => exact h.same_jobs rfl
  | flushStore => exact h.same_jobs (s.flushStore_jobs engine)

theorem moves (h : Ledger trace s) (ms : List Move) :
    Ledger (trace ++ (s.moves engine ms).1) (s.moves engine ms).2 := by
  induction ms generalizing trace s with
  | nil => exact h.same_jobs rfl
  | cons m ms ih =>
      have hrest := ih (h.move m : Ledger _ (s.move engine m).2)
      rw [List.append_assoc] at hrest
      exact hrest

end Ledger

/-! ## Main result -/

/-- On a session in which nothing was looked up yet, every interleaving of any number of
callers with the worker and the clock writes every slot once, whatever the compiler
does. The run of a script is one of these interleavings: it looks up what its steps
look up, in their order, and what its answers show can be seen. -/
theorem slots_written_once (engine : Engine) (s : Session) (fresh : s.jobs = []) :
    (∀ (moves : List Move) (slot : Slot), WrittenOnce slot (s.moves engine moves).1) ∧
      ∀ script : List Step, ∃ moves : List Move,
        (s.moves engine moves).2 = (s.run engine script).2 ∧
          moves.filterMap Move.pair? = script.flatMap Step.asked ∧
          (s.reports engine script).Sublist (s.moves engine moves).1 := by
  refine ⟨?_, fun script => Session.run_plays script⟩
  intro moves slot
  exact ((Ledger.of_no_jobs fresh).moves moves).writtenOnce slot

/-- A compiler that always crashes. -/
def crashing : Engine := { compiler := { delayMs := fun _ _ => 5, ending := fun _ _ => .crash } }

/-- A crash settles its slot only when somebody who waits has seen it: the lookup between
the crash and that moment is answered as if the job were under way. -/
theorem crashed_slot_written_once :
    let moves : List Move := [.lookup "" "/a", .start 0, .pass 5, .wake 0, .lookup "" "/a",
      .poll 0, .lookup "" "/a"]
    ({} : Session).jobs = [] ∧
      modesOf ⟨0, "::/a"⟩ (({} : Session).moves crashing moves).1 = [.miss, .async, .sync] ∧
      WrittenOnce ⟨0, "::/a"⟩ (({} : Session).moves crashing moves).1 :=
  ⟨rfl, by decide, (slots_written_once crashing {} rfl).1 _ _⟩

end RouteAudit.Cache
