import RouteAudit.Proofs.Cache.Moves

/-! # Jobs only go on

A job passes its phases in one direction: it is queued, asleep, crashed and settled in
this order, some of them left out, and a settled outcome is final. No move takes a job
back or removes it, so what is once known of a job is known ever after. The number of
jobs that have not reached a stage only falls while somebody waits, and that is the
measure by which waiting ends.
-/

namespace RouteAudit.Cache

/-- How far a phase is along the way. -/
def Phase.stage : Phase → Nat
  | queued => 0
  | asleep _ => 1
  | crashed _ => 2
  | settled _ => 3

namespace Job

/-- A job may go on to be another one: it keeps its origin, never goes back, and keeps
the outcome that it has. -/
structure Onward (job next : Job) : Prop where
  origin : next.origin = job.origin
  stage : job.phase.stage ≤ next.phase.stage
  settled : ∀ outcome, job.phase = .settled outcome → next.phase = .settled outcome

namespace Onward

variable {job next last : Job}

theorem refl (job : Job) : Onward job job := ⟨rfl, Nat.le_refl _, fun _ h => h⟩

theorem trans (h : Onward job next) (hlast : Onward next last) : Onward job last where
  origin := hlast.origin.trans h.origin
  stage := Nat.le_trans h.stage hlast.stage
  settled outcome hjob := hlast.settled outcome (h.settled outcome hjob)

end Onward

/-- A job that is over has crashed or settled. -/
theorem stage_finished (engine : Engine) (job : Job) : 2 ≤ (job.finished engine).phase.stage := by
  unfold finished
  split <;> simp [Phase.stage]

/-- A job that was started is no longer queued. -/
theorem stage_started (engine : Engine) (now : Nat) (job : Job) :
    1 ≤ (job.started engine now).phase.stage := by
  unfold started
  split_ifs with hqueued
  · exact Nat.le_trans (by decide) (job.stage_finished engine)
  · simp [Phase.stage]
  · cases hphase : job.phase with
    | queued => exact absurd hphase hqueued
    | asleep | crashed | settled => simp [Phase.stage]

theorem onward_finished (engine : Engine) {job : Job} (hopen : job.phase.stage < 2) :
    job.Onward (job.finished engine) where
  origin := job.finished_origin engine
  stage := Nat.le_trans (Nat.le_of_lt hopen) (job.stage_finished engine)
  settled outcome hsettled := by simp [hsettled, Phase.stage] at hopen

theorem onward_started (engine : Engine) (now : Nat) (job : Job) :
    job.Onward (job.started engine now) := by
  unfold started
  split_ifs with hqueued
  · exact onward_finished engine (by simp [hqueued, Phase.stage])
  · exact ⟨rfl, by simp [hqueued, Phase.stage], by simp [hqueued]⟩
  · exact .refl job

theorem onward_woken (engine : Engine) (now : Nat) (job : Job) :
    job.Onward (job.woken engine now) := by
  unfold woken
  split
  next wake hasleep =>
    split_ifs
    · exact onward_finished engine (by simp [hasleep, Phase.stage])
    · exact .refl job
  next => exact .refl job

theorem onward_seen (job : Job) : job.Onward job.seen := by
  unfold seen
  split
  next hcrashed => exact ⟨rfl, by simp [hcrashed, Phase.stage], by simp [hcrashed]⟩
  next => exact .refl job

end Job

namespace Session

/-- All jobs of a session have stayed in their places and gone on. -/
def Onward (s t : Session) : Prop :=
  ∀ (id : Nat) (job : Job), s.jobs[id]? = some job →
    ∃ next, t.jobs[id]? = some next ∧ job.Onward next

/-- How many jobs have not reached a stage. -/
def before (stage : Nat) (s : Session) : Nat :=
  s.jobs.countP (·.phase.stage < stage)

section

variable {engine : Engine} {s t u : Session}

theorem Onward.refl (s : Session) : Onward s s := fun _ job hjob => ⟨job, hjob, .refl job⟩

theorem Onward.trans (hst : Onward s t) (htu : Onward t u) : Onward s u := by
  intro id job hjob
  obtain ⟨next, hnext, honward⟩ := hst id job hjob
  obtain ⟨last, hlast, hfurther⟩ := htu id next hnext
  exact ⟨last, hlast, honward.trans hfurther⟩

theorem onward_modify {f : Job → Job} (hf : ∀ job : Job, job.Onward (f job)) {id : Nat}
    (hjobs : t.jobs = s.jobs.modify id f) : Onward s t := by
  intro i job hjob
  rw [hjobs, List.getElem?_modify, hjob]
  by_cases hid : id = i
  · exact ⟨f job, by simp [hid], hf job⟩
  · exact ⟨job, by simp [hid], .refl job⟩

theorem onward_of_jobs_eq (hjobs : t.jobs = s.jobs) : Onward s t :=
  fun _ job hjob => ⟨job, hjobs ▸ hjob, .refl job⟩

/-- A lookup leaves the jobs that there are alone. -/
theorem onward_resolve (base pattern : String) : Onward s (s.resolve base pattern).2 := by
  unfold resolve
  split
  next => exact onward_of_jobs_eq rfl
  next =>
    intro id job hjob
    exact ⟨job, List.getElem?_append_left (List.getElem?_eq_some_iff.mp hjob).1 ▸ hjob, .refl job⟩

/-- No move takes a job back. -/
theorem onward_move (m : Move) : Onward s (s.move engine m).2 := by
  cases m with
  | lookup base pattern => exact onward_resolve base pattern
  | start id => exact onward_modify (Job.onward_started engine s.now) (s.start_jobs engine id)
  | wake id => exact onward_modify (Job.onward_woken engine s.now) (s.wake_jobs engine id)
  | poll id => exact onward_modify Job.onward_seen (s.see_jobs id)
  | pass | tell | resetStats | renew => exact onward_of_jobs_eq rfl
  | flushStore => exact onward_of_jobs_eq (s.flushStore_jobs engine)

theorem onward_moves (ms : List Move) : Onward s (s.moves engine ms).2 := by
  induction ms generalizing s with
  | nil => exact .refl s
  | cons m ms ih => exact (onward_move m).trans ih

theorem Waits.onward (hst : Waits engine s t) : Onward s t := by
  obtain ⟨ms, -, rfl⟩ := hst
  exact onward_moves ms

/-- An outcome that is known stays known. -/
theorem Onward.outcome? (hst : Onward s t) {id : Nat} {outcome : Outcome}
    (h : s.outcome? id = some outcome) : t.outcome? id = some outcome := by
  unfold Session.outcome? at h
  split at h
  next generation base pattern ended hjob =>
    obtain ⟨⟨_, _, _, phase⟩, hnext, honward⟩ := hst id _ hjob
    obtain rfl : phase = .settled ended := honward.settled ended rfl
    simpa [Session.outcome?, hnext] using h
  next => cases h

theorem Onward.isSome (hst : Onward s t) {id : Nat} (h : (s.outcome? id).isSome) :
    (t.outcome? id).isSome := by
  obtain ⟨outcome, houtcome⟩ := Option.isSome_iff_exists.mp h
  rw [hst.outcome? houtcome]
  rfl

theorem Onward.knows (hst : Onward s t) {ids : List Nat} (h : s.knows ids) : t.knows ids := by
  rw [Session.knows, List.all_eq_true] at h ⊢
  intro id hid
  exact hst.isSome (h id hid)

theorem Onward.place_lt (hst : Onward s t) {id : Nat} (hid : id < s.jobs.length) :
    id < t.jobs.length := by
  obtain ⟨next, hnext, -⟩ := hst id _ (List.getElem?_eq_getElem hid)
  exact (List.getElem?_eq_some_iff.mp hnext).1

/-! ## How many jobs are left -/

theorem countP_modify {α : Type} (p : α → Bool) (f : α → α) {l : List α} {i : Nat} {a : α}
    (ha : l[i]? = some a) :
    (l.modify i f).countP p + (if p a then 1 else 0) =
      l.countP p + (if p (f a) then 1 else 0) := by
  induction l generalizing i with
  | nil => simp at ha
  | cons b l ih =>
      cases i with
      | zero =>
          obtain rfl : b = a := by simpa using ha
          simp only [List.modify_zero_cons, List.countP_cons]
          omega
      | succ i =>
          have := ih (by simpa using ha)
          simp only [List.modify_succ_cons, List.countP_cons]
          omega

theorem before_modify_le {f : Job → Job} (hf : ∀ job : Job, job.Onward (f job)) {id : Nat}
    (hjobs : t.jobs = s.jobs.modify id f) (stage : Nat) : t.before stage ≤ s.before stage := by
  unfold before
  rw [hjobs]
  cases hjob : s.jobs[id]? with
  | none =>
      have hsame : s.jobs.modify id f = s.jobs :=
        modify_eq_self fun job hat => by simp [hjob] at hat
      exact Nat.le_of_eq (congrArg _ hsame)
  | some job =>
      have hcount := countP_modify (fun job : Job => job.phase.stage < stage) f hjob
      have hstage := (hf job).stage
      simp only [decide_eq_true_eq] at hcount
      split_ifs at hcount <;> omega

/-- A job that passes a stage is one less before it. -/
theorem before_modify_lt {f : Job → Job} {id : Nat} {job : Job} (hjob : s.jobs[id]? = some job)
    (hjobs : t.jobs = s.jobs.modify id f) {stage : Nat} (hbefore : job.phase.stage < stage)
    (hafter : stage ≤ (f job).phase.stage) : t.before stage < s.before stage := by
  unfold before
  rw [hjobs]
  have hcount := countP_modify (fun job : Job => job.phase.stage < stage) f hjob
  simp only [decide_eq_true_eq, hbefore, if_true, Nat.not_lt.mpr hafter, if_false] at hcount
  omega

theorem Waits.before_le (hst : Waits engine s t) (stage : Nat) :
    t.before stage ≤ s.before stage := by
  refine hst.induct (motive := fun s t => t.before stage ≤ s.before stage)
    (fun _ => Nat.le_refl _) ?_
  intro s m u hquiet hrest
  refine Nat.le_trans hrest ?_
  cases m with
  | start id =>
      exact before_modify_le (Job.onward_started engine s.now) (s.start_jobs engine id) stage
  | wake id => exact before_modify_le (Job.onward_woken engine s.now) (s.wake_jobs engine id) stage
  | poll id => exact before_modify_le Job.onward_seen (s.see_jobs id) stage
  | pass => exact Nat.le_refl _
  | lookup | tell | resetStats | flushStore | renew => exact hquiet.elim

end

end Session

end RouteAudit.Cache
