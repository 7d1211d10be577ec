import RouteAudit.Proofs.Cache.Moves

/-! # Scripts as moves

A script has one caller, who takes one step after another. Each step is some lookups
with waits after them, so the run of a script is one interleaving among all. Main
statement: the lookups of the script are those of the moves, in their order, and what
the script answers stands in the trace (`run_plays`).
-/

namespace RouteAudit.Cache

/-- What a step looks up, in order. -/
def Step.asked : Step → List (String × String)
  | .resolve base pattern | .resolveMatcher base pattern | .resolveWithin base pattern _ =>
    [(base, pattern)]
  | .warmUp base patterns | .settleLate base patterns _ => patterns.map (base, ·)
  | .analyze _ base patterns _ => patterns.map (base, ·) ++ patterns.map (base, ·)
  | _ => []

/-- The slot of the job at a place, if there is one. -/
def Session.slot? (s : Session) (id : Nat) : Option Slot := s.jobs[id]?.map Job.slot

/-- What an answer shows of a lookup or of an outcome. -/
def Answer.sights (s : Session) : Answer → List Sight
  | .resolution found => (s.slot? found.job).toList.map (.answered · found.mode)
  | .outcome job (some ended) => (s.slot? job).toList.map (.told · ended)
  | _ => []

namespace Session

section

variable {engine : Engine} {s t u : Session} {asked more : List (String × String)}
  {sights further : List Sight}

/-- Some moves lead from one session to another, look these pairs up in this order and
show at least these sights. -/
def Plays (engine : Engine) (s : Session) (asked : List (String × String))
    (sights : List Sight) (t : Session) : Prop :=
  ∃ ms, (s.moves engine ms).2 = t ∧ ms.filterMap Move.pair? = asked ∧
    sights.Sublist (s.moves engine ms).1

namespace Plays

theorem refl (s : Session) : Plays engine s [] [] s := ⟨[], rfl, rfl, .refl _⟩

theorem trans (hst : Plays engine s asked sights t) (htu : Plays engine t more further u) :
    Plays engine s (asked ++ more) (sights ++ further) u := by
  obtain ⟨first, rfl, rfl, hsights⟩ := hst
  obtain ⟨second, rfl, rfl, hfurther⟩ := htu
  refine ⟨first ++ second, by rw [moves_append], List.filterMap_append .., ?_⟩
  rw [moves_append]
  exact hsights.append hfurther

theorem of_move {m : Move} (hm : m.pair? = none) : Plays engine s [] [] (s.move engine m).2 :=
  ⟨[m], rfl, by simp [hm], List.nil_sublist _⟩

/-- A play may be told with fewer sights. -/
theorem fewer (hst : Plays engine s asked sights t) (hfew : further.Sublist sights) :
    Plays engine s asked further t := by
  obtain ⟨ms, hlast, hasked, hsights⟩ := hst
  exact ⟨ms, hlast, hasked, hfew.trans hsights⟩

/-- Lookups come first, and what is shown comes after them. -/
theorem andThen (hst : Plays engine s asked sights t) (htu : Plays engine t [] further u) :
    Plays engine s asked further u := by
  simpa using (hst.fewer (List.nil_sublist _)).trans htu

end Plays

theorem Waits.plays (hst : Waits engine s t) : Plays engine s [] [] t := by
  obtain ⟨ms, hquiet, rfl⟩ := hst
  refine ⟨ms, rfl, List.filterMap_eq_nil_iff.mpr ?_, List.nil_sublist _⟩
  intro m hm
  have := hquiet m hm
  cases m <;> first | rfl | exact this.elim

/-! ## Lookups -/

theorem resolve_plays (base pattern : String) :
    Plays engine s [(base, pattern)]
      [.answered ⟨s.generation, cacheKey base pattern⟩ (s.resolve base pattern).1.mode]
      (s.resolve base pattern).2 :=
  ⟨[.lookup base pattern], rfl, rfl, by simp [moves, move]⟩

theorem resolveAll_plays (base : String) (patterns : List String) :
    Plays engine s (patterns.map (base, ·)) [] (s.resolveAll base patterns).2 := by
  induction patterns generalizing s with
  | nil => exact .refl s
  | cons pattern patterns ih =>
      exact ((resolve_plays base pattern).trans ih).fewer (List.nil_sublist _)

theorem warmUp_plays (base : String) (patterns : List String) (deadline : Option Nat) :
    Plays engine s (patterns.map (base, ·)) [] (s.warmUp engine base patterns deadline).2 :=
  (s.resolveAll_plays base patterns).andThen (wait_waits _ deadline).plays

theorem resolve_slot? (base pattern : String) :
    (s.resolve base pattern).2.slot? (s.resolve base pattern).1.job =
      some ⟨s.generation, cacheKey base pattern⟩ := by
  unfold resolve
  split
  next id hfind =>
    obtain ⟨hlt, hslot, _⟩ := List.findIdx?_eq_some_iff_getElem.mp hfind
    simp only [Bool.and_eq_true, beq_iff_eq] at hslot
    simp [Session.slot?, Job.slot, hlt, hslot]
  next => simp [Session.slot?, Job.slot, Job.key]

/-- Whoever knows the outcome of a job can be told it without anything else changing. -/
theorem read_plays {id : Nat} {outcome : Outcome} {slot : Slot}
    (houtcome : s.outcome? id = some outcome) (hslot : s.slot? id = some slot) :
    Plays engine s [] [.told slot outcome] s := by
  unfold outcome? at houtcome
  split at houtcome
  next generation base pattern ended hjob =>
    obtain rfl : ended = outcome := Option.some.inj houtcome
    obtain rfl : (⟨generation, base, pattern, .settled ended⟩ : Job).slot = slot := by
      simpa [Session.slot?, hjob] using hslot
    have hsee : s.see id = s := by simp [see, hjob]
    refine ⟨[.poll id], hsee, rfl, ?_⟩
    simp [moves, move, hsee, toldAt, Job.told, hjob]
  next => cases houtcome

/-- What is known in the end of a job can be told in the end. -/
theorem sights_plays (id : Nat) (outcome : Option Outcome)
    (houtcome : ∀ ended, outcome = some ended → s.outcome? id = some ended) :
    Plays engine s [] ((Answer.outcome id outcome).sights s) s := by
  cases outcome with
  | none => exact .refl s
  | some ended =>
      cases hslot : s.slot? id with
      | none => simpa [Answer.sights, hslot] using Plays.refl s
      | some slot => simpa [Answer.sights, hslot] using read_plays (houtcome ended rfl) hslot

theorem outcome?_of_resolveWithin {base pattern : String} {limitMs : Nat} {ended : Outcome}
    (h : (s.resolveWithin engine base pattern limitMs).1 = some ended) :
    (s.resolveWithin engine base pattern limitMs).2.outcome? (s.resolve base pattern).1.job =
      some ended := by
  simp only [resolveWithin, Option.ite_none_right_eq_some] at h ⊢
  exact h.2

theorem passOver_plays (base : String) (deadline : Option Nat) (patterns : List String) :
    Plays engine s (patterns.map (base, ·)) [] (passOver engine base deadline patterns s).2 := by
  induction patterns generalizing s with
  | nil => exact .refl s
  | cons pattern patterns ih =>
      have hresolve : Plays engine s [(base, pattern)] [] (s.resolve base pattern).2 :=
        (resolve_plays base pattern).fewer (List.nil_sublist _)
      cases deadline with
      | none => exact (hresolve.andThen (wait_waits _ none).plays).trans ih
      | some time => exact (hresolve.andThen (wait_waits _ _).plays).trans ih

theorem analyze_plays (runId base : String) (patterns : List String) (limitMs : Option Nat) :
    Plays engine s (patterns.map (base, ·) ++ patterns.map (base, ·)) []
      (s.analyze engine runId base patterns limitMs).2 := by
  have hstart : Plays engine s [] []
      (s.tell (.analysisStarted patterns.length base)).resetStats :=
    (Plays.of_move (m := .tell _) rfl).trans (Plays.of_move (m := .resetStats) rfl)
  have hend (t : Session) (event : Event) : Plays engine t [] []
      ((t.flushStore engine).tellStats.tell event) :=
    ((Plays.of_move (m := .flushStore) rfl).trans (Plays.of_move (m := .tell _) rfl)).trans
      (Plays.of_move (m := .tell event) rfl)
  have hpasses (t : Session) (deadline : Option Nat) :
      Plays engine t (patterns.map (base, ·) ++ patterns.map (base, ·)) []
        (passOver engine base deadline patterns (t.warmUp engine base patterns deadline).2).2 :=
    (warmUp_plays base patterns deadline).trans (passOver_plays base deadline patterns)
  exact (hstart.trans (hpasses _ _)).andThen (hend _ _)

theorem settleLate_plays (base : String) (late : List String) (graceMs : Nat) :
    Plays engine s (late.map (base, ·)) [] (s.settleLate engine base late graceMs).2 := by
  unfold settleLate
  split
  next hempty =>
    obtain rfl := List.isEmpty_iff.mp hempty
    exact .refl s
  next => exact (warmUp_plays base late _).andThen (Plays.of_move (m := .flushStore) rfl)

/-! ## Steps and runs -/

/-- A step is some moves; its lookups and its answer are theirs. -/
theorem step_plays (step : Step) :
    Plays engine s step.asked ((s.step engine step).1.sights (s.step engine step).2)
      (s.step engine step).2 := by
  cases step with
  | resolve base pattern =>
      simpa only [Session.step, Step.asked, Answer.sights, resolve_slot?, Option.toList_some,
        List.map_singleton] using resolve_plays base pattern
  | await job =>
      exact (wait_waits (some [job]) none).plays.andThen (sights_plays job _ fun _ h => h)
  | sleep ms => exact (wait_waits none _).plays
  | warmUp base patterns => exact warmUp_plays base patterns none
  | resolveMatcher base pattern =>
      exact (resolve_plays base pattern).andThen (wait_waits _ none).plays
  | resolveWithin base pattern limitMs =>
      exact ((resolve_plays base pattern).andThen (wait_waits _ _).plays).andThen
        (sights_plays _ _ fun _ => outcome?_of_resolveWithin)
  | contains | storeKnows => exact .refl s
  | resetStats => exact Plays.of_move (m := .resetStats) rfl
  | tellStats => exact Plays.of_move (m := .tell _) rfl
  | analyze runId base patterns limitMs => exact analyze_plays runId base patterns limitMs
  | settleLate base late graceMs => exact settleLate_plays base late graceMs
  | renew => exact Plays.of_move (m := .renew) rfl

/-- What the answers of a script show, in order. -/
def reports (engine : Engine) (s : Session) : List Step → List Sight
  | [] => []
  | step :: steps =>
    let (answer, s) := s.step engine step
    answer.sights s ++ s.reports engine steps

/-- A script is one of the interleavings: some moves look up what it looks up, show what
its answers show and lead to where it ends. -/
theorem run_plays (script : List Step) :
    Plays engine s (script.flatMap Step.asked) (s.reports engine script)
      (s.run engine script).2 := by
  induction script generalizing s with
  | nil => exact .refl s
  | cons step steps ih => exact (step_plays step).trans ih

end

end Session

end RouteAudit.Cache
