import RouteAudit.Proofs.Cache.Recording

/-! # What a reopened store finds

A run of one cache records each key once that was compiled, and none that was not. What is in
memory only counts as unsaved, so the write at the end of an analysis, or of a later settling,
catches whatever was recorded until then: also the compilations that an earlier run gave up on
and that ended in between (`compiled_recorded_once`).
-/

namespace RouteAudit

namespace Store

/-! ## Faults -/

theorem save_fault (store : Store) (site : Site) (now : Int64) :
    (store.save site now).site.fault = site.fault := by
  unfold save
  dsimp only
  cases hfault : site.fault <;> simp [Site.replace, hfault]

namespace Kept

/-- The world stays as it was in a turn. -/
theorem turn_fault (kept : Kept) (turn : Turn) : (kept.turn turn).site.fault = turn.fault := by
  obtain ⟨operation, now, fault⟩ := turn
  cases operation with
  | record base pattern durationNs =>
      simp only [Kept.turn, ofDone, record_site]
      split
      · exact save_fault ..
      · rfl
  | save => exact save_fault ..
  | flushIfDirty =>
      simp only [Kept.turn, ofDone, flushIfDirty]
      split
      · rfl
      · exact (congrArg Site.fault (saveFor_site ..)).trans (save_fault ..)
  | clear => exact (congrArg Site.fault (saveFor_site ..)).trans (save_fault ..)
  | load => rfl

theorem run_fault {kept : Kept} {turns : List Turn} {fault : Option Storage.WriteFault}
    (hfault : kept.site.fault = fault) (hfaults : ∀ turn ∈ turns, turn.fault = fault) :
    (kept.run turns).site.fault = fault := by
  induction turns generalizing kept with
  | nil => exact hfault
  | cons turn turns ih =>
      obtain ⟨hturn, hturns⟩ := List.forall_mem_cons.mp hfaults
      exact ih ((kept.turn_fault turn).trans hturn) hturns

end Kept

theorem flush_unsaved (kept : Kept) (now : Int64) :
    (kept.turn ⟨.flushIfDirty, now, none⟩).store.unsaved = 0 := by
  by_cases hclean : kept.store.unsaved = 0
  · simp [Kept.turn, Kept.ofDone, flushIfDirty, hclean]
  · simp only [Kept.turn, Kept.ofDone, flushIfDirty, if_neg hclean, saveFor_store]
    exact save_unsaved rfl

/-- After writing what is unsaved the file has what memory has. -/
theorem Synced.flush {kept : Kept} {added : List Entry} (h : Synced kept added) (now : Int64) :
    (kept.turn ⟨.flushIfDirty, now, none⟩).store.manifest.entries =
      onFile (kept.turn ⟨.flushIfDirty, now, none⟩).site := by
  have hstep := h.step ⟨.flushIfDirty, now, none⟩ rfl
  have hlength := hstep.unsaved.symm.trans (flush_unsaved kept now)
  rw [hstep.entries, List.length_eq_zero_iff.mp hlength]
  rfl

end Store

namespace Cache

open Store (Kept Turn)

namespace Session

/-- A store that was opened now would find what the store of the cache holds. -/
def Agrees (s : Session) : Prop :=
  ∃ store, s.cache.store = some store ∧ ∀ options now,
    (Store.openAt s.site options now).manifest.entries = store.manifest.entries

/-- Every write of the cache succeeds, and what its store holds is what is on file with the
recordings since the last write. -/
structure Tracked (s : Session) : Prop where
  own : s.Own
  fault : s.site.fault = none
  synced : ∃ kept added, s.kept? = some kept ∧ Store.Synced kept added

/-- Some moves lead from one session to another, with the same cache. -/
def Stays (engine : Engine) (s t : Session) : Prop :=
  ∃ ms, .renew ∉ ms ∧ (s.moves engine ms).2 = t

section

variable {engine : Engine} {s t : Session} {m : Move} {ms : List Move} {kept : Kept}
  {options : StoreOptions} {opened : Int64}

/-! ## Moves -/

theorem kept?_eq_some (h : s.kept? = some kept) :
    s.cache.store = some kept.store ∧ s.site = kept.site := by
  obtain ⟨store, hstore, rfl⟩ := Option.map_eq_some_iff.mp h
  exact ⟨hstore, rfl⟩

theorem fault_turnsAt {id : Nat} {ends : Job → Bool} {turn : Turn}
    (hturn : turn ∈ s.turnsAt engine id ends) : turn.fault = s.site.fault := by
  unfold turnsAt at hturn
  split at hturn
  next job _ =>
    split_ifs at hturn
    · unfold Job.recording at hturn
      split at hturn
      · rw [List.mem_singleton.mp hturn]
      · cases hturn
    · cases hturn
  next => cases hturn

theorem fault_turns {turn : Turn} (hturn : turn ∈ s.turns engine m) :
    turn.fault = s.site.fault := by
  cases m with
  | start | wake => exact fault_turnsAt hturn
  | flushStore => rw [List.mem_singleton.mp hturn]
  | lookup | poll | pass | tell | resetStats | renew => cases hturn

theorem kept?_opened (hopened : s.cache.store = some (.openAt s.site options opened)) :
    s.kept? = some ⟨.openAt s.site options opened, s.site⟩ := by
  simp [kept?, hopened]

namespace Tracked

theorem of_opened (fresh : s.jobs = [])
    (hopened : s.cache.store = some (.openAt s.site options opened))
    (hfault : s.site.fault = none) : s.Tracked where
  own := Own.of_no_jobs fresh
  fault := hfault
  synced := ⟨_, [], kept?_opened hopened, Store.Synced.load (.new options opened) s.site opened⟩

theorem move (h : s.Tracked) (hm : m ≠ .renew) : (s.move engine m).2.Tracked := by
  obtain ⟨kept, added, hkept, hsynced⟩ := h.synced
  obtain ⟨-, hsite⟩ := kept?_eq_some hkept
  have hfaults : ∀ turn ∈ s.turns engine m, turn.fault = none :=
    fun turn hturn => (fault_turns hturn).trans h.fault
  have hnext : (s.move engine m).2.kept? = some (kept.run (s.turns engine m)) := by
    rw [kept?_move h.own hm, hkept]
    rfl
  refine ⟨h.own.move hm, ?_, _, _, hnext, (hsynced.run hfaults).1⟩
  rw [(kept?_eq_some hnext).2]
  exact Kept.run_fault (hsite ▸ h.fault) hfaults

theorem stays (h : s.Tracked) (hst : Stays engine s t) : t.Tracked := by
  obtain ⟨ms, hms, rfl⟩ := hst
  exact moves_keep (motive := Tracked) (fun _ _ hm htracked => htracked.move hm) hms h

/-- What was recorded until the store is flushed is on file then. -/
theorem agrees_flushStore (h : s.Tracked) : (s.flushStore engine).Agrees := by
  obtain ⟨kept, added, hkept, hsynced⟩ := h.synced
  have hflush : (s.flushStore engine).kept? =
      some (kept.turn ⟨.flushIfDirty, s.stamp engine, none⟩) := by
    rw [kept?_flushStore, hkept, h.fault]
    rfl
  obtain ⟨hstore, hsite⟩ := kept?_eq_some hflush
  refine ⟨_, hstore, ?_⟩
  intro options now
  rw [Store.entries_openAt, hsite]
  exact (hsynced.flush _).symm

end Tracked

/-! ## Steps of one caller -/

/-- Moves that lead to the same generation have no renewal among them. -/
theorem Plays.stays {asked : List (String × String)} {sights : List Sight}
    (hst : Plays engine s asked sights t) (hgeneration : t.generation = s.generation) :
    Stays engine s t := by
  obtain ⟨ms, rfl, -⟩ := hst
  rw [generation_moves, Nat.add_eq_left] at hgeneration
  exact ⟨ms, List.count_eq_zero.mp hgeneration, rfl⟩

theorem wait_generation (goal : Option (List Nat)) (deadline : Option Nat) :
    (s.wait engine goal deadline).2.generation = s.generation :=
  (wait_waits goal deadline).origins_eq.2

theorem resolveAll_generation (base : String) (patterns : List String) :
    (s.resolveAll base patterns).2.generation = s.generation := by
  induction patterns generalizing s with
  | nil => rfl
  | cons pattern patterns ih => exact ih.trans (s.resolve_generation base pattern)

theorem warmUp_generation (base : String) (patterns : List String) (deadline : Option Nat) :
    (s.warmUp engine base patterns deadline).2.generation = s.generation :=
  (wait_generation _ deadline).trans (resolveAll_generation base patterns)

theorem passOver_generation (base : String) (deadline : Option Nat) (patterns : List String) :
    (passOver engine base deadline patterns s).2.generation = s.generation := by
  induction patterns generalizing s with
  | nil => rfl
  | cons pattern patterns ih =>
      have hresolve := s.resolve_generation base pattern
      cases deadline with
      | none => exact ih.trans ((wait_generation _ none).trans hresolve)
      | some time => exact ih.trans ((wait_generation _ _).trans hresolve)

/-- An analysis ends with a flush, and tells of it. -/
theorem analyze_flushes (engine : Engine) (s : Session) (runId base : String)
    (patterns : List String) (limitMs : Option Nat) :
    ∃ passed event, Stays engine s passed ∧ (s.analyze engine runId base patterns limitMs).2 =
      (passed.flushStore engine).tellStats.tell event := by
  refine ⟨_, _, ?_, rfl⟩
  have hstart : Plays engine s [] []
      (s.tell (.analysisStarted patterns.length base)).resetStats :=
    (Plays.of_move (m := .tell _) rfl).trans (Plays.of_move (m := .resetStats) rfl)
  exact ((hstart.trans (warmUp_plays base patterns _)).trans
    (passOver_plays base _ patterns)).stays
      ((passOver_generation base _ patterns).trans (warmUp_generation base patterns _))

theorem settleLate_flushes (engine : Engine) (s : Session) (base : String) {late : List String}
    (hlate : late ≠ []) (graceMs : Nat) :
    ∃ passed, Stays engine s passed ∧
      (s.settleLate engine base late graceMs).2 = passed.flushStore engine := by
  unfold settleLate
  rw [if_neg (by simpa using hlate)]
  exact ⟨_, (warmUp_plays base late _).stays (warmUp_generation base late _), rfl⟩

theorem settleLate_generation (base : String) (late : List String) (graceMs : Nat) :
    (s.settleLate engine base late graceMs).2.generation = s.generation := by
  unfold settleLate
  split
  · rfl
  · exact flushStore_generation.trans (warmUp_generation base late _)

theorem step_generation {step : Step} (hstep : step ≠ .renew) :
    (s.step engine step).2.generation = s.generation := by
  cases step with
  | resolve base pattern => exact s.resolve_generation base pattern
  | await | sleep => exact wait_generation _ _
  | warmUp base patterns => exact warmUp_generation base patterns none
  | resolveMatcher base pattern | resolveWithin base pattern =>
      exact (wait_generation _ _).trans (s.resolve_generation base pattern)
  | contains | storeKnows | resetStats | tellStats => rfl
  | analyze runId base patterns limitMs =>
      exact flushStore_generation.trans
        ((passOver_generation base _ patterns).trans (warmUp_generation base patterns _))
  | settleLate base late graceMs => exact settleLate_generation base late graceMs
  | renew => exact absurd rfl hstep

theorem run_generation {script : List Step} (hscript : .renew ∉ script) :
    (s.run engine script).2.generation = s.generation := by
  induction script generalizing s with
  | nil => rfl
  | cons step script ih =>
      rw [List.mem_cons, not_or] at hscript
      exact (ih hscript.2).trans (step_generation (Ne.symm hscript.1))

end

end Session

/-! ## Main result -/

/-- A cache with a store that was opened on whatever its file held makes of it, in every
interleaving of any number of callers with the worker and the clock, what the turns make of it that
the ends of its jobs ask for: one recording of each key whose compilation has come to its end with
a matcher, whoever still waits for it, and none of any other key. Where writes succeed a store that
is opened after a flush finds what the store of the cache holds, so also after an analysis or after
a settling of patterns that took too long. The run of a script is one of these interleavings. -/
theorem compiled_recorded_once (engine : Engine) (s : Session) (options : StoreOptions)
    (opened : Int64) (fresh : s.jobs = [])
    (hopened : s.cache.store = some (.openAt s.site options opened)) :
    (∀ moves : List Move, .renew ∉ moves →
      let t := (s.moves engine moves).2
      let log := s.turnsOver engine moves
      t.kept? = some (Kept.run ⟨.openAt s.site options opened, s.site⟩ log) ∧
        (∀ key, recordsOf key log = if t.hasCompiled engine key then 1 else 0) ∧
        (s.site.fault = none →
          (t.flushStore engine).Agrees ∧
            (∀ runId base patterns limitMs,
              (t.analyze engine runId base patterns limitMs).2.Agrees) ∧
            ∀ base late graceMs, late ≠ [] →
              (t.settleLate engine base late graceMs).2.Agrees)) ∧
      ∀ script : List Step, .renew ∉ script → ∃ moves : List Move, .renew ∉ moves ∧
        (s.moves engine moves).2 = (s.run engine script).2 := by
  refine ⟨?_, ?_⟩
  · intro moves hmoves t log
    refine ⟨?_, Session.recordsOf_of_fresh fresh hmoves, ?_⟩
    · rw [Session.kept?_moves (Session.Own.of_no_jobs fresh) hmoves, Session.kept?_opened hopened]
      rfl
    · intro hfault
      have htracked : t.Tracked :=
        (Session.Tracked.of_opened fresh hopened hfault).stays ⟨moves, hmoves, rfl⟩
      refine ⟨htracked.agrees_flushStore, ?_, ?_⟩
      · intro runId base patterns limitMs
        obtain ⟨passed, event, hpassed, heq⟩ :=
          t.analyze_flushes engine runId base patterns limitMs
        rw [heq]
        exact (htracked.stays hpassed).agrees_flushStore
      · intro base late graceMs hlate
        obtain ⟨passed, hpassed, heq⟩ := t.settleLate_flushes engine base hlate graceMs
        rw [heq]
        exact (htracked.stays hpassed).agrees_flushStore
  · intro script hscript
    exact (Session.run_plays script).stays (Session.run_generation hscript)

/-- A compiler that takes its time. -/
def slow : Engine := { compiler := {
  delayMs := fun _ _ => 500
  ending := fun base pattern => .result (.ok (.sentinel pattern base)) } }

/-- A compilation that nobody was told of is on record once, and on file after a later settling. -/
theorem late_compile_recorded :
    let s : Session := { cache := { store := some (.openAt {} {} 0) } }
    let moves : List Move := [.lookup "" "/late", .start 0, .pass 500, .wake 0]
    s.jobs = [] ∧ .renew ∉ moves ∧ s.site.fault = none ∧
      outcomesOf ⟨0, "::/late"⟩ (s.moves slow moves).1 = [] ∧
      recordsOf "::/late" (s.turnsOver slow moves) = 1 ∧
      recordsOf "::/other" (s.turnsOver slow moves) = 0 ∧
      ((s.moves slow moves).2.settleLate slow "" ["/late"] 5000).2.Agrees := by
  intro s moves
  have hmoves : .renew ∉ moves := by decide
  obtain ⟨-, hrecords, hfile⟩ := (compiled_recorded_once slow s {} 0 rfl rfl).1 moves hmoves
  obtain ⟨-, -, hsettled⟩ := hfile rfl
  have hlate : (s.moves slow moves).2.hasCompiled slow "::/late" = true := by decide
  have hother : (s.moves slow moves).2.hasCompiled slow "::/other" = false := by decide
  refine ⟨rfl, hmoves, rfl, by decide, ?_, ?_, hsettled "" ["/late"] 5000 (by simp)⟩
  · rw [hrecords, hlate]
    rfl
  · rw [hrecords, hother]
    rfl

end Cache

end RouteAudit
