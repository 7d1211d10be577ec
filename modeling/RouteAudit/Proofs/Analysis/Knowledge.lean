import Mathlib.Data.List.Dedup
import RouteAudit.Proofs.Analysis.Independence
import RouteAudit.Proofs.Cache.Reopening
import RouteAudit.Proofs.Store.Room

/-! # What a later run knows

An analysis without a deadline compiles every pattern of its list, and what compiles is on record,
and on file, when it ends. Where the store has room for these patterns a later run finds each of
them in the file and none that did not compile, and apart from that it reports the same
(`later_run_knows_compiles`).
-/

namespace RouteAudit

open Store (Turn entryHash)

/-- Whether a compilation comes to a matcher. -/
def Compiler.compiles (compiler : Compiler) (base pattern : String) : Bool :=
  match compiler.ending base pattern with
  | .result (.ok _) => true
  | .result (.error _) | .crash _ => false

theorem Compiler.isCompiled_outcome (compiler : Compiler) (base pattern : String) :
    (compiler.outcome base pattern).isCompiled = compiler.compiles base pattern := by
  unfold outcome compiles
  split <;> simp [Outcome.isCompiled, *]

/-- What comes of a compilation does not depend on how long it takes. -/
theorem Compiler.outcome_congr {compiler other : Compiler} (h : other.ending = compiler.ending) :
    other.outcome = compiler.outcome := by
  funext base pattern
  rw [outcome, outcome, h]

namespace Cache.Session

/-- A fresh cache over a store that is opened where it keeps its file. -/
def opening (site : Store.Site) (options : StoreOptions) (opened : Int64) : Session where
  cache := { store := some (.openAt site options opened) }
  site

/-- A pattern with what its compilation comes to. -/
def told (compiler : Compiler) (base pattern : String) : String × Option Outcome :=
  (pattern, some (compiler.outcome base pattern))

section

variable {engine : Engine} {s : Session} {m : Move} {ms : List Move} {base pattern : String}
  {patterns : List String} {before : List (String × String)}

/-! ## Reports -/

/-- Without a deadline the second pass tells what every compilation comes to. -/
theorem passOver_told (hdelivers : engine.Delivers none) (fresh : s.jobs = []) (base : String)
    (patterns : List String) :
    (passOver engine base none patterns (s.warmUp engine base patterns none).2).1 =
      patterns.map (told engine.compiler base) := by
  obtain ⟨hresults, hfates⟩ := passes_spec fresh hdelivers base patterns
  rw [hresults]
  apply List.map_congr_left
  intro pattern hpattern
  rcases hfates pattern hpattern with hknown | ⟨-, time, hnone, -⟩
  · rw [hknown, told]
  · cases hnone

theorem analyze_told (hdelivers : engine.Delivers none) (fresh : s.jobs = [])
    (runId base : String) (patterns : List String) :
    let report := (s.analyze engine runId base patterns none).1
    report.assessments = (patterns.map (told engine.compiler base)).map (fun result =>
        .ofFacts (assessed base result).pattern (assessed base result).facts) ∧
      report.failures = (patterns.map (told engine.compiler base)).filterMap failure? ∧
      report.known = .ofNat (s.countKnown base patterns) := by
  have fresh' : ((s.tell (.analysisStarted patterns.length base)).resetStats).jobs = [] := fresh
  have hresults := passOver_told hdelivers fresh' base patterns
  refine ⟨?_, ?_, rfl⟩
  · rw [← hresults]
    rfl
  · rw [← hresults]
    rfl

/-- An analysis without a deadline leaves the outcome of every pattern known. -/
theorem analyze_fate? (hdelivers : engine.Delivers none) (fresh : s.jobs = [])
    (runId base : String) (hpattern : pattern ∈ patterns) :
    (s.analyze engine runId base patterns none).2.fate? base pattern =
      some (engine.compiler.outcome base pattern) := by
  have fresh' : ((s.tell (.analysisStarted patterns.length base)).resetStats).jobs = [] := fresh
  obtain ⟨-, hfates⟩ := passes_spec fresh' hdelivers base patterns
  have hlast (t : Session) (event : Event) :
      ((t.flushStore engine).tellStats.tell event).fate? base pattern = t.fate? base pattern :=
    fate?_congr (t.flushStore_jobs engine) t.flushStore_generation
  refine (hlast _ _).trans ?_
  rcases hfates pattern hpattern with hknown | ⟨-, time, hnone, -⟩
  · exact hknown
  · cases hnone

/-! ## Records -/

theorem move_asked (engine : Engine) (h : ∀ job ∈ s.jobs, (job.base, job.pattern) ∈ before)
    (m : Move) :
    ∀ job ∈ (s.move engine m).2.jobs, (job.base, job.pattern) ∈ before ++ m.pair?.toList := by
  intro job hjob
  by_cases hpair : m.pair? = none
  · have horigin : job.origin ∈ s.origins := move_origins hpair ▸ List.mem_map_of_mem hjob
    obtain ⟨old, hold, heq⟩ := List.mem_map.mp horigin
    have hsame : (old.base, old.pattern) = (job.base, job.pattern) :=
      congrArg (fun origin => (origin.base, origin.pattern)) heq
    rw [hpair, ← hsame]
    simpa using h old hold
  · cases m with
    | lookup base pattern =>
        rcases s.resolve_cases base pattern with ⟨-, hjobs⟩ | ⟨-, -, hjobs⟩
        · exact List.mem_append_left _ (h job (hjobs ▸ hjob))
        · rcases List.mem_append.mp (hjobs ▸ hjob) with hjob | hjob
          · exact List.mem_append_left _ (h job hjob)
          · simp [List.mem_singleton.mp hjob, Move.pair?]
    | _ => exact absurd rfl hpair

/-- A job compiles a pair that was looked up. -/
theorem moves_asked (h : ∀ job ∈ s.jobs, (job.base, job.pattern) ∈ before) (ms : List Move) :
    ∀ job ∈ (s.moves engine ms).2.jobs,
      (job.base, job.pattern) ∈ before ++ ms.filterMap Move.pair? := by
  induction ms generalizing s before with
  | nil => simpa [moves] using h
  | cons m ms ih =>
      have hrest := ih (move_asked engine h m)
      have hasked : (m :: ms).filterMap Move.pair? =
          m.pair?.toList ++ ms.filterMap Move.pair? := by
        cases hpair : m.pair? <;> simp [hpair]
      rw [hasked, ← List.append_assoc]
      exact hrest

theorem hasCompiled_of_fate? {outcome : Outcome} (hsound : s.Sound engine.compiler)
    (hfate : s.fate? base pattern = some outcome) (hcompiled : outcome.isCompiled) :
    s.hasCompiled engine (cacheKey base pattern) := by
  obtain ⟨id, hfind, houtcome⟩ := Option.bind_eq_some_iff.mp hfate
  obtain ⟨job, hjob, -, hkey⟩ := of_find? hfind
  obtain ⟨generation, base, pattern, phase⟩ := job
  cases phase with
  | queued | asleep | crashed => simp [outcome?, hjob] at houtcome
  | settled ended =>
      obtain rfl : ended = outcome := by simpa [outcome?, hjob] using houtcome
      have hmem := List.mem_of_getElem? hjob
      have hended := (hsound _ hmem).settled ended rfl
      rw [hasCompiled, List.any_eq_true]
      refine ⟨_, hmem, ?_⟩
      simp [hkey, Job.isOver, ← hended, hcompiled]

/-- After an analysis without a deadline those keys are compiled whose patterns compile. -/
theorem analyze_hasCompiled (hdelivers : engine.Delivers none) (fresh : s.jobs = [])
    (runId base : String) (patterns : List String) (key : String) :
    (s.analyze engine runId base patterns none).2.hasCompiled engine key ↔
      ∃ pattern ∈ patterns, cacheKey base pattern = key ∧
        engine.compiler.compiles base pattern := by
  rw [hasCompiled, List.any_eq_true]
  constructor
  · rintro ⟨job, hjob, hcompiled⟩
    simp only [Bool.and_eq_true, beq_iff_eq] at hcompiled
    obtain ⟨hkey, -, hcompiled⟩ := hcompiled
    obtain ⟨ms, hlast, hasked, -⟩ : Plays engine s _ _ _ :=
      analyze_plays runId base patterns none
    have hnone : ∀ job ∈ s.jobs, (job.base, job.pattern) ∈ [] := by simp [fresh]
    have hmem := moves_asked hnone ms job (hlast ▸ hjob)
    rw [hasked] at hmem
    obtain ⟨pattern, hpattern, hpair⟩ : ∃ pattern ∈ patterns,
        (base, pattern) = (job.base, job.pattern) := by simpa using hmem
    obtain ⟨hbase, hsame⟩ := Prod.mk.inj hpair
    rw [Job.key, ← hbase, ← hsame] at hkey
    rw [← hbase, ← hsame, Compiler.isCompiled_outcome] at hcompiled
    exact ⟨pattern, hpattern, hkey, hcompiled⟩
  · rintro ⟨pattern, hpattern, rfl, hcompiled⟩
    have hlast : Plays engine s _ _ _ := analyze_plays runId base patterns none
    have hfate := analyze_fate? hdelivers fresh runId base hpattern
    rw [← Compiler.isCompiled_outcome] at hcompiled
    exact List.any_eq_true.mp
      (hasCompiled_of_fate? (hlast.sound (.of_no_jobs fresh)) hfate hcompiled)

/-! ## Entries -/

theorem entryHash_congr {otherBase other : String}
    (h : cacheKey base pattern = cacheKey otherBase other) :
    entryHash base pattern = entryHash otherBase other := by
  simp [entryHash, h]

theorem hash_recorded {turn : Turn} {entry : Store.Entry} (hentry : entry ∈ turn.recorded) :
    entry.hash = entryHash entry.base entry.pattern := by
  unfold Turn.recorded at hentry
  split at hentry
  · rw [List.mem_singleton.mp hentry, Store.entryOf]
  · cases hentry

theorem adds_turns {turn : Turn} (hturn : turn ∈ s.turns engine m) : turn.Adds := by
  have hat {id : Nat} {ends : Job → Bool} (h : turn ∈ s.turnsAt engine id ends) : turn.Adds := by
    unfold turnsAt at h
    split at h
    · split_ifs at h
      · unfold Job.recording at h
        split at h
        · simp [List.mem_singleton.mp h, Turn.Adds]
        · cases h
      · cases h
    · cases h
  cases m with
  | start | wake => exact hat hturn
  | flushStore => simp [List.mem_singleton.mp hturn, Turn.Adds]
  | lookup | poll | pass | tell | resetStats | renew => cases hturn

theorem adds_turnsOver {turn : Turn} (hturn : turn ∈ s.turnsOver engine ms) : turn.Adds := by
  induction ms generalizing s with
  | nil => cases hturn
  | cons m ms ih =>
      rcases List.mem_append.mp hturn with hfirst | hrest
      · exact adds_turns hfirst
      · exact ih hrest

/-- An entry of a key is recorded exactly if the key was compiled. -/
theorem recorded_iff_hasCompiled (fresh : s.jobs = []) (hms : .renew ∉ ms) (key : String) :
    (∃ entry ∈ (s.turnsOver engine ms).flatMap Turn.recorded,
      cacheKey entry.base entry.pattern = key) ↔ (s.moves engine ms).2.hasCompiled engine key := by
  have hpos : 0 < recordsOf key (s.turnsOver engine ms) ↔
      (s.moves engine ms).2.hasCompiled engine key := by
    rw [recordsOf_of_fresh fresh hms]
    split_ifs with hcompiled <;> simp [hcompiled]
  rw [← hpos, recordsOf, List.countP_pos_iff]
  simp

/-- What an analysis without a deadline asks of the store: recordings of the patterns that compile,
and writes. -/
theorem analyze_turns (hdelivers : engine.Delivers none) (fresh : s.jobs = [])
    (runId base : String) (patterns : List String) :
    ∃ log : List Turn,
      (s.analyze engine runId base patterns none).2.kept? = s.kept?.map (·.run log) ∧
      (∀ turn ∈ log, turn.Adds) ∧
      ∀ hash, hash ∈ (log.flatMap Turn.recorded).map (·.hash) ↔
        ∃ pattern ∈ patterns, entryHash base pattern = hash ∧
          engine.compiler.compiles base pattern := by
  have hplays : Plays engine s _ _ _ := analyze_plays runId base patterns none
  have hgeneration : (s.step engine (.analyze runId base patterns none)).2.generation =
      s.generation := step_generation Step.noConfusion
  obtain ⟨ms, hms, hlast⟩ := hplays.stays hgeneration
  have hcompiled := analyze_hasCompiled hdelivers fresh runId base patterns
  rw [← hlast] at hcompiled ⊢
  have hrecorded (key : String) : (∃ entry ∈ (s.turnsOver engine ms).flatMap Turn.recorded,
      cacheKey entry.base entry.pattern = key) ↔
        ∃ pattern ∈ patterns, cacheKey base pattern = key ∧
          engine.compiler.compiles base pattern := by
    rw [← hcompiled]
    exact recorded_iff_hasCompiled fresh hms key
  refine ⟨s.turnsOver engine ms, kept?_moves (Own.of_no_jobs fresh) hms,
    fun turn => adds_turnsOver, ?_⟩
  intro hash
  rw [List.mem_map]
  constructor
  · rintro ⟨entry, hentry, rfl⟩
    obtain ⟨turn, -, hturn⟩ := List.mem_flatMap.mp hentry
    obtain ⟨pattern, hpattern, hkey, hok⟩ := (hrecorded _).mp ⟨entry, hentry, rfl⟩
    rw [hash_recorded hturn]
    exact ⟨pattern, hpattern, entryHash_congr hkey, hok⟩
  · rintro ⟨pattern, hpattern, rfl, hok⟩
    obtain ⟨entry, hentry, hkey⟩ := (hrecorded _).mpr ⟨pattern, hpattern, rfl, hok⟩
    obtain ⟨turn, -, hturn⟩ := List.mem_flatMap.mp hentry
    exact ⟨entry, hentry, (hash_recorded hturn).trans (entryHash_congr hkey)⟩

/-! ## What is found later -/

theorem analyze_agrees (engine : Engine) (htracked : s.Tracked) (runId base : String)
    (patterns : List String) (limitMs : Option Nat) :
    (s.analyze engine runId base patterns limitMs).2.Agrees := by
  obtain ⟨passed, event, hpassed, hlast⟩ := s.analyze_flushes engine runId base patterns limitMs
  rw [hlast]
  exact (htracked.stays hpassed).agrees_flushStore

/-- After an analysis whose patterns a new store has room for, a store that is opened finds the
patterns that compiled. -/
theorem openAt_contains (hdelivers : engine.Delivers none) {options : StoreOptions}
    (opened : Int64) (runId : String) (hpattern : pattern ∈ patterns)
    (hroom : patterns.dedup.countP (engine.compiler.compiles base) ≤ options.maxEntries)
    (hhashes : ∀ first ∈ patterns, ∀ second ∈ patterns,
      entryHash base first = entryHash base second → first = second)
    (others : StoreOptions) (later : Int64) :
    (Store.openAt ((opening {} options opened).analyze engine runId base patterns none).2.site
        others later).contains base pattern =
      engine.compiler.compiles base pattern := by
  have fresh : (opening {} options opened).jobs = [] := rfl
  have htracked : (opening {} options opened).Tracked := .of_opened fresh rfl rfl
  obtain ⟨store, hstore, hfile⟩ := analyze_agrees engine htracked runId base patterns none
  obtain ⟨log, hkept, hadds, hlog⟩ := analyze_turns hdelivers fresh runId base patterns
  have hrun : store = (Store.Kept.run ⟨.openAt {} options opened, {}⟩ log).store :=
    Option.some.inj (hstore.symm.trans (kept?_eq_some hkept).1)
  -- There are at most as many hashes as different patterns that compile.
  let room := (patterns.dedup.filter (engine.compiler.compiles base)).map (entryHash base)
  have hkeys : ∀ entry ∈ log.flatMap Turn.recorded, entry.hash ∈ room := by
    intro entry hentry
    obtain ⟨pattern, hpattern, hhash, hok⟩ := (hlog entry.hash).mp (List.mem_map_of_mem hentry)
    rw [← hhash]
    exact List.mem_map_of_mem (List.mem_filter.mpr ⟨List.mem_dedup.mpr hpattern, hok⟩)
  have hlength : room.length ≤ options.maxEntries := by
    rwa [List.length_map, ← List.countP_eq_length_filter]
  have hentries : store.manifest.entries =
      Store.insertAll .empty (log.flatMap Turn.recorded) := by
    rw [hrun]
    exact Store.run_entries hadds (fun key hkey => by cases hkey) hkeys hlength
  rw [Bool.eq_iff_iff, Store.contains, hfile, Storage.Dictionary.contains_iff, hentries,
    Store.mem_keys_insertAll, hlog]
  constructor
  · rintro (hnone | ⟨other, hother, hhash, hok⟩)
    · cases hnone
    · rwa [← hhashes other hother pattern hpattern hhash]
  · intro hok
    exact .inr ⟨pattern, hpattern, rfl, hok⟩

theorem countKnown_opening (site : Store.Site) (options : StoreOptions) (opened : Int64)
    (base : String) (patterns : List String) :
    (opening site options opened).countKnown base patterns =
      patterns.countP fun pattern => (Store.openAt site options opened).contains base pattern := by
  apply List.countP_congr
  simp [storeKnows?, opening]

end

/-! ## Main result -/

/-- Two analyses of one list without a deadline, the first with a fresh cache over a store that
finds no file and whose writes succeed, the second with a fresh cache over a store that is opened
on what the first left: the first knows nothing, the second knows every occurrence of a pattern
that compiles, and the assessments and failures are the same. Both analyses come to their end, and
the store needs room for the different patterns that compile. Compilations may take other times in
the second run. -/
theorem later_run_knows_compiles (first second : Engine)
    (hfirst : first.Delivers none) (hsecond : second.Delivers none)
    (hsame : second.compiler.ending = first.compiler.ending)
    (options others : StoreOptions) (opened reopened : Int64) (runId laterId base : String)
    (patterns : List String)
    (hroom : patterns.dedup.countP (first.compiler.compiles base) ≤ options.maxEntries)
    (hhashes : ∀ pattern ∈ patterns, ∀ other ∈ patterns,
      entryHash base pattern = entryHash base other → pattern = other) :
    let earlier := (opening {} options opened).analyze first runId base patterns none
    let later := (opening earlier.2.site others reopened).analyze second laterId base patterns none
    earlier.1.known = 0 ∧
      later.1.known = .ofNat (patterns.countP (first.compiler.compiles base)) ∧
      later.1.assessments = earlier.1.assessments ∧ later.1.failures = earlier.1.failures := by
  intro earlier later
  have fresh (site : Store.Site) (options : StoreOptions) (opened : Int64) :
      (opening site options opened).jobs = [] := rfl
  obtain ⟨hassessments, hfailures, hknown⟩ :=
    analyze_told hfirst (fresh {} options opened) runId base patterns
  obtain ⟨hlaterAssessments, hlaterFailures, hlaterKnown⟩ :=
    analyze_told hsecond (fresh earlier.2.site others reopened) laterId base patterns
  have htold : told second.compiler base = told first.compiler base := by
    funext pattern
    rw [told, told, Compiler.outcome_congr hsame]
  refine ⟨?_, ?_, ?_, ?_⟩
  · have hnone : (opening {} options opened).countKnown base patterns = 0 := by
      rw [countKnown_opening, List.countP_eq_zero]
      intro pattern _ hfound
      cases hfound
    exact hknown.trans (congrArg UInt64.ofNat hnone)
  · have hcount : (opening earlier.2.site others reopened).countKnown base patterns =
        patterns.countP (first.compiler.compiles base) := by
      rw [countKnown_opening]
      apply List.countP_congr
      intro pattern hpattern
      rw [openAt_contains hfirst opened runId hpattern hroom hhashes others reopened]
    exact hlaterKnown.trans (congrArg UInt64.ofNat hcount)
  · exact (hlaterAssessments.trans (by rw [htold])).trans hassessments.symm
  · exact (hlaterFailures.trans (by rw [htold])).trans hfailures.symm

/-- The store has room for one entry, which is what a list with a repetition and a pattern that does
not compile takes; the later run is told of both occurrences. -/
theorem repeated_pattern_known_twice :
    let patterns := ["/a", "/(", "/a"]
    let earlier := (opening {} ⟨1, 1⟩ 0).analyze {} "first" "" patterns none
    let later := (opening earlier.2.site {} 5).analyze {} "second" "" patterns none
    ({} : Engine).Delivers none ∧ patterns.dedup.countP (Compiler.standard.compiles "") ≤ 1 ∧
      (∀ pattern ∈ patterns, ∀ other ∈ patterns,
        entryHash "" pattern = entryHash "" other → pattern = other) ∧
      earlier.1.known = 0 ∧ later.1.known = .ofNat 2 ∧
      later.1.assessments = earlier.1.assessments ∧ later.1.failures = earlier.1.failures := by
  have hroom : ["/a", "/(", "/a"].dedup.countP (Compiler.standard.compiles "") ≤ 1 := by
    decide +kernel
  have hhashes : ∀ pattern ∈ ["/a", "/(", "/a"], ∀ other ∈ ["/a", "/(", "/a"],
      entryHash "" pattern = entryHash "" other → pattern = other := by decide +kernel
  have hcount : ["/a", "/(", "/a"].countP (Compiler.standard.compiles "") = 2 := by decide +kernel
  have hdelivers : ({} : Engine).Delivers none := .inl rfl
  have hknown := later_run_knows_compiles {} {} hdelivers hdelivers rfl ⟨1, 1⟩ {} 0 5 "first"
    "second" "" _ hroom hhashes
  rw [hcount] at hknown
  exact ⟨hdelivers, hroom, hhashes, hknown⟩

end Cache.Session

end RouteAudit
