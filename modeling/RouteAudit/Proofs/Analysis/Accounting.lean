import RouteAudit.Proofs.Analysis.Knowledge
import RouteAudit.Proofs.Cache.Counters

/-! # What a run counts

On a fresh cache the first pass of an analysis misses the first occurrence of each pattern and finds
every other one under way, and the second pass is answered at once. So is all of a second analysis
of the same list, which compiles nothing and reports the same (`runs_accounted`).
-/

namespace RouteAudit

theorem Compiler.outcome_standard (diagnose : List Char → Option String)
    (base pattern : String) : (Compiler.standard diagnose).outcome base pattern =
      match Matcher.compile pattern base diagnose with
      | .ok matcher => .compiled ⟨pattern, base, matcher⟩
      | .error error => .failed error := by
  unfold outcome standard
  dsimp only
  cases Matcher.compile pattern base diagnose <;> rfl

namespace Cache.Session

/-- The jobs of a session are one for each pattern of a list, on one base. -/
structure Lists (base : String) (patterns : List String) (s : Session) : Prop where
  own : ∀ job ∈ s.origins, job.generation = s.generation ∧ job.base = base
  nodup : (s.origins.map (·.pattern)).Nodup
  mem : ∀ pattern, pattern ∈ s.origins.map (·.pattern) ↔ pattern ∈ patterns

section

variable {engine : Engine} {s t : Session} {base pattern : String} {patterns before : List String}
  {job : Job} {outcome : Outcome} {id : Nat}

/-! ## One job for each pattern -/

namespace Lists

theorem of_no_jobs (fresh : s.jobs = []) : Lists base [] s := by
  have hnone : s.origins = [] := congrArg (List.map Job.origin) fresh
  constructor <;> simp [hnone]

theorem same_origins (h : Lists base patterns s) (horigins : t.origins = s.origins)
    (hgeneration : t.generation = s.generation) : Lists base patterns t where
  own := by
    rw [horigins, hgeneration]
    exact h.own
  nodup := horigins ▸ h.nodup
  mem := by
    rw [horigins]
    exact h.mem

theorem base_eq (h : Lists base patterns s) (hjob : job ∈ s.jobs) : job.base = base :=
  (h.own job.origin (List.mem_map_of_mem hjob)).2

theorem generation_eq (h : Lists base patterns s) (hjob : job ∈ s.jobs) :
    job.generation = s.generation :=
  (h.own job.origin (List.mem_map_of_mem hjob)).1

theorem pattern_mem (h : Lists base patterns s) (hjob : job ∈ s.jobs) : job.pattern ∈ patterns :=
  (h.mem job.pattern).mp (List.mem_map.mpr ⟨job.origin, List.mem_map_of_mem hjob, rfl⟩)

/-- The job that a pattern finds is the one that compiles it. -/
theorem pattern_of_find? (h : Lists base patterns s)
    (hfind : s.find? (cacheKey base pattern) = some id) :
    ∃ job, s.jobs[id]? = some job ∧ job.pattern = pattern := by
  obtain ⟨job, hjob, -, hkey⟩ := of_find? hfind
  rw [Job.key, h.base_eq (List.mem_of_getElem? hjob), cacheKey_right_inj] at hkey
  exact ⟨job, hjob, hkey⟩

theorem find?_eq_none_iff (h : Lists base patterns s) :
    s.find? (cacheKey base pattern) = none ↔ pattern ∉ patterns := by
  constructor
  · intro hnone hpattern
    obtain ⟨origin, horigin, rfl⟩ := List.mem_map.mp ((h.mem pattern).mpr hpattern)
    obtain ⟨hgeneration, hbase⟩ := h.own origin horigin
    rw [find?_eq_origins, List.findIdx?_eq_none_iff] at hnone
    have hother := hnone origin horigin
    simp [hgeneration, Job.key, hbase] at hother
  · intro hpattern
    by_contra hsome
    obtain ⟨id, hfind⟩ := Option.ne_none_iff_exists'.mp hsome
    obtain ⟨job, hjob, rfl⟩ := h.pattern_of_find? hfind
    exact hpattern (h.pattern_mem (List.mem_of_getElem? hjob))

/-- A lookup starts a job for its pattern if there is none. -/
theorem resolve (h : Lists base before s) (pattern : String) :
    Lists base (before ++ [pattern]) (s.resolve base pattern).2 := by
  have hgeneration := s.resolve_generation base pattern
  rcases s.resolve_cases base pattern with ⟨hfind, hjobs⟩ | ⟨hnone, -, hjobs⟩
  · have hseen : pattern ∈ before := by
      by_contra hnew
      rw [h.find?_eq_none_iff.mpr hnew] at hfind
      cases hfind
    have hsame := h.same_origins (congrArg (List.map Job.origin) hjobs) hgeneration
    refine ⟨hsame.own, hsame.nodup, fun other => (hsame.mem other).trans ?_⟩
    rw [List.mem_append, List.mem_singleton]
    exact ⟨.inl, fun hor => hor.elim id fun hother => hother ▸ hseen⟩
  · have hnew := h.find?_eq_none_iff.mp hnone
    have horigins : (s.resolve base pattern).2.origins =
        s.origins ++ [{ generation := s.generation, base, pattern }] := by
      rw [origins, hjobs, List.map_append]
      rfl
    refine ⟨?_, ?_, fun other => ?_⟩
    · rw [horigins, hgeneration]
      intro job hjob
      rcases List.mem_append.mp hjob with hjob | hjob
      · exact h.own job hjob
      · rw [List.mem_singleton.mp hjob]
        exact ⟨rfl, rfl⟩
    · rw [horigins, List.map_append, List.nodup_append]
      refine ⟨h.nodup, List.nodup_singleton _, ?_⟩
      rintro first hfirst second hsecond rfl
      obtain rfl := List.mem_singleton.mp hsecond
      exact hnew ((h.mem _).mp hfirst)
    · rw [horigins, List.map_append, List.mem_append, List.mem_append, h.mem]
      rfl

theorem resolveAll (h : Lists base before s) (patterns : List String) :
    Lists base (before ++ patterns) (s.resolveAll base patterns).2 := by
  induction patterns generalizing before s with
  | nil =>
      rw [List.append_nil]
      exact h
  | cons pattern patterns ih =>
      have hrest := ih (h.resolve pattern)
      rw [List.append_assoc] at hrest
      exact hrest

theorem perm (h : Lists base patterns s) : (s.jobs.map (·.pattern)).Perm patterns.dedup := by
  have hpatterns : s.jobs.map (·.pattern) = s.origins.map (·.pattern) := by
    rw [origins, List.map_map]
    rfl
  rw [hpatterns, List.perm_ext_iff_of_nodup h.nodup patterns.nodup_dedup]
  intro pattern
  rw [h.mem, List.mem_dedup]

theorem length_eq (h : Lists base patterns s) : s.jobs.length = patterns.dedup.length := by
  rw [← h.perm.length_eq, List.length_map]

/-- Where all patterns are known, every job has come to its end. -/
theorem isOver (h : Lists base patterns s) (hknown : ∀ p ∈ patterns, (s.fate? base p).isSome)
    (hjob : job ∈ s.jobs) : job.isOver := by
  obtain ⟨outcome, hfate⟩ := Option.isSome_iff_exists.mp (hknown job.pattern (h.pattern_mem hjob))
  obtain ⟨id, hfind, houtcome⟩ := Option.bind_eq_some_iff.mp hfate
  obtain ⟨other, hother, hpattern⟩ := h.pattern_of_find? hfind
  obtain rfl : other = job := List.inj_on_of_nodup_map
    (h.perm.nodup_iff.mpr patterns.nodup_dedup) (List.mem_of_getElem? hother) hjob hpattern
  obtain ⟨generation, base, pattern, phase⟩ := other
  cases phase with
  | settled => rfl
  | queued | asleep | crashed => simp [outcome?, hother] at houtcome

/-- As many compilations have failed then as different patterns do not compile. -/
theorem failed_eq (h : Lists base patterns s) (hknown : ∀ p ∈ patterns, (s.fate? base p).isSome) :
    s.failed engine = patterns.dedup.countP (engine.compiler.errs base) := by
  rw [← h.perm.countP_eq, List.countP_map, failed]
  refine List.countP_congr fun job hjob => ?_
  simp [Job.hasFailed, h.generation_eq hjob, h.base_eq hjob, h.isOver hknown hjob]

end Lists

/-! ## Patterns that are known -/

@[simp]
theorem fate?_setCounters (counters : Counters) :
    (s.setCounters counters).fate? base pattern = s.fate? base pattern := fate?_congr rfl rfl

/-- Nobody has to wait for a pattern that is known. -/
theorem resolveOutcome_of_known (engine : Engine) (hfate : s.fate? base pattern = some outcome) :
    s.resolveOutcome engine base pattern =
      (some outcome, s.setCounters (s.cache.counters.count .sync)) := by
  obtain ⟨id, houtcome, hresolve⟩ := resolve_of_known hfate
  have hknown : (s.setCounters (s.cache.counters.count .sync)).outcome? id = some outcome :=
    houtcome
  rw [resolveOutcome, hresolve]
  dsimp only
  rw [await, wait_of_known engine none hknown]
  dsimp only
  rw [hknown]

/-- A row of lookups that are all answered at once. -/
def countSync (s : Session) (n : Nat) : Session :=
  s.setCounters (s.cache.counters.countAll (.replicate n .sync))

theorem passOver_of_known (engine : Engine)
    (hknown : ∀ p ∈ patterns, (s.fate? base p).isSome) :
    passOver engine base none patterns s =
      (patterns.map fun p => (p, s.fate? base p), s.countSync patterns.length) := by
  induction patterns generalizing s with
  | nil => rfl
  | cons pattern patterns ih =>
      obtain ⟨hfirst, hrest⟩ := List.forall_mem_cons.mp hknown
      obtain ⟨outcome, hfate⟩ := Option.isSome_iff_exists.mp hfirst
      rw [passOver]
      dsimp only
      rw [resolveOutcome_of_known engine hfate, ih (by simpa using hrest), List.map_cons, hfate]
      simp only [fate?_setCounters]
      rfl

theorem resolveAll_of_known (hknown : ∀ p ∈ patterns, (s.fate? base p).isSome) :
    pendingJobs (s.resolveAll base patterns).1 = [] ∧
      (s.resolveAll base patterns).2 = s.countSync patterns.length := by
  induction patterns generalizing s with
  | nil => exact ⟨rfl, rfl⟩
  | cons pattern patterns ih =>
      obtain ⟨hfirst, hrest⟩ := List.forall_mem_cons.mp hknown
      obtain ⟨outcome, hfate⟩ := Option.isSome_iff_exists.mp hfirst
      obtain ⟨id, -, hresolve⟩ := resolve_of_known hfate
      obtain ⟨hpending, hlast⟩ :=
        ih (s := s.setCounters (s.cache.counters.count .sync)) (by simpa using hrest)
      rw [resolveAll, hresolve]
      dsimp only
      rw [pendingJobs_cons, if_pos rfl, hpending, hlast]
      exact ⟨rfl, rfl⟩

/-- The first pass over patterns that are all known waits for nothing. -/
theorem warmUp_of_known (engine : Engine) (hknown : ∀ p ∈ patterns, (s.fate? base p).isSome) :
    (s.warmUp engine base patterns none).2 = s.countSync patterns.length := by
  obtain ⟨hpending, hlast⟩ := resolveAll_of_known hknown
  rw [warmUp]
  dsimp only
  rw [hpending, hlast, wait_of_knows engine none rfl]

/-! ## The first pass on a fresh cache -/

theorem warmUp_known (hdelivers : engine.Delivers none) (fresh : s.jobs = []) (base : String)
    (patterns : List String) :
    ∀ p ∈ patterns, ((s.warmUp engine base patterns none).2.fate? base p).isSome := by
  intro pattern hpattern
  obtain ⟨id, hfind, hknown⟩ := warmUp_ready (.of_no_jobs fresh) hdelivers base patterns pattern
    hpattern
  rw [fate?, hfind, Option.bind_some]
  simpa using hknown

/-- The first pass misses each pattern once, finds every other occurrence under way, and counts an
error for each pattern that does not compile. -/
theorem warmUp_counters (hdelivers : engine.Delivers none) (fresh : s.jobs = [])
    (hcounters : s.cache.counters = {}) (base : String) (patterns : List String) :
    (s.warmUp engine base patterns none).2.cache.counters =
      { hits := .ofNat (patterns.length - patterns.dedup.length)
        misses := .ofNat patterns.dedup.length
        errors := .ofNat (patterns.dedup.countP (engine.compiler.errs base)) } := by
  have hlists : Lists base patterns (s.resolveAll base patterns).2 :=
    (Lists.of_no_jobs fresh).resolveAll patterns
  have hwaits : Waits engine (s.resolveAll base patterns).2
      (s.warmUp engine base patterns none).2 := wait_waits _ none
  obtain ⟨horigins, hgeneration⟩ := hwaits.origins_eq
  have hfailed : (s.warmUp engine base patterns none).2.failed engine =
      patterns.dedup.countP (engine.compiler.errs base) :=
    (hlists.same_origins horigins hgeneration).failed_eq
      (warmUp_known hdelivers fresh base patterns)
  obtain ⟨n, hmore, hcounted⟩ := hwaits.counts
  have hnone : (s.resolveAll base patterns).2.failed engine = 0 := by
    rw [resolveAll_failed, failed, fresh]
    rfl
  have hsync := s.resolveAll_sync (by simp [fresh]) base patterns
  have hmisses := s.resolveAll_misses base patterns
  rw [hlists.length_eq, fresh] at hmisses
  have hmodes := LookupMode.count_modes ((s.resolveAll base patterns).1.map (·.mode))
  rw [List.length_map, length_resolveAll] at hmodes
  have hasync : ((s.resolveAll base patterns).1.map (·.mode)).count .async =
      patterns.length - patterns.dedup.length := by
    rw [List.length_nil] at hmisses
    omega
  rw [List.length_nil, Nat.zero_add] at hmisses
  rw [hcounted, resolveAll_counters, Counters.countAll_eq, hcounters, hsync, ← hmisses, hasync,
    ← hfailed, hmore, hnone]
  simp [Counters.addErrors]

/-! ## Runs -/

/-- The session that the two passes of an analysis leave. -/
def passed (engine : Engine) (s : Session) (base : String) (patterns : List String) : Session :=
  (passOver engine base none patterns
    (((s.tell (.analysisStarted patterns.length base)).resetStats).warmUp engine base patterns
      none).2).2

theorem analyze_cache (engine : Engine) (s : Session) (runId base : String)
    (patterns : List String) : (s.analyze engine runId base patterns none).1.cache =
      (s.passed engine base patterns).cache.stats :=
  congrArg Counters.snapshot (flushStore_counters engine (s.passed engine base patterns))

theorem analyze_jobs (engine : Engine) (s : Session) (runId base : String)
    (patterns : List String) : (s.analyze engine runId base patterns none).2.jobs =
      (s.passed engine base patterns).jobs :=
  flushStore_jobs engine (s.passed engine base patterns)

theorem countSync_counters (s : Session) (n : Nat) : (s.countSync n).cache.counters =
    { s.cache.counters with
      hits := s.cache.counters.hits + .ofNat n
      syncHits := s.cache.counters.syncHits + .ofNat n } := by
  simp [countSync, setCounters, Counters.countAll_eq, List.count_replicate]

/-- What the first run over a list on a fresh cache counts. -/
theorem first_run_stats (hdelivers : engine.Delivers none) (fresh : s.jobs = [])
    (runId base : String) (patterns : List String) :
    (s.analyze engine runId base patterns none).1.cache = Counters.snapshot {
        hits := .ofNat (2 * patterns.length - patterns.dedup.length)
        misses := .ofNat patterns.dedup.length
        syncHits := .ofNat patterns.length
        errors := .ofNat (patterns.dedup.countP (engine.compiler.errs base)) } := by
  have fresh' : ((s.tell (.analysisStarted patterns.length base)).resetStats).jobs = [] := fresh
  have hwarm := warmUp_counters hdelivers fresh' rfl base patterns
  have hless : patterns.dedup.length ≤ patterns.length := (List.dedup_sublist patterns).length_le
  have hhits : 2 * patterns.length - patterns.dedup.length =
      patterns.length - patterns.dedup.length + patterns.length := by omega
  rw [analyze_cache, passed, passOver_of_known engine (warmUp_known hdelivers fresh' base patterns),
    Generation.stats, countSync_counters, hwarm, hhits]
  simp

/-- A run over patterns that are all known compiles nothing and reports what is known. -/
theorem known_run (engine : Engine) (runId : String)
    (hknown : ∀ p ∈ patterns, s.fate? base p = some (engine.compiler.outcome base p)) :
    let run := s.analyze engine runId base patterns none
    run.1.cache =
        { hits := .ofNat (2 * patterns.length), syncHits := .ofNat (2 * patterns.length) } ∧
      run.2.jobs = s.jobs ∧
      run.1.assessments = (patterns.map (told engine.compiler base)).map (fun result =>
        .ofFacts (assessed base result).pattern (assessed base result).facts) ∧
      run.1.failures = (patterns.map (told engine.compiler base)).filterMap failure? := by
  intro run
  have hsome : ∀ p ∈ patterns,
      (((s.tell (.analysisStarted patterns.length base)).resetStats).fate? base p).isSome := by
    intro p hp
    have hfate : ((s.tell (.analysisStarted patterns.length base)).resetStats).fate? base p =
        s.fate? base p := fate?_congr rfl rfl
    rw [hfate, hknown p hp]
    rfl
  have hwarm := warmUp_of_known engine hsome
  have hcounted : ∀ p ∈ patterns, ((((s.tell (.analysisStarted patterns.length
      base)).resetStats).countSync patterns.length).fate? base p).isSome := by
    simpa [countSync] using hsome
  have hpass := passOver_of_known engine hcounted
  have hresults : (patterns.map fun p => (p, (((s.tell (.analysisStarted patterns.length
      base)).resetStats).countSync patterns.length).fate? base p)) =
        patterns.map (told engine.compiler base) := by
    refine List.map_congr_left fun p hp => ?_
    have hfate : (((s.tell (.analysisStarted patterns.length base)).resetStats).countSync
        patterns.length).fate? base p = s.fate? base p := fate?_congr rfl rfl
    rw [hfate, hknown p hp, told]
  rw [hresults] at hpass
  refine ⟨?_, ?_, ?_, ?_⟩
  · rw [analyze_cache, passed, hwarm, hpass, Generation.stats, countSync_counters,
      countSync_counters, ← Counters.snapshot_of_sync]
    simp [resetStats, setCounters, Nat.two_mul]
  · rw [analyze_jobs, passed, hwarm, hpass]
    rfl
  · simp only [run, analyze, Option.map_none, hwarm, hpass]
  · simp only [run, analyze, Option.map_none, hwarm, hpass]

end

theorem errs_standard (diagnose : List Char → Option String) (base pattern : String) :
    (Compiler.standard diagnose).errs base pattern =
      !(Matcher.compile pattern base diagnose).isOk := by
  unfold Compiler.errs Compiler.standard
  dsimp only
  cases Matcher.compile pattern base diagnose <;> rfl

theorem failures_standard (diagnose : List Char → Option String) (base : String)
    (patterns : List String) :
    (patterns.map (told (Compiler.standard diagnose) base)).filterMap failure? =
      patterns.filterMap fun p =>
        match Matcher.compile p base diagnose with
        | .error error => some ⟨p, error.message⟩
        | .ok _ => none := by
  rw [List.filterMap_map]
  refine List.filterMap_congr fun p _ => ?_
  rw [Function.comp_apply, told, Compiler.outcome_standard]
  cases Matcher.compile p base diagnose <;> rfl

/-! ## Main result -/

/-- Of a list of `n` patterns with `d` different ones a run on a fresh cache with the standard
compiler and no deadline counts `d` misses, one hit for every other occurrence under way and `n`
hits at once, and an error for each pattern that does not compile; its failures are the occurrences
that do not compile, in order, with what is wrong, in whatever words that is said. A second run on
the same cache is answered at once throughout, starts no compilation and reports the same. -/
theorem runs_accounted (diagnose : List Char → Option String) (drive : Drive) (epochMs : Nat)
    (s : Session) (fresh : s.jobs = []) (runId laterId base : String) (patterns : List String) :
    let engine : Engine := { compiler := .standard diagnose, drive, epochMs }
    let first := s.analyze engine runId base patterns none
    let second := first.2.analyze engine laterId base patterns none
    let n := patterns.length
    let d := patterns.dedup.length
    let errors := patterns.dedup.countP fun p => !(Matcher.compile p base diagnose).isOk
    first.1.cache = Counters.snapshot {
        hits := .ofNat (2 * n - d)
        misses := .ofNat d
        syncHits := .ofNat n
        errors := .ofNat errors } ∧
      (2 * n - d < 2 ^ 64 → first.1.cache = {
        hits := .ofNat (2 * n - d)
        misses := .ofNat d
        syncHits := .ofNat n
        asyncHits := .ofNat (n - d)
        errors := .ofNat errors }) ∧
      first.1.failures = patterns.filterMap (fun p =>
        match Matcher.compile p base diagnose with
        | .error error => some ⟨p, error.message⟩
        | .ok _ => none) ∧
      second.1.cache = { hits := .ofNat (2 * n), syncHits := .ofNat (2 * n) } ∧
      second.2.jobs = first.2.jobs ∧ second.2.calls = first.2.calls ∧
      second.1.assessments = first.1.assessments ∧ second.1.failures = first.1.failures := by
  intro engine first second n d errors
  have hdelivers : engine.Delivers none := .inr ⟨rfl, fun _ _ => rfl⟩
  have hfirst := first_run_stats hdelivers fresh runId base patterns
  obtain ⟨hassessments, hfailures, -⟩ := analyze_told hdelivers fresh runId base patterns
  obtain ⟨hsecond, hjobs, hlaterAssessments, hlaterFailures⟩ := known_run engine laterId
    fun p hp => analyze_fate? hdelivers fresh runId base hp
  have herrs : engine.compiler.errs base = fun p => !(Matcher.compile p base diagnose).isOk :=
    funext fun p => errs_standard diagnose base p
  rw [herrs] at hfirst
  refine ⟨hfirst, fun hfits => ?_, hfailures.trans (failures_standard diagnose base patterns),
    hsecond, hjobs, ?_, ?_, ?_⟩
  · have hless : d ≤ n := (List.dedup_sublist patterns).length_le
    have hhits : 2 * n - d = n + (n - d) := by omega
    exact hfirst.trans (Counters.snapshot_of_fits _ n (n - d) (congrArg UInt64.ofNat hhits) rfl
      (hhits ▸ hfits))
  · rw [calls, hjobs, calls]
  · exact hlaterAssessments.trans hassessments.symm
  · exact hlaterFailures.trans hfailures.symm

/-- Of three occurrences of two patterns one is found under way and one pattern does not compile. -/
theorem repeated_list_accounted :
    let patterns := ["/a", "/(", "/a"]
    let first := ({} : Session).analyze {} "first" "" patterns none
    let second := first.2.analyze {} "second" "" patterns none
    ({} : Session).jobs = [] ∧ first.1.cache = ⟨4, 2, 3, 1, 1⟩ ∧
      second.1.cache = ⟨6, 0, 6, 0, 0⟩ ∧ second.2.calls = first.2.calls := by
  intro patterns first second
  have herrors : ["/a", "/(", "/a"].dedup.countP
      (fun p => !(Matcher.compile p "").isOk) = 1 := by decide +kernel
  have hdistinct : ["/a", "/(", "/a"].dedup.length = 2 := by decide
  obtain ⟨-, hfirst, -, hsecond, -, hcalls, -⟩ :=
    runs_accounted (fun _ => none) .eager 0 {} rfl "first" "second" "" ["/a", "/(", "/a"]
  rw [herrors, hdistinct] at hfirst
  have hfirst := hfirst (by decide)
  refine ⟨rfl, ?_, ?_, hcalls⟩
  · rw [hfirst]
    decide
  · rw [hsecond]
    decide

end Cache.Session

end RouteAudit
