import RouteAudit.Proofs.Analysis.Passes

/-! # Scores do not depend on compilations

However long compilations take, and whichever of them fail or crash, an analysis scores
every pattern by its text. Beside the scores each pattern of the list is compiled, or
failed, or late, and that is decided by what is known of it when the analysis ends: its
own compilation, or nothing, and nothing only at the deadline.
-/

namespace RouteAudit

/-- What happens to compilations: how long they take, which of them crash, and in what words a
crash and a regular expression that is none are told. -/
structure Script where
  delayMs : (base pattern : String) → Nat
  crashes : (base pattern : String) → Bool
  words : (base pattern : String) → Option String := fun _ _ => none
  diagnose : (regex : List Char) → Option String := fun _ => none

/-- The compiler that patterns are compiled with, slowed down by a script that also makes
some compilations crash. -/
def Compiler.scripted (script : Script) : Compiler where
  delayMs := script.delayMs
  ending base pattern :=
    if script.crashes base pattern then .crash (script.words base pattern)
    else .result (Matcher.compile pattern base script.diagnose)

/-- A matcher carries the facts of its text. -/
theorem Matcher.of_compile {pattern base : String} {diagnose : List Char → Option String}
    {matcher : Matcher} (h : Matcher.compile pattern base diagnose = .ok matcher) :
    matcher.pattern = pattern ∧ matcher.facts = .scan pattern := by
  unfold Matcher.compile at h
  dsimp only at h
  cases hread : (Template.read (Pattern.join pattern base).toList).mapError
      CompileError.invalidSyntax with
  | error error =>
      rw [hread] at h
      cases h
  | ok items =>
      rw [hread] at h
      dsimp only [bind, Except.bind] at h
      split at h
      next => cases h
      next =>
        obtain rfl := Except.ok.inj h
        exact ⟨rfl, rfl⟩

namespace Cache.Session

open Report (Failure)
open Risk (Assessment)

variable {engine : Engine} {s t : Session} {base pattern : String} {patterns : List String}

/-- Whatever came of a compilation, its pattern is assessed by its text. -/
theorem assessed_ofText (script : Script) {outcome : Option Outcome}
    (h : ∀ ended, outcome = some ended →
      ended = (Compiler.scripted script).outcome base pattern) :
    Assessment.ofFacts (assessed base (pattern, outcome)).pattern
      (assessed base (pattern, outcome)).facts = .ofText pattern := by
  rcases outcome with _ | entry | error
  · rfl
  · have hentry := h _ rfl
    unfold Compiler.outcome Compiler.scripted at hentry
    dsimp only at hentry
    split_ifs at hentry
    cases hcompile : Matcher.compile pattern base script.diagnose with
    | error error =>
        rw [hcompile] at hentry
        cases hentry
    | ok matcher =>
        rw [hcompile] at hentry
        obtain rfl := Outcome.compiled.inj hentry
        obtain ⟨hpattern, hfacts⟩ := Matcher.of_compile hcompile
        rw [assessed, Outcome.matcher, hpattern, hfacts]
        rfl
  · rfl

theorem firstWith_map (hpattern : pattern ∈ patterns) :
    firstWith (cacheKey base pattern) (patterns.map (base, ·)) = some (base, pattern) := by
  induction patterns with
  | nil => cases hpattern
  | cons first patterns ih =>
      rw [firstWith, List.map_cons, List.find?_cons]
      by_cases hsame : first = pattern
      · simp [hsame]
      · have hkey : cacheKey base first ≠ cacheKey base pattern := cacheKey_right_inj.not.mpr hsame
        rw [beq_eq_false_iff_ne.mpr hkey]
        exact ih ((List.mem_cons.mp hpattern).resolve_left (Ne.symm hsame))

/-- On one base every pattern is told of its own compilation. -/
theorem fate?_eq (hsound : s.Sound engine.compiler) (hrecalls : Recalls (patterns.map (base, ·)) s)
    (hpattern : pattern ∈ patterns) {outcome : Outcome}
    (hfate : s.fate? base pattern = some outcome) :
    outcome = engine.compiler.outcome base pattern := by
  obtain ⟨id, hfind, houtcome⟩ := Option.bind_eq_some_iff.mp hfate
  have hpair := hrecalls.first (cacheKey base pattern)
  rw [hfind, firstWith_map hpattern, Option.bind_some] at hpair
  exact hsound.outcome? hpair houtcome

theorem warmUp_recalls (engine : Engine) (fresh : s.jobs = []) (base : String)
    (patterns : List String) (deadline : Option Nat) :
    Recalls (patterns.map (base, ·)) (s.warmUp engine base patterns deadline).2 := by
  have hall := resolveAll_recalls (Recalls.of_no_jobs fresh) base patterns
  rw [List.nil_append] at hall
  have hwaits : Waits engine (s.resolveAll base patterns).2
      (s.warmUp engine base patterns deadline).2 := wait_waits _ deadline
  obtain ⟨horigins, hgeneration⟩ := hwaits.origins_eq
  exact hall.same_origins horigins hgeneration

/-- Both passes over a fresh session tell of every pattern what is known of it in the end.
That is what the compiler says of it, or nothing if the passes have come to the deadline. -/
theorem passes_spec (fresh : s.jobs = []) {deadline : Option Nat}
    (hdelivers : engine.Delivers deadline) (base : String) (patterns : List String) :
    let passed := passOver engine base deadline patterns (s.warmUp engine base patterns deadline).2
    passed.1 = patterns.map (fun pattern => (pattern, passed.2.fate? base pattern)) ∧
      ∀ pattern ∈ patterns,
        passed.2.fate? base pattern = some (engine.compiler.outcome base pattern) ∨
          passed.2.fate? base pattern = none ∧
            ∃ time, deadline = some time ∧ passed.2.now = max s.now time := by
  have hsound : s.Sound engine.compiler := .of_no_jobs fresh
  have hwarm := (warmUp_plays base patterns deadline).sound hsound
  have hrecalls := warmUp_recalls engine fresh base patterns deadline
  have hjobs := warmUp_jobs hsound hdelivers base patterns
  have hready := warmUp_ready hsound hdelivers base patterns
  generalize (s.warmUp engine base patterns deadline).2 = t at hwarm hrecalls hjobs hready ⊢
  obtain ⟨hresults, -, hnow, horigins, hgeneration⟩ := passOver_ready hdelivers hready
  have hpass : Plays engine t _ _ _ := passOver_plays base deadline patterns
  intro passed
  refine ⟨hresults, fun pattern hpattern => ?_⟩
  obtain ⟨id, hfind, hknown⟩ := hjobs pattern hpattern
  have hfate : passed.2.fate? base pattern = passed.2.outcome? id := by
    rw [fate?, find?_congr horigins hgeneration, hfind, Option.bind_some]
  cases houtcome : passed.2.outcome? id with
  | some outcome =>
      rw [houtcome] at hfate
      refine .inl (hfate.trans (congrArg some ?_))
      exact fate?_eq (hpass.sound hwarm) (hrecalls.same_origins horigins hgeneration) hpattern hfate
  | none =>
      refine .inr ⟨hfate.trans houtcome, ?_⟩
      rcases hknown with hknown | ⟨time, htime, hclock⟩
      · -- What the first pass knew the second would know.
        obtain ⟨outcome, hbefore⟩ := Option.isSome_iff_exists.mp hknown
        have hafter : passed.2.outcome? id = some outcome := hpass.onward.outcome? hbefore
        rw [houtcome] at hafter
        cases hafter
      · exact ⟨time, htime, hnow.trans hclock⟩

theorem flushStore_now (engine : Engine) : (s.flushStore engine).now = s.now := by
  unfold flushStore
  split <;> rfl

theorem filterMap_late (fate : String → Option Outcome) (patterns : List String) :
    (patterns.map fun pattern => (pattern, fate pattern)).filterMap late? =
      patterns.filter fun pattern => (fate pattern).isNone := by
  induction patterns with
  | nil => rfl
  | cons pattern patterns ih =>
      rw [List.map_cons, List.filter_cons, ← ih]
      cases hfate : fate pattern with
      | none => rfl
      | some outcome => rfl

/-- Of the patterns of a list each is compiled, failed or late. -/
theorem length_classes (fate : String → Option Outcome) (patterns : List String) :
    patterns.countP (fun pattern => (fate pattern).any Outcome.isCompiled) +
        (patterns.filterMap fun pattern => failure? (pattern, fate pattern)).length +
        (patterns.filter fun pattern => (fate pattern).isNone).length =
      patterns.length := by
  induction patterns with
  | nil => rfl
  | cons pattern patterns ih =>
      rw [List.countP_cons, List.filter_cons, List.length_cons, ← ih]
      rcases hfate : fate pattern with _ | entry | error
      · rw [List.filterMap_cons_none (by rw [hfate]; rfl)]
        simp only [Option.isNone_none, Option.any_none, if_true, Bool.false_eq_true, if_false,
          List.length_cons]
        omega
      · rw [List.filterMap_cons_none (by rw [hfate]; rfl)]
        simp only [Option.isNone_some, Option.any_some, Outcome.isCompiled, if_true,
          Bool.false_eq_true, if_false]
        omega
      · rw [List.filterMap_cons_some (by rw [hfate]; rfl)]
        simp only [Option.isNone_some, Option.any_some, Outcome.isCompiled, Bool.false_eq_true,
          if_false, List.length_cons]
        omega

/-! ## Main result -/

/-- An analysis of a fresh session under any script of delays and crashes scores the list by
its texts. What is known of a pattern when the analysis ends puts each of its occurrences
into one of three classes, in the order of the list: compiled, failed with the error of
its own compilation, or late. A pattern is late only if there is a deadline, the clock has
come to it and the compilation has still not settled. -/
theorem scores_keep_under_delays (script : Script) (epochMs : Nat) (s : Session)
    (fresh : s.jobs = []) (runId base : String) (patterns : List String)
    (limitMs : Option Nat) :
    let engine : Engine := { compiler := .scripted script, epochMs }
    let analysis := (s.analyze engine runId base patterns limitMs).1
    let after := (s.analyze engine runId base patterns limitMs).2
    analysis.assessments = patterns.map .ofText ∧
      analysis.failures =
        patterns.filterMap (fun pattern => failure? (pattern, after.fate? base pattern)) ∧
      analysis.timedOut = patterns.filter (fun pattern => (after.fate? base pattern).isNone) ∧
      patterns.countP (fun pattern => (after.fate? base pattern).any Outcome.isCompiled) +
          analysis.failures.length + analysis.timedOut.length = patterns.length ∧
      (∀ pattern ∈ patterns,
        after.fate? base pattern = some (engine.compiler.outcome base pattern) ∨
          after.fate? base pattern = none ∧
            ∃ limit, limitMs = some limit ∧ after.now = s.now + limit) ∧
      (limitMs = none → analysis.timedOut = []) := by
  intro engine
  have hdelivers : engine.Delivers (limitMs.map (s.now + ·)) := .inl rfl
  have hspec := passes_spec (s := (s.tell (.analysisStarted patterns.length base)).resetStats)
    fresh hdelivers base patterns
  unfold analyze
  dsimp only at hspec ⊢
  rw [show ((s.tell (.analysisStarted patterns.length base)).resetStats).now = s.now from rfl]
    at hspec ⊢
  generalize passOver engine base (limitMs.map (s.now + ·)) patterns _ = passed at hspec ⊢
  obtain ⟨results, t⟩ := passed
  obtain ⟨hresults, hfates⟩ := hspec
  dsimp only at hresults hfates ⊢
  have hfate (event : Event) (pattern : String) :
      ((t.flushStore engine).tellStats.tell event).fate? base pattern = t.fate? base pattern :=
    fate?_congr (t.flushStore_jobs engine) t.flushStore_generation
  simp only [hfate]
  have hlate : results.filterMap late? =
      patterns.filter fun pattern => (t.fate? base pattern).isNone := by
    rw [hresults, filterMap_late]
  have hclasses : ∀ pattern ∈ patterns,
      t.fate? base pattern = some (engine.compiler.outcome base pattern) ∨
        t.fate? base pattern = none ∧ ∃ limit, limitMs = some limit ∧
          ((t.flushStore engine).tellStats.tell
            (.analysisFinished patterns.length (results.filterMap failure?).length)).now =
              s.now + limit := by
    intro pattern hpattern
    refine (hfates pattern hpattern).imp_right fun ⟨hnone, time, htime, hnow⟩ => ⟨hnone, ?_⟩
    obtain ⟨limit, rfl, rfl⟩ := Option.map_eq_some_iff.mp htime
    refine ⟨limit, rfl, (t.flushStore_now engine).trans (hnow.trans ?_)⟩
    exact Nat.max_eq_right (Nat.le_add_right s.now limit)
  refine ⟨?_, ?_, hlate, ?_, hclasses, ?_⟩
  · rw [hresults, List.map_map]
    refine List.map_congr_left fun pattern hpattern => ?_
    refine assessed_ofText script fun ended hended => ?_
    rcases hclasses pattern hpattern with hknown | ⟨hnone, -⟩
    · exact Option.some.inj (hended.symm.trans hknown)
    · rw [hnone] at hended
      cases hended
  · rw [hresults, List.filterMap_map]
    rfl
  · rw [hlate, hresults, List.filterMap_map]
    exact length_classes (t.fate? base) patterns
  · rintro rfl
    rw [hlate, List.filter_eq_nil_iff]
    intro pattern hpattern hlate
    rcases hclasses pattern hpattern with hknown | ⟨-, limit, hlimit, -⟩
    · rw [hknown] at hlate
      cases hlate
    · cases hlimit

/-- Every compilation takes five milliseconds, and that of `/b` ends in a crash. -/
def slowScript : Script where
  delayMs _ _ := 5
  crashes _ pattern := pattern == "/b"
  words _ _ := some "no luck"

/-- After three milliseconds all occurrences are late and scored all the same; with time
enough only the crash is told, once for each occurrence. -/
theorem slow_list_scored_by_text :
    let engine : Engine := { compiler := .scripted slowScript }
    ({} : Session).jobs = [] ∧
      (({} : Session).analyze engine "run" "" ["/a", "/b", "/a"] (some 3)).1.timedOut =
        ["/a", "/b", "/a"] ∧
      (({} : Session).analyze engine "run" "" ["/a", "/b", "/a"] (some 3)).1.assessments =
        ["/a", "/b", "/a"].map .ofText ∧
      (({} : Session).analyze engine "run" "" ["/b", "/b"] (some 7)).1.failures =
        [⟨"/b", "compilation aborted: no luck"⟩, ⟨"/b", "compilation aborted: no luck"⟩] := by
  refine ⟨rfl, by decide, ?_, by decide⟩
  exact (scores_keep_under_delays slowScript 0 {} rfl "run" "" ["/a", "/b", "/a"]
    (some 3)).1

end Cache.Session

end RouteAudit
