import RouteAudit.Proofs.Cache.Keys
import RouteAudit.Proofs.Cache.Waiting

/-! # Where an outcome comes from

A job knows nothing of the lookup that waits for it: what it comes to is what the
compiler says of the pair that it was started for. The pair that was looked up first
with a key therefore answers for every pair with that key, and a lookup is told about
its own pair exactly if no pair that clashes with it came first
(`told_of_first_pair`).
-/

namespace RouteAudit

namespace Cache

namespace Session

section

variable {engine : Engine} {s t : Session}

/-- Whoever waits for a job without a deadline is told the outcome of its pair. -/
theorem await_spec (h : s.Sound engine.compiler) (hdelivers : engine.Delivers none) {id : Nat}
    {pair : String × String} (hpair : s.pair? id = some pair) :
    (s.await engine id).1 = some (engine.compiler.outcome pair.1 pair.2) := by
  have hplace : ∀ other ∈ [id], other < s.jobs.length := by
    intro other hother
    obtain rfl := List.mem_singleton.mp hother
    obtain ⟨job, hjob, -⟩ := Option.map_eq_some_iff.mp hpair
    exact (List.getElem?_eq_some_iff.mp hjob).1
  have hwaits : Waits engine s _ := wait_waits (some [id]) none
  obtain ⟨hdone, hlate⟩ := wait_spec h hplace hdelivers
  unfold await
  dsimp only
  generalize s.wait engine (some [id]) none = waited at hwaits hdone hlate ⊢
  obtain ⟨done, t⟩ := waited
  cases done with
  | false =>
      obtain ⟨-, time, hnone, -⟩ := hlate rfl
      cases hnone
  | true =>
      have hknown : (t.outcome? id).isSome := by simpa [knows] using hdone rfl
      obtain ⟨outcome, houtcome⟩ := Option.isSome_iff_exists.mp hknown
      dsimp only
      rw [houtcome, (hwaits.sound h).outcome? (hwaits.onward.pair? hpair) houtcome]

/-- What a caller is told who looks a pair up after some moves and waits for its outcome
after some more. -/
def toldAfter (engine : Engine) (s : Session) (before : List Move) (base pattern : String)
    (after : List Move) : Option Outcome :=
  let (answer, s) := (s.moves engine before).2.resolve base pattern
  ((s.moves engine after).2.await engine answer.job).1

end

end Session

/-! ## The pair that answers -/

/-- The pair that a lookup is told about after some pairs were looked up. -/
def answering (pairs : List (String × String)) (pair : String × String) : String × String :=
  (firstWith (cacheKey pair.1 pair.2) pairs).getD pair

/-- A pair answers for itself unless one that clashes with it was looked up before it. -/
theorem answering_eq_iff {pairs : List (String × String)} {pair : String × String} :
    answering pairs pair = pair ↔ ∀ other ∈ pairs.takeWhile (· ≠ pair), ¬ Clash other pair := by
  induction pairs with
  | nil => simp [answering, firstWith]
  | cons first rest ih =>
      by_cases hsame : first = pair
      · subst hsame
        simp [answering, firstWith]
      · rw [List.takeWhile_cons_of_pos (by simpa using hsame), List.forall_mem_cons]
        by_cases hkey : cacheKey first.1 first.2 = cacheKey pair.1 pair.2
        · have hclash : Clash first pair := (cacheKey_eq_iff.mp hkey).resolve_left hsame
          have hfirst : answering (first :: rest) pair = first := by
            simp [answering, firstWith, hkey]
          rw [hfirst]
          exact iff_of_false hsame fun hnone => hnone.1 hclash
        · have hclash : ¬ Clash first pair := fun h => hkey (cacheKey_eq_iff.mpr (.inr h))
          have hrest : answering (first :: rest) pair = answering rest pair := by
            simp [answering, firstWith, hkey]
          rw [hrest, ih]
          exact (and_iff_right hclash).symm

namespace Session

theorem toldAfter_eq {engine : Engine} (hdelivers : engine.Delivers none) {s : Session}
    (fresh : s.jobs = []) (before after : List Move) (base pattern : String) :
    s.toldAfter engine before base pattern after =
      some (engine.compiler.outcome (answering (lookedUp before) (base, pattern)).1
        (answering (lookedUp before) (base, pattern)).2) := by
  have hmoves := (Sound.of_no_jobs fresh : s.Sound engine.compiler).moves before
  have hrecalls : Recalls (lookedUp before) (s.moves engine before).2 :=
    (Recalls.of_no_jobs fresh).moves before
  unfold toldAfter
  dsimp only
  generalize (s.moves engine before).2 = t at hmoves hrecalls ⊢
  have hlooked := hrecalls.lookup base pattern
  have hpair : (t.resolve base pattern).2.pair? (t.resolve base pattern).1.job =
      some (answering (lookedUp before) (base, pattern)) := by
    have hfirst := hlooked.first (cacheKey base pattern)
    rw [find?_resolve, if_pos rfl, Option.bind_some] at hfirst
    rw [hfirst, Recalls.firstWith_concat, if_pos rfl, answering]
    cases firstWith (cacheKey base pattern) (lookedUp before) with
    | none => rfl
    | some first => rfl
  exact await_spec ((hmoves.resolve base pattern).moves after) hdelivers
    ((onward_moves after).pair? hpair)

end Session

/-! ## Main result -/

/-- On a session in which nothing was looked up yet, a lookup is told what the compiler
says of the pair that was looked up first with its key, unless it works itself and something
crashes. So every compiler that does not
crash is seen through the cache exactly if no pair that clashes with the pair of the
lookup was looked up before it; otherwise a matcher that is told belongs to that other
pair. -/
theorem told_of_first_pair (s : Session) (fresh : s.jobs = []) (before after : List Move)
    (base pattern : String) :
    (∀ engine : Engine, engine.Delivers none →
      let first := answering (lookedUp before) (base, pattern)
      s.toldAfter engine before base pattern after =
          some (engine.compiler.outcome first.1 first.2) ∧
        ∀ entry, s.toldAfter engine before base pattern after = some (.compiled entry) →
          (entry.base, entry.pattern) = first) ∧
      ((∀ engine : Engine, (∀ b p, (engine.compiler.crashes b p = false)) →
          s.toldAfter engine before base pattern after =
            some (engine.compiler.outcome base pattern)) ↔
        ∀ other ∈ (lookedUp before).takeWhile (· ≠ (base, pattern)),
          ¬ Clash other (base, pattern)) := by
  have htold {engine : Engine} (hdelivers : engine.Delivers none) :=
    Session.toldAfter_eq hdelivers fresh before after base pattern
  refine ⟨fun engine hdelivers => ⟨htold hdelivers, fun entry hentry => ?_⟩, ?_⟩
  · rw [htold hdelivers] at hentry
    obtain ⟨hbase, hpattern⟩ := Compiler.entry_of_outcome (Option.some.inj hentry)
    exact Prod.ext hbase hpattern
  · rw [← answering_eq_iff]
    constructor
    · intro hown
      -- A compiler that gives every pair a matcher tells the pairs apart.
      let engine : Engine :=
        { compiler := { Compiler.standard with
            ending := fun base pattern => .result (.ok (.sentinel pattern base)) } }
      have hanswer := hown engine fun _ _ => rfl
      rw [htold (.inl rfl)] at hanswer
      have hentry := Compiled.mk.inj (Outcome.compiled.inj (Option.some.inj hanswer))
      exact Prod.ext hentry.2.1 hentry.1
    · intro hfirst engine hcalm
      rw [htold (.inr ⟨rfl, hcalm⟩), hfirst]

/-- Once `b::c` was looked up on `a`, a lookup of `c` on `a::b` is not told about itself. -/
theorem clash_is_not_seen_through :
    ({} : Session).jobs = [] ∧ Clash ("a", "b::c") ("a::b", "c") ∧
      ¬ ∀ engine : Engine, (∀ b p, (engine.compiler.crashes b p = false)) →
        ({} : Session).toldAfter engine [.lookup "a" "b::c"] "a::b" "c" [] =
          some (engine.compiler.outcome "a::b" "c") := by
  have hclash : Clash ("a", "b::c") ("a::b", "c") := .inl (.inr ⟨"b", rfl, rfl⟩)
  refine ⟨rfl, hclash, fun hown => ?_⟩
  have hnone := (told_of_first_pair {} rfl [.lookup "a" "b::c"] [] "a::b" "c").2.mp hown
  exact hnone ("a", "b::c") (by decide) hclash

end Cache

end RouteAudit
