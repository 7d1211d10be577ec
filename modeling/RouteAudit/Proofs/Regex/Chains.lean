import RouteAudit.Proofs.Regex.Search

/-! # Expressions as chains of atoms

An expression that repeats nothing but characters of a set without limit is a choice between
chains of atoms (`Expr.chains`). Where a match starts, one of the chains occurs
(`isMatch_iff_occurs`), and whether a chain occurs depends on the character before and on the
text behind alone, not on where in a text they are.
-/

namespace RouteAudit.Regex

open RouteAudit.Text (Spot)

/-- A character of a set, a stretch of such characters that is not empty, or an assertion. -/
inductive Atom where
  | one (chars : CharSet)
  | many (chars : CharSet)
  | look (assertion : Look)
  deriving Repr, BEq, DecidableEq

/-- Atoms that occur one behind the other. -/
abbrev Chain := List Atom

/-- The chain occurs where the text starts, behind a character or at the start of all text. -/
def Chain.Occurs : Chain → Option Char → List Char → Prop
  | [], _, _ => True
  | .one chars :: chain, _, text =>
    ∃ c rest, text = c :: rest ∧ c ∈ chars ∧ Chain.Occurs chain (some c) rest
  | .many chars :: chain, _, text =>
    ∃ start c rest, text = start ++ c :: rest ∧ (∀ d ∈ start, d ∈ chars) ∧ c ∈ chars ∧
      Chain.Occurs chain (some c) rest
  | .look assertion :: chain, before, text =>
    assertion.holdsBetween before text.head? ∧ Chain.Occurs chain before text

namespace Chain

/-- Every chain of some with every chain of others behind. -/
def joined (chains others : List Chain) : List Chain :=
  chains.flatMap fun chain => others.map (chain ++ ·)

/-- As many chains as given, one behind the other. -/
def powers (chains : List Chain) : Nat → List Chain
  | 0 => [[]]
  | k + 1 => joined chains (powers chains k)

theorem mem_joined {chains others : List Chain} {chain : Chain} :
    chain ∈ joined chains others ↔
      ∃ first ∈ chains, ∃ second ∈ others, chain = first ++ second := by
  simp [joined, eq_comm]

end Chain

namespace Expr

/-- The chains that an expression is a choice between. -/
def chains : Expr → List Chain
  | empty => [[]]
  | set chars => [[.one chars]]
  | look assertion => [[.look assertion]]
  | cat first second => Chain.joined first.chains second.chains
  | alt first second => first.chains ++ second.chains
  | repeated _ least (some most) body =>
    (List.range' least (most + 1 - least)).flatMap (Chain.powers body.chains)
  | repeated _ 0 none (set chars) => [[], [.many chars]]
  | repeated _ 1 none (set chars) => [[.many chars]]
  | repeated _ _ none _ => []
  | group _ body => body.chains

/-- Whether the chains of an expression tell all of its matches. -/
def unrolls : Expr → Bool
  | empty | set _ | look _ => true
  | cat first second | alt first second => first.unrolls && second.unrolls
  | repeated _ _ (some _) body => body.unrolls
  | repeated _ least none (set _) => least ≤ 1
  | repeated _ _ none _ => false
  | group _ body => body.unrolls

/-- Matches of the expression with anything behind them are occurrences of its chains with the same
behind. -/
def Unrolled (e : Expr) : Prop :=
  ∀ chain s, (∃ t, e.Matches s t ∧ Chain.Occurs chain t.before t.rest) ↔
    ∃ first ∈ e.chains, Chain.Occurs (first ++ chain) s.before s.rest

section

variable {first second body : Expr} {greedy : Bool} {chars : CharSet} {s : Spot}

theorem unrolled_set (chars : CharSet) : (set chars).Unrolled := by
  intro chain s
  obtain ⟨index, before, rest⟩ := s
  cases rest with
  | nil => simp [matches_set_iff, chains, Chain.Occurs, Spot.next?]
  | cons c rest => simp [matches_set_iff, chains, Chain.Occurs, Spot.next?]

theorem unrolled_look (assertion : Look) : (look assertion).Unrolled := by
  intro chain s
  simp [matches_look_iff, chains, Chain.Occurs, Look.holds, Spot.after]

theorem Unrolled.cat (hfirst : first.Unrolled) (hsecond : second.Unrolled) :
    (Expr.cat first second).Unrolled := by
  intro chain s
  simp only [matches_cat_iff, chains, Chain.mem_joined]
  constructor
  · rintro ⟨u, ⟨t, hst, htu⟩, hoccurs⟩
    obtain ⟨later, hlater, hlaterOccurs⟩ := (hsecond chain t).mp ⟨u, htu, hoccurs⟩
    obtain ⟨start, hstart, hstartOccurs⟩ := (hfirst (later ++ chain) s).mp ⟨t, hst, hlaterOccurs⟩
    exact ⟨_, ⟨start, hstart, later, hlater, rfl⟩, by rwa [List.append_assoc]⟩
  · rintro ⟨_, ⟨start, hstart, later, hlater, rfl⟩, hoccurs⟩
    rw [List.append_assoc] at hoccurs
    obtain ⟨t, hst, hlaterOccurs⟩ := (hfirst (later ++ chain) s).mpr ⟨start, hstart, hoccurs⟩
    obtain ⟨u, htu, hchain⟩ := (hsecond chain t).mpr ⟨later, hlater, hlaterOccurs⟩
    exact ⟨u, ⟨t, hst, htu⟩, hchain⟩

theorem Unrolled.alt (hfirst : first.Unrolled) (hsecond : second.Unrolled) :
    (Expr.alt first second).Unrolled := by
  intro chain s
  simp only [matches_alt_iff, chains, List.mem_append, or_and_right, exists_or, hfirst chain s,
    hsecond chain s]

theorem Unrolled.rounds (hbody : body.Unrolled) (k : Nat) (chain : Chain) (s : Spot) :
    (∃ t, Rounds body.Matches k s t ∧ Chain.Occurs chain t.before t.rest) ↔
      ∃ first ∈ Chain.powers body.chains k, Chain.Occurs (first ++ chain) s.before s.rest := by
  induction k generalizing s with
  | zero => simp [Rounds.zero_iff, Chain.powers]
  | succ k ih =>
      simp only [Chain.powers, Chain.mem_joined]
      constructor
      · rintro ⟨u, hrounds, hoccurs⟩
        cases hrounds with
        | succ hround hrest =>
            obtain ⟨later, hlater, hlaterOccurs⟩ := (ih _).mp ⟨u, hrest, hoccurs⟩
            obtain ⟨start, hstart, hstartOccurs⟩ :=
              (hbody (later ++ chain) s).mp ⟨_, hround, hlaterOccurs⟩
            exact ⟨_, ⟨start, hstart, later, hlater, rfl⟩, by rwa [List.append_assoc]⟩
      · rintro ⟨_, ⟨start, hstart, later, hlater, rfl⟩, hoccurs⟩
        rw [List.append_assoc] at hoccurs
        obtain ⟨t, hround, hlaterOccurs⟩ := (hbody (later ++ chain) s).mpr ⟨start, hstart, hoccurs⟩
        obtain ⟨u, hrest, hchain⟩ := (ih t).mpr ⟨later, hlater, hlaterOccurs⟩
        exact ⟨u, .succ hround hrest, hchain⟩

theorem Unrolled.limited (hbody : body.Unrolled) (greedy : Bool) (least most : Nat) :
    (repeated greedy least (some most) body).Unrolled := by
  intro chain s
  have hbounds (k : Nat) : k ∈ List.range' least (most + 1 - least) ↔
      Within (least, some most) k := by
    simp only [List.mem_range'_1, Within, Option.some.injEq, forall_eq']
    omega
  simp only [chains, List.mem_flatMap, hbounds, matches_repeated_iff]
  constructor
  · rintro ⟨t, ⟨k, hwithin, hrounds⟩, hoccurs⟩
    obtain ⟨start, hstart, hstartOccurs⟩ := (hbody.rounds k chain s).mp ⟨t, hrounds, hoccurs⟩
    exact ⟨start, ⟨k, hwithin, hstart⟩, hstartOccurs⟩
  · rintro ⟨start, ⟨k, hwithin, hstart⟩, hoccurs⟩
    obtain ⟨t, hrounds, hchain⟩ := (hbody.rounds k chain s).mpr ⟨start, hstart, hoccurs⟩
    exact ⟨t, ⟨k, hwithin, hrounds⟩, hchain⟩

theorem matches_set_rest_iff {t : Spot} : (set chars).Matches s t ↔
    ∃ c rest, s.rest = c :: rest ∧ c ∈ chars ∧ t = ⟨s.index + 1, some c, rest⟩ := by
  obtain ⟨index, before, text⟩ := s
  cases text with
  | nil => simp [matches_set_iff, Spot.next?]
  | cons c rest => simp [matches_set_iff, Spot.next?, and_comm, eq_comm]

/-- Rounds of a set are a stretch of its characters. -/
theorem rounds_set_iff {P : Option Char → List Char → Prop} :
    (∃ k t, Rounds (set chars).Matches (k + 1) s t ∧ P t.before t.rest) ↔
      ∃ start c rest, s.rest = start ++ c :: rest ∧ (∀ d ∈ start, d ∈ chars) ∧ c ∈ chars ∧
        P (some c) rest := by
  constructor
  · rintro ⟨k, t, hrounds, hP⟩
    induction k generalizing s with
    | zero =>
        obtain ⟨c, rest, hrest, hmem, rfl⟩ := matches_set_rest_iff.mp (Rounds.one_iff.mp hrounds)
        exact ⟨[], c, rest, hrest, nofun, hmem, hP⟩
    | succ k ih =>
        cases hrounds with
        | succ hround hrounds =>
            obtain ⟨d, later, hlater, hd, rfl⟩ := matches_set_rest_iff.mp hround
            obtain ⟨start, c, rest, hrest, hstart, hmem, hP⟩ := ih hrounds
            refine ⟨d :: start, c, rest, ?_, List.forall_mem_cons.mpr ⟨hd, hstart⟩, hmem, hP⟩
            rw [hlater, List.cons_append]
            exact congrArg (d :: ·) hrest
  · rintro ⟨start, c, rest, hrest, hstart, hmem, hP⟩
    induction start generalizing s with
    | nil =>
        have hround := matches_set_rest_iff.mpr ⟨c, rest, hrest, hmem, rfl⟩
        exact ⟨0, _, Rounds.one_iff.mpr hround, hP⟩
    | cons d start ih =>
        obtain ⟨hd, hstart⟩ := List.forall_mem_cons.mp hstart
        obtain ⟨k, t, hrounds, hP⟩ := @ih ⟨s.index + 1, some d, start ++ c :: rest⟩ rfl hstart
        exact ⟨k + 1, t, .succ (matches_set_rest_iff.mpr ⟨d, _, hrest, hd, rfl⟩) hrounds, hP⟩

/-- At least one character of a set, and any number of further ones. -/
theorem unrolled_plus (greedy : Bool) (chars : CharSet) :
    (repeated greedy 1 none (set chars)).Unrolled := by
  intro chain s
  simp only [chains, List.mem_singleton, exists_eq_left, List.cons_append, List.nil_append,
    Chain.Occurs, matches_repeated_iff]
  rw [← rounds_set_iff]
  constructor
  · rintro ⟨t, ⟨k, hwithin, hrounds⟩, hoccurs⟩
    obtain ⟨k, rfl⟩ := Nat.exists_eq_add_of_le' hwithin.1
    exact ⟨k, t, hrounds, hoccurs⟩
  · rintro ⟨k, t, hrounds, hoccurs⟩
    exact ⟨t, ⟨k + 1, ⟨Nat.le_add_left 1 k, nofun⟩, hrounds⟩, hoccurs⟩

theorem unrolled_star (greedy : Bool) (chars : CharSet) :
    (repeated greedy 0 none (set chars)).Unrolled := by
  intro chain s
  have hplus := unrolled_plus greedy chars chain s
  simp only [chains, List.mem_singleton, exists_eq_left, matches_repeated_iff] at hplus
  simp only [chains, List.mem_cons, List.not_mem_nil, or_false, exists_eq_or_imp, exists_eq_left,
    List.nil_append, matches_repeated_iff, ← hplus]
  constructor
  · rintro ⟨t, ⟨k, -, hrounds⟩, hoccurs⟩
    cases k with
    | zero =>
        obtain rfl := Rounds.zero_iff.mp hrounds
        exact .inl hoccurs
    | succ k => exact .inr ⟨t, ⟨k + 1, ⟨Nat.le_add_left 1 k, nofun⟩, hrounds⟩, hoccurs⟩
  · rintro (hoccurs | ⟨t, ⟨k, -, hrounds⟩, hoccurs⟩)
    · exact ⟨s, ⟨0, ⟨Nat.le_refl 0, nofun⟩, .zero s⟩, hoccurs⟩
    · exact ⟨t, ⟨k, ⟨Nat.zero_le k, nofun⟩, hrounds⟩, hoccurs⟩

end

theorem unrolled_of_unrolls {e : Expr} (h : e.unrolls) : e.Unrolled := by
  induction e with
  | empty =>
      intro chain s
      simp [matches_empty_iff, chains]
  | set chars => exact unrolled_set chars
  | look assertion => exact unrolled_look assertion
  | cat first second ihfirst ihsecond =>
      rw [unrolls, Bool.and_eq_true] at h
      exact (ihfirst h.1).cat (ihsecond h.2)
  | alt first second ihfirst ihsecond =>
      rw [unrolls, Bool.and_eq_true] at h
      exact (ihfirst h.1).alt (ihsecond h.2)
  | repeated greedy least most body ih =>
      cases most with
      | some most => exact (ih h).limited greedy least most
      | none =>
          cases body with
          | set chars =>
              rw [unrolls, decide_eq_true_eq] at h
              rcases Nat.le_one_iff_eq_zero_or_eq_one.mp h with rfl | rfl
              · exact unrolled_star greedy chars
              · exact unrolled_plus greedy chars
          | empty | look | cat | alt | repeated | group => cases h
  | group kind body ih =>
      intro chain s
      simp only [matches_group_iff]
      exact ih h chain s

end Expr

/-- An expression occurs in a text exactly if one of its chains does somewhere. -/
theorem isMatch_iff_occurs {e : Expr} (hbounded : e.wellBounded) (hunrolls : e.unrolls)
    (text : List Char) : (Searcher.ofExpr e).isMatch text ↔
      ∃ start rest, text = start ++ rest ∧
        ∃ chain ∈ e.chains, chain.Occurs start.getLast? rest := by
  have hmatches (s : Spot) : (∃ t, e.Matches s t) ↔
      ∃ chain ∈ e.chains, chain.Occurs s.before s.rest := by
    simpa [Chain.Occurs] using Expr.unrolled_of_unrolls hunrolls [] s
  simp only [isMatch_iff hbounded, hmatches, Spot.mem_all_iff]
  constructor
  · rintro ⟨_, ⟨j, hj, rfl⟩, chain, hchain, hoccurs⟩
    refine ⟨text.take j, text.drop j, (List.take_append_drop j text).symm, chain, hchain, ?_⟩
    rw [List.getLast?_take]
    cases j with
    | zero => exact hoccurs
    | succ j => simpa [List.getElem?_eq_getElem hj] using hoccurs
  · rintro ⟨start, rest, rfl, chain, hchain, hoccurs⟩
    refine ⟨_, ⟨start.length, by simp, rfl⟩, chain, hchain, ?_⟩
    cases start with
    | nil => exact hoccurs
    | cons c start =>
        have hlast : ((c :: start) ++ rest)[start.length]? = (c :: start).getLast? := by
          rw [List.getLast?_eq_getElem?, List.getElem?_append_left (Nat.lt_succ_self _)]
          rfl
        rw [← hlast] at hoccurs
        simpa using hoccurs

end RouteAudit.Regex
