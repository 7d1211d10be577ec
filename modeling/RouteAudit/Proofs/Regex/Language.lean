import Mathlib.Computability.Language
import RouteAudit.Proofs.Regex.Blocks
import RouteAudit.Proofs.Regex.Matches

/-! # The language of an expression

An expression without assertions matches a stretch for the text that the stretch takes up, so it
has a language, and each way to build expressions is an operation on languages. The text of a
stretch is told by `Spot.Spans`; `Expr.Denotes` gives an expression its language.
-/

namespace RouteAudit.Text.Spot

/-- The text between two spots. -/
inductive Spans : Spot → List Char → Spot → Prop where
  | nil (s : Spot) : Spans s [] s
  | cons {s t u : Spot} {c : Char} {cs : List Char} :
      s.next? = some (c, t) → Spans t cs u → Spans s (c :: cs) u

variable {s t u : Spot} {first second : List Char}

theorem spans_nil_iff : Spans s [] t ↔ t = s := by
  constructor
  · rintro ⟨⟩
    rfl
  · rintro rfl
    exact .nil t

theorem spans_append_iff :
    Spans s (first ++ second) u ↔ ∃ t, Spans s first t ∧ Spans t second u := by
  constructor
  · intro h
    induction first generalizing s with
    | nil => exact ⟨s, .nil s, h⟩
    | cons c cs ih =>
        cases h with
        | cons hnext hrest =>
            obtain ⟨t, hfirst, hsecond⟩ := ih hrest
            exact ⟨t, .cons hnext hfirst, hsecond⟩
  · rintro ⟨t, hfirst, hsecond⟩
    induction hfirst with
    | nil => exact hsecond
    | cons hnext _ ih => exact .cons hnext (ih hsecond)

/-- The text between two spots is what the second one has passed. -/
theorem Spans.rest_eq (h : Spans s first t) : s.rest = first ++ t.rest := by
  induction h with
  | nil => rfl
  | @cons s t u c cs hnext _ ih =>
      unfold next? at hnext
      split at hnext
      · cases hnext
      next c' cs' hrest =>
        obtain ⟨rfl, rfl⟩ := Prod.mk.inj (Option.some.inj hnext)
        rw [hrest, List.cons_append, ← ih]

/-- A spot spans all of the text behind it. -/
theorem exists_spans_rest (s : Spot) : ∃ t, Spans s s.rest t ∧ t.rest = [] := by
  obtain ⟨index, before, rest⟩ := s
  induction rest generalizing index before with
  | nil => exact ⟨_, .nil _, rfl⟩
  | cons c cs ih =>
      obtain ⟨t, hspans, hrest⟩ := ih (index + 1) (some c)
      exact ⟨t, .cons rfl hspans, hrest⟩

end RouteAudit.Text.Spot

namespace RouteAudit.Regex.Expr

open RouteAudit.Text (Spot)
open scoped Computability

/-- Two spots with a text of a language between them. -/
def Reaches (language : Language Char) (s t : Spot) : Prop :=
  ∃ text ∈ language, s.Spans text t

/-- An expression whose bounds are in order matches the texts of a language, wherever they
are. -/
structure Denotes (e : Expr) (language : Language Char) : Prop where
  wellBounded : e.wellBounded
  matches_iff : ∀ s t, e.Matches s t ↔ Reaches language s t

section

variable {L M : Language Char} {s t u : Spot}

theorem reaches_one_iff : Reaches 1 s t ↔ t = s := by
  simp [Reaches, Language.mem_one, Spot.spans_nil_iff]

theorem reaches_add_iff : Reaches (L + M) s t ↔ Reaches L s t ∨ Reaches M s t := by
  simp only [Reaches, Language.mem_add, or_and_right, exists_or]

theorem reaches_mul_iff : Reaches (L * M) s u ↔ ∃ t, Reaches L s t ∧ Reaches M t u := by
  constructor
  · rintro ⟨text, hmem, hspans⟩
    obtain ⟨first, hfirst, second, hsecond, rfl⟩ := Language.mem_mul.mp hmem
    obtain ⟨t, hst, htu⟩ := Spot.spans_append_iff.mp hspans
    exact ⟨t, ⟨first, hfirst, hst⟩, ⟨second, hsecond, htu⟩⟩
  · rintro ⟨t, ⟨first, hfirst, hst⟩, ⟨second, hsecond, htu⟩⟩
    exact ⟨first ++ second, Language.append_mem_mul hfirst hsecond,
      Spot.spans_append_iff.mpr ⟨t, hst, htu⟩⟩

theorem rounds_reaches_iff {k : Nat} : Rounds (Reaches L) k s t ↔ Reaches (L ^ k) s t := by
  induction k generalizing s with
  | zero => rw [pow_zero, reaches_one_iff, Rounds.zero_iff, eq_comm]
  | succ k ih =>
      rw [pow_succ', reaches_mul_iff]
      constructor
      · intro hrounds
        cases hrounds with
        | succ hround hrest => exact ⟨_, hround, ih.mp hrest⟩
      · rintro ⟨t, hround, hrest⟩
        exact .succ hround (ih.mpr hrest)

theorem reaches_kstar_iff : Reaches L∗ s t ↔ ∃ k, Rounds (Reaches L) k s t := by
  simp only [rounds_reaches_iff, Reaches, Language.kstar_eq_iSup_pow, Language.mem_iSup]
  constructor
  · rintro ⟨text, ⟨k, hmem⟩, hspans⟩
    exact ⟨k, text, hmem, hspans⟩
  · rintro ⟨k, text, hmem, hspans⟩
    exact ⟨text, ⟨k, hmem⟩, hspans⟩

/-! ## Characters other than one -/

/-- One character that is not a given one. -/
def other (d : Char) : Language Char := {text | ∃ c, c ≠ d ∧ text = [c]}

theorem kstar_other (d : Char) : (other d)∗ = {text | d ∉ text} := by
  ext text
  rw [Language.mem_kstar]
  constructor
  · rintro ⟨parts, rfl, hparts⟩ hmem
    obtain ⟨part, hpart, hmem⟩ := List.mem_flatten.mp hmem
    obtain ⟨c, hc, rfl⟩ := hparts part hpart
    exact hc (List.mem_singleton.mp hmem).symm
  · intro hnot
    refine ⟨text.map fun c => [c], ?_, ?_⟩
    · rw [← List.flatMap_def, List.flatMap_singleton']
    · intro part hpart
      obtain ⟨c, hc, rfl⟩ := List.mem_map.mp hpart
      refine ⟨c, ?_, rfl⟩
      rintro rfl
      exact hnot hc

theorem other_mul_kstar (d : Char) : other d * (other d)∗ = {text | text ≠ [] ∧ d ∉ text} := by
  ext text
  rw [Language.mem_mul, kstar_other]
  constructor
  · rintro ⟨_, ⟨c, hc, rfl⟩, rest, hrest, rfl⟩
    refine ⟨List.cons_ne_nil c rest, ?_⟩
    intro hmem
    rcases List.mem_cons.mp hmem with rfl | hmem
    · exact hc rfl
    · exact hrest hmem
  · rintro ⟨hnonempty, hnot⟩
    cases text with
    | nil => exact absurd rfl hnonempty
    | cons c rest =>
        obtain ⟨hc, hrest⟩ := not_or.mp (List.mem_cons.not.mp hnot)
        exact ⟨[c], ⟨c, Ne.symm hc, rfl⟩, rest, hrest, rfl⟩

/-! ## Expressions -/

namespace Denotes

variable {e f : Expr} {greedy : Bool}

theorem empty : Denotes .empty 1 := by
  refine ⟨rfl, ?_⟩
  intro s t
  rw [matches_empty_iff, reaches_one_iff]

theorem set (chars : CharSet) : Denotes (.set chars) {text | ∃ c ∈ chars, text = [c]} := by
  refine ⟨rfl, ?_⟩
  intro s t
  rw [matches_set_iff]
  constructor
  · rintro ⟨c, hnext, hmem⟩
    exact ⟨[c], ⟨c, hmem, rfl⟩, .cons hnext (.nil t)⟩
  · rintro ⟨_, ⟨c, hmem, rfl⟩, hspans⟩
    cases hspans with
    | cons hnext hrest =>
        obtain rfl := Spot.spans_nil_iff.mp hrest
        exact ⟨c, hnext, hmem⟩

theorem single (c : Char) : Denotes (.set (.single c)) {[c]} := by
  have hset := set (.single c)
  have hlanguage : {text | ∃ d ∈ CharSet.single c, text = [d]} = ({[c]} : Language Char) := by
    ext text
    have hmem : (∃ d ∈ CharSet.single c, text = [d]) ↔ text = [c] := by
      simp [CharSet.mem_def, CharSet.single, CharSet.holds]
    exact hmem
  rwa [hlanguage] at hset

theorem notSingle (d : Char) : Denotes (.set (.compl (.single d))) (other d) := by
  have hset := set (.compl (.single d))
  have hlanguage : {text | ∃ c ∈ CharSet.compl (.single d), text = [c]} = other d := by
    ext text
    have hmem : (∃ c ∈ CharSet.compl (.single d), text = [c]) ↔ ∃ c, c ≠ d ∧ text = [c] := by
      simp [CharSet.mem_def, CharSet.single, CharSet.holds]
    exact hmem
  rwa [hlanguage] at hset

theorem cat (he : Denotes e L) (hf : Denotes f M) : Denotes (.cat e f) (L * M) := by
  refine ⟨?_, ?_⟩
  · rw [Expr.wellBounded, he.wellBounded, hf.wellBounded]
    rfl
  · intro s t
    simp only [matches_cat_iff, reaches_mul_iff, he.matches_iff, hf.matches_iff]

theorem group (kind : Group) (he : Denotes e L) : Denotes (.group kind e) L :=
  ⟨he.wellBounded, fun s t => matches_group_iff.trans (he.matches_iff s t)⟩

theorem rounds_iff (he : Denotes e L) (k : Nat) :
    Rounds e.Matches k s t ↔ Rounds (Reaches L) k s t := by
  have hsame : e.Matches = Reaches L := by
    funext s t
    exact propext (he.matches_iff s t)
  rw [hsame]

theorem opt (he : Denotes e L) : Denotes (.repeated greedy 0 (some 1) e) (1 + L) := by
  refine ⟨?_, ?_⟩
  · rw [Expr.wellBounded, he.wellBounded]
    rfl
  · intro s t
    rw [matches_repeated_iff, within_some_iff (Nat.zero_le 1), reaches_add_iff, reaches_one_iff]
    simp only [Rounds.zero_iff, exists_eq_left', Nat.sub_zero, Rounds.up_to_succ_iff,
      Rounds.up_to_zero_iff, exists_eq_right, he.matches_iff]
    rw [or_comm, eq_comm]

theorem star (he : Denotes e L) : Denotes (.repeated greedy 0 none e) L∗ := by
  refine ⟨?_, ?_⟩
  · rw [Expr.wellBounded, he.wellBounded]
    rfl
  · intro s t
    rw [matches_repeated_iff, within_none_iff, reaches_kstar_iff]
    simp only [Rounds.zero_iff, exists_eq_left', he.rounds_iff]

theorem plus (he : Denotes e L) : Denotes (.repeated greedy 1 none e) (L * L∗) := by
  refine ⟨?_, ?_⟩
  · rw [Expr.wellBounded, he.wellBounded]
    rfl
  · intro s t
    rw [matches_repeated_iff, within_none_iff, reaches_mul_iff]
    simp only [Rounds.one_iff, reaches_kstar_iff, he.rounds_iff]

end Denotes

end

end RouteAudit.Regex.Expr
