import Mathlib.Data.List.Basic
import RouteAudit.Proofs.Regex.Runs

/-! # The code of an expression

Wherever the block of an expression stands in a program, the program runs from its first
address to the address that it is left to over exactly the stretches that the expression
matches (`code_runs`). The induction follows the code: the blocks of the parts stand inside
the block of the whole, and copies of a block stand in a row. How many rounds the copies make
does not depend on what is said of a round, so repetitions are told for any statement about
parts that is kept by putting them together (`Composes.repeated`).

Bounds of a repetition that cannot be kept match nothing, but their code makes at least as
many rounds as the lower one says, so the bounds must be in order.
-/

namespace RouteAudit.Regex

open RouteAudit.Text (Spot)

/-- A block stands in a program at an address. -/
def Holds (program : Program) (addr : Nat) (block : List Instr) : Prop :=
  ∀ (i : Nat) (instr : Instr), block[i]? = some instr → program[addr + i]? = some instr

section

variable {program : Program} {addr next size n : Nat} {block : Nat → Nat → List Instr}

theorem holds_cons {instr : Instr} {rest : List Instr} :
    Holds program addr (instr :: rest) ↔
      program[addr]? = some instr ∧ Holds program (addr + 1) rest := by
  constructor
  · intro h
    refine ⟨h 0 instr rfl, fun i other hother => ?_⟩
    rw [Nat.add_assoc, Nat.add_comm 1 i]
    exact h (i + 1) other hother
  · rintro ⟨hfirst, hrest⟩ i other hother
    cases i with
    | zero =>
        obtain rfl : instr = other := Option.some.inj hother
        exact hfirst
    | succ i =>
        rw [← Nat.add_assoc, Nat.add_right_comm]
        exact hrest i other hother

theorem holds_append {first second : List Instr} :
    Holds program addr (first ++ second) ↔
      Holds program addr first ∧ Holds program (addr + first.length) second := by
  induction first generalizing addr with
  | nil => simp [Holds]
  | cons instr rest ih =>
      rw [List.cons_append, holds_cons, holds_cons, ih, and_assoc, List.length_cons]
      rw [show addr + 1 + rest.length = addr + (rest.length + 1) by omega]

/-! ## Copies -/

/-- Copies of a block and one more copy behind them. -/
theorem copies_succ : copies (n + 1) size block addr next =
    copies n size block addr (addr + n * size) ++ block (addr + n * size) next := by
  unfold copies
  rw [List.range_succ, List.flatMap_append, List.flatMap_singleton, if_pos rfl]
  refine congrArg (· ++ _) (List.flatMap_congr fun i hi => ?_)
  have hlt := List.mem_range.mp hi
  rw [if_neg (by omega)]
  split
  next hlast => rw [hlast]
  next => rfl

/-- One copy of a block and more copies behind it. -/
theorem copies_succ_left : copies (n + 1) size block addr next =
    block addr (if n = 0 then next else addr + size) ++ copies n size block (addr + size) next := by
  unfold copies
  rw [List.range_succ_eq_map, List.flatMap_cons, List.flatMap_map]
  have hfirst : block (addr + 0 * size) (if 0 + 1 = n + 1 then next else addr + (0 + 1) * size) =
      block addr (if n = 0 then next else addr + size) := by
    rw [Nat.zero_mul, Nat.add_zero, Nat.zero_add, Nat.one_mul]
    congr 1
    split_ifs <;> omega
  rw [hfirst]
  refine congrArg (_ ++ ·) (List.flatMap_congr fun i _ => ?_)
  have hhere : addr + i.succ * size = addr + size + i * size := by
    rw [Nat.succ_mul]
    omega
  have honward : addr + (i.succ + 1) * size = addr + size + (i + 1) * size := by
    rw [Nat.succ_add, Nat.succ_mul]
    omega
  rw [hhere, honward]
  congr 1
  split_ifs <;> omega

end

/-! ## What parts are put together of -/

/-- A statement about parts of a program and what they do is kept by putting parts together: one
behind another, one that may be passed over, one in a loop. -/
structure Composes {α : Type} (program : Program) (runs : Nat → Nat → (α → α → Prop) → Prop) :
    Prop where
  congr : ∀ {addr next R S}, runs addr next R → (∀ s t, R s t ↔ S s t) → runs addr next S
  nothing : ∀ {addr}, runs addr addr Eq
  skip : ∀ {addr next}, program[addr]? = some (.skip next) → runs addr next Eq
  cat : ∀ {addr onward next R S}, runs addr onward R → runs onward next S →
    runs addr next fun s u => ∃ t, R s t ∧ S t u
  optional : ∀ {addr into next greedy R}, program[addr]? = some (.branch greedy into next) →
    runs into next R → runs addr next fun s t => R s t ∨ s = t
  loop : ∀ {addr into next greedy R}, program[addr]? = some (.branch greedy into next) →
    runs into addr R → runs addr next fun s t => ∃ k, Rounds R k s t

theorem Runs.composes (program : Program) : Composes program (Runs program) where
  congr := Runs.congr
  nothing := Runs.nothing
  skip := fun hskip => Runs.instr hskip Instr.noConfusion fun s a t => by
    rw [leads_skip, eq_comm (a := t)]
  cat := Runs.cat
  optional := Runs.optional
  loop := Runs.loop

namespace Composes

variable {α : Type} {program : Program} {runs : Nat → Nat → (α → α → Prop) → Prop}
  {R : α → α → Prop} {addr next size n : Nat} {greedy : Bool} {block : Nat → Nat → List Instr}

/-- Copies in a row make so many rounds. -/
theorem copies (hruns : Composes program runs) (hsize : ∀ a b, (block a b).length = size)
    (hblock : ∀ a b, Holds program a (block a b) → runs a b R)
    (h : Holds program addr (Regex.copies n size block addr (addr + n * size))) :
    runs addr (addr + n * size) (Rounds R n) := by
  induction n with
  | zero =>
      rw [Nat.zero_mul, Nat.add_zero]
      exact hruns.congr hruns.nothing fun s t => Rounds.zero_iff.symm
  | succ n ih =>
      rw [copies_succ, holds_append, Expr.length_copies hsize] at h
      refine hruns.congr (hruns.cat (ih h.1) (hblock _ _ h.2)) fun s u => ?_
      exact Rounds.succ_iff.symm

/-- Copies in a row that leave to some address make so many rounds, if there are any. -/
theorem copies_succ (hruns : Composes program runs) (hsize : ∀ a b, (block a b).length = size)
    (hblock : ∀ a b, Holds program a (block a b) → runs a b R)
    (h : Holds program addr (Regex.copies (n + 1) size block addr next)) :
    runs addr next (Rounds R (n + 1)) := by
  rw [Regex.copies_succ, holds_append, Expr.length_copies hsize] at h
  refine hruns.congr (hruns.cat (hruns.copies hsize hblock h.1) (hblock _ _ h.2)) fun s u => ?_
  exact Rounds.succ_iff.symm

/-- Copies that may be passed over make up to so many rounds, if there are any copies. -/
theorem optionals (hruns : Composes program runs) (hsize : ∀ a b, (block a b).length = size)
    (hblock : ∀ a b, Holds program a (block a b) → runs a b R)
    (h : Holds program addr (Regex.optionals greedy (n + 1) size block addr next)) :
    runs addr next fun s t => ∃ k ≤ n + 1, Rounds R k s t := by
  unfold Regex.optionals at h
  induction n generalizing addr with
  | zero =>
      rw [copies_succ_left, if_pos rfl, holds_append, holds_cons] at h
      have hbody := hruns.cat (hblock _ _ h.1.2) hruns.nothing
      refine hruns.congr (hruns.optional h.1.1 hbody) fun s t => ?_
      simp only [Rounds.up_to_succ_iff, Rounds.up_to_zero_iff]
  | succ n ih =>
      rw [copies_succ_left, if_neg (Nat.succ_ne_zero n), holds_append, holds_cons] at h
      have hlength : (Instr.branch greedy (addr + 1) next ::
          block (addr + 1) (addr + (size + 1))).length = size + 1 := by
        rw [List.length_cons, hsize]
      rw [hlength] at h
      have hmore := hruns.cat (hblock _ _ h.1.2) (ih h.2)
      refine hruns.congr (hruns.optional h.1.1 hmore) fun s t => ?_
      exact Rounds.up_to_succ_iff.symm

variable {body : Expr} {least : Nat} {most : Option Nat}

theorem star (hruns : Composes program runs)
    (hbody : ∀ a b, Holds program a (body.code a b) → runs a b R)
    (h : Holds program addr
      (if body.consumes then .branch greedy (addr + 1) next :: body.code (addr + 1) addr
      else .branch greedy (addr + 1) next ::
        (body.code (addr + 1) (addr + 1 + body.size) ++ [.branch greedy (addr + 1) next]))) :
    runs addr next fun s t => ∃ k, Rounds R k s t := by
  split at h
  next =>
    rw [holds_cons] at h
    exact hruns.loop h.1 (hbody _ _ h.2)
  next =>
    rw [holds_cons, holds_append, holds_cons, Expr.length_code] at h
    obtain ⟨hfirst, hround, hlast, -⟩ := h
    have hone := hbody _ _ hround
    refine hruns.congr (hruns.optional hfirst (hruns.cat hone (hruns.loop hlast hone)))
      fun s t => ?_
    constructor
    · rintro (⟨u, hu, k, hrounds⟩ | rfl)
      · exact ⟨k + 1, .succ hu hrounds⟩
      · exact ⟨0, .zero s⟩
    · rintro ⟨k, hrounds⟩
      cases hrounds with
      | zero => exact .inr rfl
      | succ hu hrounds => exact .inl ⟨_, hu, _, hrounds⟩

theorem plus (hruns : Composes program runs)
    (hbody : ∀ a b, Holds program a (body.code a b) → runs a b R) (hleast : least ≠ 0)
    (h : Holds program addr
      (Regex.copies least body.size body.code addr (addr + least * body.size) ++
        [.branch greedy (addr + (least - 1) * body.size) next])) :
    runs addr next fun s t => ∃ u, Rounds R least s u ∧ ∃ k, Rounds R k u t := by
  rw [holds_append, Expr.length_copies body.length_code, holds_cons] at h
  obtain ⟨hcopies, hbranch, -⟩ := h
  have hfirst := hruns.copies body.length_code hbody hcopies
  obtain ⟨more, rfl⟩ := Nat.exists_eq_succ_of_ne_zero hleast
  rw [Regex.copies_succ, holds_append, Expr.length_copies body.length_code] at hcopies
  exact hruns.cat hfirst (hruns.loop hbranch (hbody _ _ hcopies.2))

theorem upTo (hruns : Composes program runs)
    (hbody : ∀ a b, Holds program a (body.code a b) → runs a b R)
    {limit : Nat} (hlimit : least ≤ limit) (hsome : limit ≠ 0)
    (h : Holds program addr
      (Regex.copies least body.size body.code addr
          (if limit ≤ least then next else addr + least * body.size) ++
        Regex.optionals greedy (limit - least) body.size body.code (addr + least * body.size)
          next)) :
    runs addr next fun s t =>
      ∃ u, Rounds R least s u ∧ ∃ k ≤ limit - least, Rounds R k u t := by
  rw [holds_append, Expr.length_copies body.length_code] at h
  obtain ⟨hcopies, hoptionals⟩ := h
  by_cases hexact : limit ≤ least
  · -- No copy may be passed over, so the last of the others leaves the part.
    obtain rfl : least = limit := Nat.le_antisymm hlimit hexact
    obtain ⟨more, rfl⟩ := Nat.exists_eq_succ_of_ne_zero hsome
    rw [if_pos (Nat.le_refl _)] at hcopies
    refine hruns.congr (hruns.copies_succ body.length_code hbody hcopies) fun s t => ?_
    simp only [Nat.sub_self, Rounds.up_to_zero_iff, exists_eq_right]
  · obtain ⟨more, hmore⟩ : ∃ more, limit - least = more + 1 := ⟨limit - least - 1, by omega⟩
    rw [if_neg hexact] at hcopies
    rw [hmore] at hoptionals ⊢
    exact hruns.cat (hruns.copies body.length_code hbody hcopies)
      (hruns.optionals body.length_code hbody hoptionals)

/-- The code of a repetition makes as many rounds as its bounds allow. -/
theorem repeated (hruns : Composes program runs)
    (hbody : ∀ a b, Holds program a (body.code a b) → runs a b R)
    (horder : ∀ limit, most = some limit → least ≤ limit)
    (h : Holds program addr ((Expr.repeated greedy least most body).code addr next)) :
    runs addr next fun s t => ∃ k, Within (body.bounds least most) k ∧ Rounds R k s t := by
  have hordered := Expr.bounds_le body horder
  rw [Expr.code] at h
  -- The four layouts of a repetition, by the bounds that are kept to.
  generalize body.bounds least most = kept at h hordered ⊢
  split at h
  next =>
    refine hruns.congr (hruns.star hbody h) fun s t => ?_
    rw [Expr.within_none_iff]
    simp only [Rounds.zero_iff, exists_eq_left']
  next least hleast =>
    exact hruns.congr (hruns.plus hbody hleast h) fun s t => Expr.within_none_iff.symm
  next =>
    refine hruns.congr (hruns.skip (holds_cons.mp h).1) fun s t => ?_
    simp [Expr.within_some_iff, Rounds.zero_iff]
  next least limit hsome =>
    have hlimit : least ≤ limit := hordered limit rfl
    have hpositive : limit ≠ 0 := by
      rintro rfl
      exact hsome (Nat.le_zero.mp hlimit) rfl
    exact hruns.congr (hruns.upTo hbody hlimit hpositive h) fun s t =>
      (Expr.within_some_iff hlimit).symm

end Composes

namespace Expr

/-- The bounds of every repetition are in order. -/
def wellBounded : Expr → Bool
  | empty | set _ | look _ => true
  | cat first second | alt first second => first.wellBounded && second.wellBounded
  | repeated _ least most body => most.all (least ≤ ·) && body.wellBounded
  | group _ body => body.wellBounded

variable {program : Program}

/-- The code of an expression runs over the stretches that the expression matches. -/
theorem code_runs {e : Expr} (hbounded : e.wellBounded) {addr next : Nat}
    (h : Holds program addr (e.code addr next)) : Runs program addr next e.Matches := by
  induction e generalizing addr next with
  | empty =>
      refine Runs.instr (holds_cons.mp h).1 Instr.noConfusion fun s a t => ?_
      rw [leads_skip, matches_empty_iff]
  | set chars =>
      refine Runs.instr (holds_cons.mp h).1 Instr.noConfusion fun s a t => ?_
      rw [leads_read, matches_set_iff]
  | look assertion =>
      refine Runs.instr (holds_cons.mp h).1 Instr.noConfusion fun s a t => ?_
      rw [leads_check, matches_look_iff]
  | cat first second ihfirst ihsecond =>
      rw [wellBounded, Bool.and_eq_true] at hbounded
      rw [code, holds_append, length_code] at h
      refine ((ihfirst hbounded.1 h.1).cat (ihsecond hbounded.2 h.2)).congr fun s t => ?_
      exact matches_cat_iff.symm
  | alt first second ihfirst ihsecond =>
      rw [wellBounded, Bool.and_eq_true] at hbounded
      rw [code, holds_cons, holds_append, length_code] at h
      obtain ⟨hfork, hfirst, hsecond⟩ := h
      refine (Runs.choice hfork Instr.noConfusion (fun _ _ _ => leads_fork)
        (ihfirst hbounded.1 hfirst) (ihsecond hbounded.2 hsecond)).congr fun s t => ?_
      exact matches_alt_iff.symm
  | repeated greedy least most body ih =>
      rw [wellBounded, Bool.and_eq_true] at hbounded
      obtain ⟨hmost, hbody⟩ := hbounded
      have horder : ∀ limit, most = some limit → least ≤ limit := by
        rintro limit rfl
        simpa using hmost
      have hrounds := (Runs.composes program).repeated (fun _ _ => ih hbody) horder h
      exact hrounds.congr fun s t => (matches_repeated_bounds_iff horder).symm
  | group kind body ih =>
      cases kind with
      | plain | numbered => exact (ih hbounded h).congr fun s t => matches_group_iff.symm
      | named name =>
          rw [code, holds_cons, holds_append, length_code, holds_cons] at h
          obtain ⟨hopens, hbody, hcloses, -⟩ := h
          have hmark {a b : Nat} {opens : Bool}
              (hinstr : program[a]? = some (.mark name opens b)) :
              Runs program a b fun s t => t = s :=
            Runs.instr hinstr Instr.noConfusion fun _ _ _ => leads_mark
          refine ((hmark hopens).cat ((ih hbounded hbody).cat (hmark hcloses))).congr
            fun s t => ?_
          simp [matches_group_iff]

end Expr

end RouteAudit.Regex
