import RouteAudit.Regex.Expr

/-! # Matches by the shape of an expression

What an expression matches is built of what its parts match. A repetition matches some
number of rounds of its body, and the bounds say how many they may be
(`matches_repeated_iff`). A body without width does in any number of rounds what it does
in one, so only the bounds that a program keeps to matter (`matches_repeated_bounds_iff`).
-/

namespace RouteAudit.Regex

open RouteAudit.Text (Spot)

/-- So many stretches of a kind, one behind the other. -/
inductive Rounds {α : Type} (R : α → α → Prop) : Nat → α → α → Prop where
  | zero (s : α) : Rounds R 0 s s
  | succ {k : Nat} {s t u : α} : R s t → Rounds R k t u → Rounds R (k + 1) s u

/-- A number of rounds keeps to bounds. -/
def Within (bounds : Nat × Option Nat) (k : Nat) : Prop :=
  bounds.1 ≤ k ∧ ∀ most, bounds.2 = some most → k ≤ most

namespace Rounds

variable {α : Type} {R : α → α → Prop} {s t u : α} {j k : Nat}

theorem zero_iff : Rounds R 0 s t ↔ s = t := by
  constructor
  · rintro ⟨⟩
    rfl
  · rintro rfl
    exact .zero s

theorem one_iff : Rounds R 1 s t ↔ R s t := by
  constructor
  · rintro (_ | ⟨hst, ⟨⟩⟩)
    exact hst
  · intro hst
    exact .succ hst (.zero t)

theorem append (hst : Rounds R j s t) (htu : Rounds R k t u) : Rounds R (j + k) s u := by
  induction hst with
  | zero s => rwa [Nat.zero_add]
  | succ hround _ ih =>
      rw [Nat.add_right_comm]
      exact .succ hround (ih htu)

/-- Rounds can be told apart into the first ones and the ones behind them. -/
theorem add_iff : Rounds R (j + k) s u ↔ ∃ t, Rounds R j s t ∧ Rounds R k t u := by
  constructor
  · intro hrounds
    induction j generalizing s with
    | zero =>
        rw [Nat.zero_add] at hrounds
        exact ⟨s, .zero s, hrounds⟩
    | succ j ih =>
        rw [Nat.add_right_comm] at hrounds
        cases hrounds with
        | succ hround hrest =>
            obtain ⟨t, hfirst, hsecond⟩ := ih hrest
            exact ⟨t, .succ hround hfirst, hsecond⟩
  · rintro ⟨t, hfirst, hsecond⟩
    exact hfirst.append hsecond

/-- The last of some rounds is one behind the others. -/
theorem succ_iff : Rounds R (k + 1) s u ↔ ∃ t, Rounds R k s t ∧ R t u := by
  simp only [add_iff, one_iff]

theorem up_to_zero_iff : (∃ k ≤ 0, Rounds R k s t) ↔ s = t := by
  rw [← zero_iff (R := R)]
  constructor
  · rintro ⟨k, hk, hrounds⟩
    obtain rfl := Nat.le_zero.mp hk
    exact hrounds
  · exact fun hrounds => ⟨0, Nat.le_refl 0, hrounds⟩

/-- Up to some number of rounds, and one more, is a round with up to so many behind it, or
none at all. -/
theorem up_to_succ_iff : (∃ k ≤ j + 1, Rounds R k s t) ↔
    (∃ u, R s u ∧ ∃ k ≤ j, Rounds R k u t) ∨ s = t := by
  constructor
  · rintro ⟨k, hk, hrounds⟩
    cases hrounds with
    | zero => exact .inr rfl
    | succ hround hrest => exact .inl ⟨_, hround, _, Nat.le_of_succ_le_succ hk, hrest⟩
  · rintro (⟨u, hround, k, hk, hrest⟩ | rfl)
    · exact ⟨k + 1, Nat.succ_le_succ hk, .succ hround hrest⟩
    · exact ⟨0, Nat.zero_le _, .zero s⟩

/-- What every round keeps is kept by all of them. -/
theorem keeps {p : α → Prop} (hR : ∀ s t, R s t → p s → p t) (hst : Rounds R k s t) (hs : p s) :
    p t := by
  induction hst with
  | zero s => exact hs
  | succ hround _ ih => exact ih (hR _ _ hround hs)

/-- Rounds that take up no text all stay at one spot. -/
theorem stays (hR : ∀ s t, R s t → s = t) (hst : Rounds R k s t) : s = t := by
  induction hst with
  | zero s => rfl
  | succ hround _ ih => exact (hR _ _ hround).trans ih

/-- Rounds that take up no text can be made any other number of times. -/
theorem any_number (hR : ∀ s t, R s t → s = t) (hst : Rounds R (k + 1) s t) (j : Nat) :
    Rounds R j s t := by
  obtain rfl := hst.stays hR
  cases hst with
  | succ hround _ =>
      obtain rfl := hR _ _ hround
      induction j with
      | zero => exact .zero s
      | succ j ih => exact .succ hround ih

end Rounds

namespace Expr

variable {body first second : Expr} {s t : Spot} {greedy : Bool} {least : Nat}
  {most : Option Nat}

theorem matches_empty_iff : Matches .empty s t ↔ t = s := by
  constructor
  · rintro ⟨⟩
    rfl
  · rintro rfl
    exact .empty t

theorem matches_set_iff {chars : CharSet} :
    Matches (.set chars) s t ↔ ∃ c, s.next? = some (c, t) ∧ c ∈ chars := by
  constructor
  · rintro (_ | ⟨hnext, hmem⟩)
    exact ⟨_, hnext, hmem⟩
  · rintro ⟨c, hnext, hmem⟩
    exact .set hnext hmem

theorem matches_look_iff {assertion : Look} :
    Matches (.look assertion) s t ↔ t = s ∧ assertion.holds s := by
  constructor
  · rintro (_ | _ | hholds)
    exact ⟨rfl, hholds⟩
  · rintro ⟨rfl, hholds⟩
    exact .look hholds

theorem matches_cat_iff {u : Spot} :
    Matches (.cat first second) s u ↔ ∃ t, Matches first s t ∧ Matches second t u := by
  constructor
  · intro hmatch
    cases hmatch with
    | cat hfirst hsecond => exact ⟨_, hfirst, hsecond⟩
  · rintro ⟨t, hfirst, hsecond⟩
    exact .cat hfirst hsecond

theorem matches_alt_iff :
    Matches (.alt first second) s t ↔ Matches first s t ∨ Matches second s t := by
  constructor
  · intro hmatch
    cases hmatch with
    | altFirst hfirst => exact .inl hfirst
    | altSecond hsecond => exact .inr hsecond
  · rintro (hfirst | hsecond)
    · exact .altFirst hfirst
    · exact .altSecond hsecond

theorem matches_group_iff {kind : Group} :
    Matches (.group kind body) s t ↔ Matches body s t := by
  constructor
  · intro hmatch
    cases hmatch with
    | group hbody => exact hbody
  · exact .group

theorem within_pred_iff {k : Nat} (hmost : most ≠ some 0) :
    Within (least - 1, most.map (· - 1)) k ↔ Within (least, most) (k + 1) := by
  cases most with
  | none => simp [Within]
  | some most =>
      have hpos : most ≠ 0 := fun h => hmost (h ▸ rfl)
      simp only [Within, Option.map_some, Option.some.injEq, forall_eq']
      omega

/-- A repetition matches as many rounds of its body as the bounds allow. -/
theorem matches_repeated_iff :
    Matches (.repeated greedy least most body) s t ↔
      ∃ k, Within (least, most) k ∧ Rounds body.Matches k s t := by
  constructor
  · intro hmatch
    generalize hexpr : Expr.repeated greedy least most body = e at hmatch
    induction hmatch generalizing least most with
    | stop s =>
        obtain ⟨-, rfl, -, rfl⟩ := Expr.repeated.inj hexpr
        exact ⟨0, ⟨Nat.le_refl 0, fun _ _ => Nat.zero_le _⟩, .zero s⟩
    | more hmost hround _ _ ih =>
        obtain ⟨rfl, rfl, rfl, rfl⟩ := Expr.repeated.inj hexpr
        obtain ⟨k, hwithin, hrest⟩ := ih rfl
        exact ⟨k + 1, (within_pred_iff hmost).mp hwithin, .succ hround hrest⟩
    | empty | set | look | cat | altFirst | altSecond | group => cases hexpr
  · rintro ⟨k, hwithin, hrounds⟩
    induction hrounds generalizing least most with
    | zero s =>
        obtain rfl : least = 0 := Nat.le_zero.mp hwithin.1
        exact .stop s
    | succ hround _ ih =>
        have hmost : most ≠ some 0 := by
          rintro rfl
          exact Nat.not_succ_le_zero _ (hwithin.2 0 rfl)
        exact .more hmost hround (ih ((within_pred_iff hmost).mpr hwithin))

/-- A match of an expression without width stays where it is. -/
theorem Matches.stays {e : Expr} (hmatch : e.Matches s t) (hwidthless : e.isWidthless) :
    s = t := by
  induction hmatch with
  | empty s | look _ | stop s => rfl
  | set => cases hwidthless
  | cat _ _ ihfirst ihsecond =>
      rw [isWidthless, Bool.and_eq_true] at hwidthless
      exact (ihfirst hwidthless.1).trans (ihsecond hwidthless.2)
  | altFirst _ ih =>
      rw [isWidthless, Bool.and_eq_true] at hwidthless
      exact ih hwidthless.1
  | altSecond _ ih =>
      rw [isWidthless, Bool.and_eq_true] at hwidthless
      exact ih hwidthless.2
  | @more greedy least most body s t u hmost _ _ ihround ihrest =>
      have hbody : body.isWidthless := by
        rw [isWidthless, Bool.or_eq_true, beq_iff_eq] at hwidthless
        exact hwidthless.resolve_left hmost
      refine (ihround hbody).trans (ihrest ?_)
      rw [isWidthless, hbody, Bool.or_true]
  | group _ ih => exact ih hwidthless

/-- A number of rounds that keeps to bounds in order is the lower one and as many more as
the upper one leaves. -/
theorem within_some_iff {α : Type} {R : α → α → Prop} {s t : α} {limit : Nat}
    (horder : least ≤ limit) :
    (∃ k, Within (least, some limit) k ∧ Rounds R k s t) ↔
      ∃ u, Rounds R least s u ∧ ∃ k ≤ limit - least, Rounds R k u t := by
  constructor
  · rintro ⟨k, ⟨hleast, hmost⟩, hrounds⟩
    obtain ⟨more, rfl⟩ := Nat.exists_eq_add_of_le hleast
    obtain ⟨u, hfirst, hsecond⟩ := Rounds.add_iff.mp hrounds
    have hlimit := hmost limit rfl
    exact ⟨u, hfirst, more, by omega, hsecond⟩
  · rintro ⟨u, hfirst, k, hk, hsecond⟩
    refine ⟨least + k, ⟨Nat.le_add_right least k, ?_⟩, hfirst.append hsecond⟩
    rintro _ ⟨⟩
    omega

theorem within_none_iff {α : Type} {R : α → α → Prop} {s t : α} :
    (∃ k, Within (least, none) k ∧ Rounds R k s t) ↔
      ∃ u, Rounds R least s u ∧ ∃ k, Rounds R k u t := by
  constructor
  · rintro ⟨k, ⟨hleast, -⟩, hrounds⟩
    obtain ⟨more, rfl⟩ := Nat.exists_eq_add_of_le hleast
    obtain ⟨u, hfirst, hsecond⟩ := Rounds.add_iff.mp hrounds
    exact ⟨u, hfirst, more, hsecond⟩
  · rintro ⟨u, hfirst, k, hsecond⟩
    refine ⟨least + k, ⟨Nat.le_add_right least k, ?_⟩, hfirst.append hsecond⟩
    rintro _ ⟨⟩

/-- Bounds in order stay in order. -/
theorem bounds_le (body : Expr) (hbounds : ∀ limit, most = some limit → least ≤ limit) :
    ∀ limit, (body.bounds least most).2 = some limit → (body.bounds least most).1 ≤ limit := by
  unfold bounds
  split
  next =>
    rintro _ ⟨⟩
    cases most with
    | none => exact Nat.min_le_right least 1
    | some limit =>
        have hlimit := hbounds limit rfl
        dsimp only [Option.getD_some]
        omega
  next => exact hbounds

/-- The bounds that a program keeps to allow other numbers of rounds, but no other matches. -/
theorem matches_repeated_bounds_iff (hbounds : ∀ limit, most = some limit → least ≤ limit) :
    Matches (.repeated greedy least most body) s t ↔
      ∃ k, Within (body.bounds least most) k ∧ Rounds body.Matches k s t := by
  rw [matches_repeated_iff]
  unfold bounds
  split
  next hwidthless =>
    have hstays : ∀ s t, body.Matches s t → s = t := fun _ _ hmatch => hmatch.stays hwidthless
    constructor
    · -- However many rounds there are, one of them does the same.
      rintro ⟨k, ⟨hleast, hmost⟩, hrounds⟩
      refine ⟨min k 1, ⟨by dsimp only at hleast ⊢; omega, ?_⟩, ?_⟩
      · intro upper hupper
        obtain rfl := Option.some.inj hupper
        cases most with
        | none => exact Nat.min_le_right k 1
        | some limit =>
            have hlimit := hmost limit rfl
            dsimp only [Option.getD_some]
            omega
      · cases k with
        | zero => exact hrounds
        | succ k => exact hrounds.any_number hstays _
    · rintro ⟨k, ⟨hleast, hmost⟩, hrounds⟩
      have hlimit := hmost _ rfl
      dsimp only at hleast hlimit
      cases k with
      | zero => exact ⟨0, ⟨by dsimp only; omega, fun _ _ => Nat.zero_le _⟩, hrounds⟩
      | succ k =>
          -- One round can be made as often as the lower bound asks for.
          refine ⟨max least 1, ⟨Nat.le_max_left least 1, ?_⟩, hrounds.any_number hstays _⟩
          rintro limit rfl
          have hbound := hbounds limit rfl
          dsimp only [Option.getD_some] at hlimit
          omega
  next => exact Iff.rfl

end Expr

end RouteAudit.Regex
