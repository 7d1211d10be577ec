import RouteAudit.Proofs.Regex.Blocks
import RouteAudit.Proofs.Regex.Spots

/-! # Trails

A trail is a spot with the marks that were passed on the way to it. `Expr.Passes` says from which
trails to which an expression leads: it matches the stretch between the two spots
(`Passes.matches`), and what its groups with names have held shows in the marks (`Passes.traced`).
Of the marks that a name has been given only the latest count.
-/

namespace RouteAudit.Regex

open RouteAudit.Text (Spot)

/-- A spot and the marks passed on the way to it, latest first. -/
@[ext]
structure Trail where
  spot : Spot
  marks : List Mark

/-- A trail with one more mark, set where it stands. -/
def Trail.mark (c : Trail) (name : String) (opens : Bool) : Trail :=
  { c with marks := ⟨name, opens, c.spot.index⟩ :: c.marks }

/-- The latest marks of a name: where it was opened, and where it was closed. -/
def ends (marks : List Mark) (name : String) : Option Mark × Option Mark :=
  (marks.find? fun mark => mark.name == name && mark.opens,
    marks.find? fun mark => mark.name == name && !mark.opens)

namespace Trail

variable {name other : String} {opens : Bool} {c : Trail}

theorem ends_mark_of_ne (h : other ≠ name) :
    ends (c.mark other opens).marks name = ends c.marks name := by
  have hname : (other == name) = false := beq_eq_false_iff_ne.mpr h
  simp [ends, mark, hname]

theorem ends_mark_open :
    ends (c.mark name true).marks name =
      (some ⟨name, true, c.spot.index⟩, (ends c.marks name).2) := by
  simp [ends, mark]

theorem ends_mark_close :
    ends (c.mark name false).marks name =
      ((ends c.marks name).1, some ⟨name, false, c.spot.index⟩) := by
  simp [ends, mark]

end Trail

namespace Rounds

/-- Rounds of a kind seen through a function. -/
theorem map {α β : Type} {R : α → α → Prop} {S : β → β → Prop} {k : Nat} {a b : α} (f : α → β)
    (h : ∀ a b, R a b → S (f a) (f b)) (hrounds : Rounds R k a b) : Rounds S k (f a) (f b) := by
  induction hrounds with
  | zero a => exact .zero (f a)
  | succ hround _ ih => exact .succ (h _ _ hround) ih

end Rounds

namespace Expr

/-- The expression leads from one trail to another. -/
def Passes : Expr → Trail → Trail → Prop
  | empty => Eq
  | set chars => fun c d =>
    d.marks = c.marks ∧ ∃ char, c.spot.next? = some (char, d.spot) ∧ char ∈ chars
  | look assertion => fun c d => d = c ∧ assertion.holds c.spot
  | cat first second => fun c e => ∃ d, first.Passes c d ∧ second.Passes d e
  | alt first second => fun c d => first.Passes c d ∨ second.Passes c d
  | repeated _ least most body => fun c d =>
    ∃ k, Within (body.bounds least most) k ∧ Rounds body.Passes k c d
  | group (.named name) body => fun c d =>
    ∃ inner, body.Passes (c.mark name true) inner ∧ d = inner.mark name false
  | group _ body => body.Passes

/-- The bodies of the groups of a name. -/
def bodies (name : String) : Expr → List Expr
  | empty | set _ | look _ => []
  | cat first second | alt first second => first.bodies name ++ second.bodies name
  | repeated _ _ _ body => body.bodies name
  | group (.named other) body =>
    if other = name then body :: body.bodies name else body.bodies name
  | group _ body => body.bodies name

variable {e : Expr} {c d : Trail} {text : List Char} {name : String}

theorem bodies_named (name other : String) (body : Expr) :
    (group (.named other) body).bodies name =
      if other = name then body :: body.bodies name else body.bodies name := rfl

theorem bodies_seq (name : String) (es : List Expr) :
    (Expr.seq es).bodies name = es.flatMap (bodies name) := by
  induction es with
  | nil => rfl
  | cons e es ih =>
      cases es with
      | nil => exact (List.append_nil _).symm
      | cons f es => exact congrArg (e.bodies name ++ ·) ih

theorem passes_seq_cons {e : Expr} {es : List Expr} {c d : Trail} :
    (Expr.seq (e :: es)).Passes c d ↔
      ∃ middle, e.Passes c middle ∧ (Expr.seq es).Passes middle d := by
  cases es with
  | nil =>
      constructor
      · exact fun h => ⟨d, h, rfl⟩
      · rintro ⟨_, h, rfl⟩
        exact h
  | cons f es => exact Iff.rfl

theorem passes_seq_concat {e : Expr} {es : List Expr} {c d : Trail} :
    (Expr.seq (es ++ [e])).Passes c d ↔
      ∃ middle, (Expr.seq es).Passes c middle ∧ e.Passes middle d := by
  induction es generalizing c with
  | nil =>
      constructor
      · exact fun h => ⟨c, rfl, h⟩
      · rintro ⟨_, rfl, h⟩
        exact h
  | cons f es ih =>
      simp only [List.cons_append, passes_seq_cons, ih]
      constructor
      · rintro ⟨middle, hfirst, last, hmiddle, hlast⟩
        exact ⟨last, ⟨middle, hfirst, hmiddle⟩, hlast⟩
      · rintro ⟨last, ⟨middle, hfirst, hmiddle⟩, hlast⟩
        exact ⟨middle, hfirst, last, hmiddle, hlast⟩

theorem Passes.matches (h : e.Passes c d) (hbounded : e.wellBounded) :
    e.Matches c.spot d.spot := by
  induction e generalizing c d with
  | empty =>
      obtain rfl := h
      exact .empty _
  | set chars =>
      obtain ⟨-, char, hnext, hmem⟩ := h
      exact .set hnext hmem
  | look assertion =>
      obtain ⟨rfl, hholds⟩ := h
      exact .look hholds
  | cat first second ihfirst ihsecond =>
      rw [wellBounded, Bool.and_eq_true] at hbounded
      obtain ⟨middle, hfirst, hsecond⟩ := h
      exact .cat (ihfirst hfirst hbounded.1) (ihsecond hsecond hbounded.2)
  | alt first second ihfirst ihsecond =>
      rw [wellBounded, Bool.and_eq_true] at hbounded
      rcases h with hfirst | hsecond
      · exact .altFirst (ihfirst hfirst hbounded.1)
      · exact .altSecond (ihsecond hsecond hbounded.2)
  | repeated greedy least most body ih =>
      rw [wellBounded, Bool.and_eq_true] at hbounded
      obtain ⟨k, hwithin, hrounds⟩ := h
      have horder : ∀ limit, most = some limit → least ≤ limit := by
        rintro limit rfl
        simpa using hbounded.1
      have hmatches : Rounds body.Matches k c.spot d.spot :=
        hrounds.map Trail.spot fun _ _ hround => ih hround hbounded.2
      exact (matches_repeated_bounds_iff horder).mpr ⟨k, hwithin, hmatches⟩
  | group kind body ih =>
      cases kind with
      | plain | numbered => exact .group (ih h hbounded)
      | named other =>
          obtain ⟨inner, hinner, rfl⟩ := h
          exact .group (@ih (c.mark other true) inner hinner hbounded)

theorem Passes.mem_all (h : e.Passes c d) (hc : c.spot ∈ Spot.all text) :
    d.spot ∈ Spot.all text := by
  induction e generalizing c d with
  | empty =>
      obtain rfl := h
      exact hc
  | set chars =>
      obtain ⟨-, char, hnext, -⟩ := h
      exact Spot.next?_mem hc hnext
  | look assertion =>
      obtain ⟨rfl, -⟩ := h
      exact hc
  | cat first second ihfirst ihsecond =>
      obtain ⟨middle, hfirst, hsecond⟩ := h
      exact ihsecond hsecond (ihfirst hfirst hc)
  | alt first second ihfirst ihsecond =>
      rcases h with hfirst | hsecond
      · exact ihfirst hfirst hc
      · exact ihsecond hsecond hc
  | repeated greedy least most body ih =>
      obtain ⟨k, -, hrounds⟩ := h
      exact hrounds.keeps (p := fun d => d.spot ∈ Spot.all text)
        (fun _ _ hround hs => ih hround hs) hc
  | group kind body ih =>
      cases kind with
      | plain | numbered => exact ih h hc
      | named other =>
          obtain ⟨inner, hinner, rfl⟩ := h
          exact @ih (c.mark other true) inner hinner hc

/-! ## Marks of a name -/

/-- The latest marks of a name are those that there were before, or they were set around one of some
expressions. -/
def Traced (text : List Char) (name : String) (found : List Expr) (c d : Trail) : Prop :=
  ends d.marks name = ends c.marks name ∨ ∃ body ∈ found, ∃ opened closed : Trail,
    opened.spot ∈ Spot.all text ∧ body.Passes opened closed ∧
      ends d.marks name =
        (some ⟨name, true, opened.spot.index⟩, some ⟨name, false, closed.spot.index⟩)

namespace Traced

variable {found more : List Expr} {body : Expr} {other : String} {e inner : Trail}

theorem refl (c : Trail) : Traced text name found c c := .inl rfl

theorem trans (hcd : Traced text name found c d) (hde : Traced text name found d e) :
    Traced text name found c e := by
  rcases hde with hsame | hset
  · rwa [Traced, hsame]
  · exact .inr hset

theorem mono (h : Traced text name found c d) (hfound : found ⊆ more) :
    Traced text name more c d := by
  rcases h with hsame | ⟨body, hbody, hset⟩
  · exact .inl hsame
  · exact .inr ⟨body, hfound hbody, hset⟩

theorem ends_eq (h : Traced text name [] c d) : ends d.marks name = ends c.marks name :=
  h.resolve_right fun ⟨_, hbody, _⟩ => absurd hbody List.not_mem_nil

/-- A group of the name sets its marks, where nothing inside it does. -/
theorem around (hc : c.spot ∈ Spot.all text) (hinner : body.Passes (c.mark name true) inner)
    (hkept : ends inner.marks name = ends (c.mark name true).marks name) :
    Traced text name (body :: found) c (inner.mark name false) := by
  refine .inr ⟨body, List.mem_cons_self, c.mark name true, inner, hc, hinner, ?_⟩
  rw [Trail.ends_mark_close, hkept, Trail.ends_mark_open]
  rfl

/-- A group of another name adds nothing. -/
theorem inside (hne : other ≠ name) (h : Traced text name found (c.mark other true) inner) :
    Traced text name found c (inner.mark other false) := by
  unfold Traced at h ⊢
  rwa [Trail.ends_mark_of_ne hne, ← @Trail.ends_mark_of_ne name other true c hne]

end Traced

/-- What an expression leaves of a name was set around one of its groups, where no such group is
inside another. -/
theorem Passes.traced (h : e.Passes c d) (hc : c.spot ∈ Spot.all text)
    (hflat : ∀ body ∈ e.bodies name, body.bodies name = []) :
    Traced text name (e.bodies name) c d := by
  induction e generalizing c d with
  | empty =>
      obtain rfl := h
      exact .refl c
  | set chars =>
      obtain ⟨hmarks, -⟩ := h
      exact .inl (by rw [hmarks])
  | look assertion =>
      obtain ⟨rfl, -⟩ := h
      exact .refl d
  | cat first second ihfirst ihsecond =>
      obtain ⟨middle, hfirst, hsecond⟩ := h
      obtain ⟨hflatFirst, hflatSecond⟩ := List.forall_mem_append.mp hflat
      have hbefore := ihfirst hfirst hc hflatFirst
      have hbehind := ihsecond hsecond (hfirst.mem_all hc) hflatSecond
      exact (hbefore.mono (List.subset_append_left _ _)).trans
        (hbehind.mono (List.subset_append_right _ _))
  | alt first second ihfirst ihsecond =>
      obtain ⟨hflatFirst, hflatSecond⟩ := List.forall_mem_append.mp hflat
      rcases h with hfirst | hsecond
      · exact (ihfirst hfirst hc hflatFirst).mono (List.subset_append_left _ _)
      · exact (ihsecond hsecond hc hflatSecond).mono (List.subset_append_right _ _)
  | repeated greedy least most body ih =>
      obtain ⟨k, -, hrounds⟩ := h
      have hkept : d.spot ∈ Spot.all text ∧ Traced text name (body.bodies name) c d :=
        hrounds.keeps
          (p := fun d => d.spot ∈ Spot.all text ∧ Traced text name (body.bodies name) c d)
          (fun _ _ hround hs => ⟨hround.mem_all hs.1, hs.2.trans (ih hround hs.1 hflat)⟩)
          ⟨hc, .refl c⟩
      exact hkept.2
  | group kind body ih =>
      cases kind with
      | plain | numbered => exact ih h hc hflat
      | named other =>
          obtain ⟨inner, hinner, rfl⟩ := h
          rw [bodies_named] at hflat ⊢
          split at hflat
          next heq =>
            subst heq
            obtain ⟨hempty, -⟩ := List.forall_mem_cons.mp hflat
            rw [if_pos rfl]
            -- Inside the group the name is given to nothing else.
            have htraced := @ih (c.mark other true) inner hinner hc
            rw [hempty] at htraced
            exact .around hc hinner (htraced (List.forall_mem_nil _)).ends_eq
          next hne =>
            rw [if_neg hne]
            exact .inside hne (@ih (c.mark other true) inner hinner hc hflat)

/-- An expression without a group of a name leaves the marks of the name. -/
theorem Passes.ends_eq (h : e.Passes c d) (hc : c.spot ∈ Spot.all text)
    (hnone : e.bodies name = []) : ends d.marks name = ends c.marks name := by
  have htraced := @h.traced _ _ _ text name hc
  rw [hnone] at htraced
  exact (htraced (List.forall_mem_nil _)).ends_eq

end Expr

end RouteAudit.Regex
