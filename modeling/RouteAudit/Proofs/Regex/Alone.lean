import RouteAudit.Proofs.Regex.Apart
import RouteAudit.Proofs.Regex.Names

/-! # Groups that are patterns of their own

A group taken out of a pattern that is read to its end is a pattern of its own, if its body closes
what it opens: as it stands there (`Completes.group_apart`), and with the body in other parentheses
(`Completes.body_apart`). Only how large its automata grow is not told: that depends on what they
share with others, so it is left out of what a pattern writes (`Expr.written?`).
-/

namespace RouteAudit.Regex

/-- The expression that a pattern writes, however large its automata grow. -/
def Expr.written? (pattern : List Char) : Option Expr := do
  let r ← Reader.last? (pattern.length + 1) {} pattern
  if r.groups.isEmpty && r.level.close.depth ≤ Piece.maxDepth then some r.level.close.toExpr
  else none

theorem Expr.ofPattern?_eq_written? (pattern : List Char) :
    Expr.ofPattern? pattern = (Expr.written? pattern).filter Expr.fits := by
  rw [Expr.ofPattern?, Reader.run?_eq_last?, Expr.written?]
  cases Reader.last? (pattern.length + 1) {} pattern with
  | none => rfl
  | some r =>
      simp only [Option.bind_some, Option.bind_eq_bind, Reader.finish?]
      cases r.groups.isEmpty && decide (r.level.close.depth ≤ Piece.maxDepth) with
      | false => rfl
      | true => cases hfits : r.level.close.toExpr.fits <;> simp [Option.filter, hfits]

theorem isSome_ofPattern?_iff {pattern : List Char} {e : Expr}
    (h : Expr.written? pattern = some e) : (Searcher.ofPattern? pattern).isSome ↔ e.fits := by
  rw [Searcher.ofPattern?, Option.isSome_map, Expr.ofPattern?_eq_written?, h]
  cases hfits : e.fits <;> simp [Option.filter, hfits]

/-- Whether a body closes what it opens, if it stands behind the parenthesis of a group: as many
groups are closed in it as opened and all its classes, no blanks stop to count, and it is no setting
of flags alone, which would hold for what follows. An opening bracket right behind a hyphen in a
class leaves open what it is, so it is let pass nowhere. -/
def closesItself (body : List Char) : Bool := Outline.closes ⟨0, .opening⟩ (body ++ [')'])

-- A class that is left open takes the parenthesis behind it in.
example : closesItself "[a".toList = false ∧ closesItself "[)(]|b".toList := by decide

namespace Reader

section

variable {fuel : Nat} {r r' closed : Reader} {kind : Group} {names : List String}
  {body cs rest tail text : List Char}

/-- Where a group closes apart, the pattern that has nothing else ends behind its parenthesis. -/
theorem last?_of_closes? (h : closes? fuel r cs = some closed) :
    last? (fuel + 1) r cs = closed.closeParen? := by
  induction fuel generalizing r cs with
  | zero => cases h
  | succ fuel ih =>
      rcases closes?_succ h with ⟨hnext, rfl, -⟩ | ⟨c, ds, r₁, rest, hnext, hstep, -, hmore⟩
      · rw [last?, hnext]
        dsimp only
        rw [step?]
        cases closed.closeParen? with
        | none => rfl
        | some last =>
            simp only [Option.map_some, Option.bind_eq_bind, Option.bind_some]
            rw [last?, next_nil]
      · rw [last?, hnext]
        simp only [hstep, Option.bind_eq_bind, Option.bind_some]
        exact ih hmore

theorem written?_of_closes? (hopen : ({} : Reader).step? '(' text = some (r, rest))
    (hclosed : closes? fuel r rest = some closed) (hfuel : fuel ≤ text.length)
    (hgroups : closed.groups = [⟨.fresh, kind, {}⟩])
    (hdepth : (Piece.group kind closed.level.close).depth ≤ Piece.maxDepth) :
    (Expr.written? ('(' :: text)).isSome := by
  have hlast := last?_of_closes? hclosed
  rw [closeParen?, hgroups] at hlast
  have hall : last? (fuel + 2) {} ('(' :: text) = last? (fuel + 1) r rest := by
    rw [last?]
    show (({} : Reader).step? '(' text).bind (fun found => last? (fuel + 1) found.1 found.2) = _
    rw [hopen]
    rfl
  rw [Expr.written?, last?_mono (hall.trans hlast) (by simpa using hfuel)]
  simp only [Option.bind_eq_bind, Option.bind_some]
  rw [if_pos]
  · rfl
  · rw [Bool.and_eq_true, decide_eq_true_eq]
    exact ⟨rfl, hdepth⟩

/-- A group opened alone as it is opened in the whole. -/
theorem Inside.of_opening {flags : Flags} (hflags : r'.flags = {}) (hstrict : flags.loose = false)
    (htake : r'.take? (.opening kind flags) = some r) :
    ∃ r₁, ({} : Reader).take? (.opening kind flags) = some r₁ ∧
      Inside ⟨.fresh, kind, {}⟩ ⟨r'.level, kind, {}⟩ r'.groups r'.names 0 r₁ r := by
  cases kind with
  | plain | numbered =>
      obtain rfl := Option.some.inj htake
      refine ⟨_, rfl, rfl, hstrict, rfl, ⟨[], rfl, ?_, rfl, List.forall_mem_nil _⟩, rfl⟩
      rw [Reader.openGroup, hflags]
      rfl
  | named name =>
      rw [Reader.take?] at htake
      split at htake
      next => cases htake
      next =>
        obtain rfl := Option.some.inj htake
        refine ⟨_, rfl, rfl, hstrict, rfl, ⟨[], rfl, ?_, rfl, List.forall_mem_nil _⟩, rfl⟩
        rw [Reader.openGroup, hflags]
        rfl

/-! ## Groups in a pattern -/

/-- With no flag set, every character counts. -/
theorem Completes.step_unset {c : Char} (h : Completes r (c :: cs)) (hflags : r.flags = {}) :
    ∃ r' rest, r.step? c cs = some (r', rest) ∧ Completes r' rest :=
  h.step (by rw [hflags]; rfl)

theorem Completes.past {c : Char} (h : Completes r (c :: cs)) (hflags : r.flags = {})
    (hstep : r.step? c cs = some (r', rest)) : Completes r' rest := by
  obtain ⟨found, behind, hfound, hcomplete⟩ := h.step_unset hflags
  obtain ⟨rfl, rfl⟩ := Prod.mk.inj (Option.some.inj (hstep.symm.trans hfound))
  exact hcomplete

/-- A group in a pattern that is read to its end is read apart, and it is a pattern of its own but
for its size. -/
theorem Completes.group_apart (h : Completes r' ('(' :: (body ++ ')' :: tail)))
    (hflags : r'.flags = {}) (hcloses : closesItself body) :
    (group? body).isSome ∧ (Expr.written? ('(' :: body ++ [')'])).isSome := by
  obtain ⟨r, rest, hstep, hcomplete⟩ := h.step_unset hflags
  rw [List.append_cons, step?_eq, hflags] at hstep
  obtain ⟨⟨construct, last⟩, hread, hstep⟩ := Option.bind_eq_some_iff.mp hstep
  obtain ⟨found, htake, heq⟩ := Option.map_eq_some_iff.mp hstep
  obtain ⟨rfl, rfl⟩ := Prod.mk.inj heq
  obtain ⟨behind, rfl, hread, henters, hlength⟩ := stays_ofParen? rfl hcloses hread
  cases construct with
  | piece | repetition | bar | closing => exact henters.elim
  | setting =>
      obtain ⟨-, around, hdepth, -⟩ := henters
      cases hdepth
  | opening kind flags =>
      obtain ⟨hstrict, hbehind⟩ := henters
      obtain ⟨r₁, htake₁, hinside⟩ := Inside.of_opening hflags hstrict htake
      have hfuel : behind.length ≤ body.length + 1 := by simpa using hlength
      obtain ⟨closed, hclosed, hgroups, hdepth⟩ := hcomplete.apart hinside rfl hbehind hfuel
      have hopen : ({} : Reader).step? '(' (body ++ [')']) = some (r₁, behind) := by
        rw [step?_eq]
        show (Construct.ofParen? {} (body ++ [')'])).bind _ = _
        rw [hread, Option.bind_some, htake₁]
        rfl
      refine ⟨?_, written?_of_closes? hopen hclosed (by simp) hgroups hdepth⟩
      rw [group?]
      show ((({} : Reader).step? '(' (body ++ [')'])).bind _).isSome
      rw [hopen, Option.bind_some]
      show (closes? (body.length + 1) r₁ behind).isSome
      rw [hclosed]
      rfl

/-- What is read for its names leads on, where the reader comes to the end. -/
theorem Completes.of_comes {limit : Nat} {Goal : Reader → Prop}
    (h : Completes r cs) (hcomes : Comes limit names r cs Goal rest) :
    ∃ r', Goal r' ∧ Completes r' rest := by
  by_cases hfresh : Fresh names r.names
  · obtain ⟨n, -, r', hreach, hgoal, -⟩ := hcomes.reach hfresh
    exact ⟨r', hgoal, h.of_reach hreach⟩
  · exact absurd (hcomes.stuck hfresh) h.not_stuck

/-! ## Groups that have been opened -/

/-- The reader stands right behind the parenthesis of a group, and no flag is set. -/
structure Begins (r : Reader) : Prop where
  flags : r.flags = {}
  level : r.level = .fresh
  inside : r.groups ≠ []

theorem begins_openGroup (r : Reader) (kind : Group) : (r.openGroup kind {}).Begins :=
  ⟨rfl, rfl, List.cons_ne_nil _ _⟩

theorem Completes.enter_plain (h : Completes r ('(' :: '?' :: ':' :: cs)) (hflags : r.flags = {}) :
    Completes (r.openGroup .plain {}) cs :=
  h.past hflags (step?_openPlain hflags cs)

theorem Completes.enter_numbered {c : Char} (h : Completes r ('(' :: c :: cs))
    (hflags : r.flags = {}) (hc : c ≠ '?') : Completes (r.openGroup .numbered {}) (c :: cs) :=
  h.past hflags (step?_openNumbered hflags hc cs)

theorem Completes.enter_named {name : List Char} (hname : isName name)
    (h : Completes r ("(?P<".toList ++ name ++ '>' :: cs)) (hflags : r.flags = {}) :
    Completes { r.openGroup (.named (String.ofList name)) {} with
      names := String.ofList name :: r.names } cs := by
  have htext : Completes r ('(' :: '?' :: 'P' :: '<' :: (name ++ '>' :: cs)) := h
  obtain ⟨r', rest, hstep, hcomplete⟩ := htext.step_unset hflags
  rw [step?_openNamed hflags hname] at hstep
  split at hstep
  next => cases hstep
  next =>
    obtain ⟨rfl, rfl⟩ := Prod.mk.inj (Option.some.inj hstep)
    exact hcomplete

/-- What has nothing before it is not repeated. -/
theorem Completes.head?_ne (h : Completes r (body ++ ')' :: tail)) (hbegins : r.Begins) :
    body.head? ≠ some '?' := by
  intro hc
  cases body with
  | nil => cases hc
  | cons c body =>
  obtain rfl := Option.some.inj hc
  obtain ⟨r', rest, hstep, -⟩ := h.step_unset hbegins.flags
  obtain ⟨found, hrepeat, -⟩ := Option.map_eq_some_iff.mp hstep
  rw [repeatLast?, hbegins.level] at hrepeat
  cases hrepeat

theorem closes_plain_of_closesItself (hcloses : closesItself body) (hhead : body.head? ≠ some '?') :
    Outline.closes ⟨0, .plain⟩ (body ++ [')']) := by
  cases body with
  | nil => rfl
  | cons c body =>
      rw [closesItself, List.cons_append, Outline.closes_opening, if_neg (by simpa using hhead)]
        at hcloses
      exact hcloses

/-- The body of a group that has just been opened in a pattern that is read to its end closes in
any group that is opened alone and takes only names that are new. -/
theorem Completes.body_apart (h : Completes r' (body ++ ')' :: tail)) (hbegins' : r'.Begins)
    (hcloses : closesItself body) (hbegins : r.Begins) (hgroups : r.groups = [⟨.fresh, kind, {}⟩])
    (hnames : r'.names = r.names ++ names) (hfuel : body.length < fuel) :
    ∃ closed, closes? fuel r (body ++ [')']) = some closed ∧
      closed.groups = [⟨.fresh, kind, {}⟩] ∧
      (Piece.group kind closed.level.close).depth ≤ Piece.maxDepth := by
  have hplain := closes_plain_of_closesItself hcloses (h.head?_ne hbegins')
  obtain ⟨group', outer, hgroups'⟩ := List.exists_cons_of_ne_nil hbegins'.inside
  have hinside : Inside ⟨.fresh, kind, {}⟩ group' outer names 0 r r' := by
    refine ⟨hbegins'.flags.trans hbegins.flags.symm, ?_, hbegins'.level.trans hbegins.level.symm,
      ⟨[], hgroups, hgroups', rfl, List.forall_mem_nil _⟩, hnames⟩
    rw [hbegins.flags]
  rw [List.append_cons] at h
  refine h.apart hinside rfl hplain ?_
  rw [List.length_append, List.length_singleton]
  exact hfuel

/-- The body can be read in a group that only holds together. -/
theorem Completes.plain_apart (h : Completes r (body ++ ')' :: tail)) (hbegins : r.Begins)
    (hcloses : closesItself body) : (group? ('?' :: ':' :: body)).isSome := by
  obtain ⟨closed, hclosed, -⟩ := h.body_apart hbegins hcloses (begins_openGroup {} .plain) rfl rfl
    (show body.length < body.length + 3 by omega)
  have hgroup : group? ('?' :: ':' :: body) = some closed := hclosed
  rw [hgroup]
  rfl

/-- The body is a pattern of its own with parentheses around it. -/
theorem Completes.numbered_alone (h : Completes r (body ++ ')' :: tail)) (hbegins : r.Begins)
    (hcloses : closesItself body) : (Expr.written? ('(' :: body ++ [')'])).isSome := by
  obtain ⟨closed, hclosed, hgroups, hdepth⟩ := h.body_apart hbegins hcloses
    (begins_openGroup {} .numbered) rfl rfl (Nat.lt_succ_self _)
  have hopen : ({} : Reader).step? '(' (body ++ [')']) =
      some (openGroup {} .numbered {}, body ++ [')']) := by
    have hhead := h.head?_ne hbegins
    cases body with
    | nil => rfl
    | cons c body => exact step?_openNumbered rfl (by simpa using hhead) _
  exact written?_of_closes? hopen hclosed (by simp) hgroups hdepth

/-- The body is a pattern of its own as a group with the name that it has in the whole. -/
theorem Completes.named_alone {name : List Char} (hname : isName name)
    (h : Completes r (body ++ ')' :: tail)) (hbegins : r.Begins)
    (hnames : r.names = String.ofList name :: names) (hcloses : closesItself body) :
    (Expr.written? ("(?P<".toList ++ name ++ '>' :: body ++ [')'])).isSome := by
  let opened : Reader := { openGroup {} (.named (String.ofList name)) {} with
    names := [String.ofList name] }
  obtain ⟨closed, hclosed, hgroups, hdepth⟩ := h.body_apart (r := opened) hbegins hcloses
    ⟨rfl, rfl, List.cons_ne_nil _ _⟩ rfl hnames (Nat.lt_succ_self _)
  have hopen : ({} : Reader).step? '(' ('?' :: 'P' :: '<' :: (name ++ '>' :: (body ++ [')']))) =
      some (opened, body ++ [')']) := step?_openNamed rfl hname _
  have hwritten := written?_of_closes? hopen hclosed (by simp; omega) hgroups hdepth
  rw [List.append_assoc, List.append_assoc]
  exact hwritten

end

end Reader

end RouteAudit.Regex
