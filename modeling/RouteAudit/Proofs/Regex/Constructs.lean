import Mathlib.Logic.Relation
import RouteAudit.Proofs.Regex.Language
import RouteAudit.Proofs.Regex.Search
import RouteAudit.Proofs.Text.Span
import RouteAudit.Regex.Reader

/-! # Patterns read construct by construct

What the reader makes of a piece of a pattern depends neither on what was read before nor on
what follows, as long as no flag is set and what follows does not start with a question mark.
A text that grows the row being read by a language does so wherever it stands (`Grows`), and
one that adds a single piece may be repeated (`Adds`). A pattern is read by putting these
together.
-/

namespace RouteAudit.Regex

open RouteAudit.Text (Spot)
open RouteAudit.Regex.Expr (Reaches)
open scoped Computability

/-! ## Rows -/

theorem seq_concat_matches_iff {es : List Expr} {e : Expr} {s u : Spot} :
    (Expr.seq (es ++ [e])).Matches s u ↔ ∃ t, (Expr.seq es).Matches s t ∧ e.Matches t u := by
  induction es generalizing s with
  | nil =>
      simp [Expr.seq, Expr.matches_empty_iff]
  | cons first es ih =>
      cases es with
      | nil => exact Expr.matches_cat_iff
      | cons second es =>
          have hlong : ∀ t, (Expr.seq (first :: second :: es)).Matches s t ↔
              ∃ v, first.Matches s v ∧ (Expr.seq (second :: es)).Matches v t :=
            fun _ => Expr.matches_cat_iff
          have hcons : (Expr.seq (first :: second :: es ++ [e])).Matches s u ↔
              ∃ t, first.Matches s t ∧ (Expr.seq (second :: es ++ [e])).Matches t u :=
            Expr.matches_cat_iff
          simp only [hcons, hlong, ih]
          constructor
          · rintro ⟨v, hfirst, t, hmiddle, hlast⟩
            exact ⟨t, ⟨v, hfirst, hmiddle⟩, hlast⟩
          · rintro ⟨t, ⟨v, hfirst, hmiddle⟩, hlast⟩
            exact ⟨v, hfirst, t, hmiddle, hlast⟩

theorem seq_concat_wellBounded {es : List Expr} {e : Expr} :
    (Expr.seq (es ++ [e])).wellBounded = ((Expr.seq es).wellBounded && e.wellBounded) := by
  induction es with
  | nil => rfl
  | cons first es ih =>
      cases es with
      | nil => rfl
      | cons second es =>
          have hcons : (Expr.seq (first :: second :: es ++ [e])).wellBounded =
              (first.wellBounded && (Expr.seq (second :: es ++ [e])).wellBounded) := rfl
          rw [hcons, ih, ← Bool.and_assoc]
          rfl

theorem row_toExpr (pieces : List Piece) :
    (Piece.row pieces).toExpr = .seq (pieces.reverse.map Piece.toExpr) := by
  cases pieces with
  | nil => rfl
  | cons piece pieces =>
      cases pieces with
      | nil => rfl
      | cons second pieces => rfl

/-- The pieces of a row, given last one first, match the stretches of a relation. -/
structure Row (pieces : List Piece) (R : Spot → Spot → Prop) : Prop where
  wellBounded : (Piece.row pieces).toExpr.wellBounded
  matches_iff : ∀ s t, (Piece.row pieces).toExpr.Matches s t ↔ R s t

theorem Row.nil : Row [] Eq := by
  refine ⟨rfl, ?_⟩
  intro s t
  rw [eq_comm]
  exact Expr.matches_empty_iff

theorem Row.cons {pieces : List Piece} {piece : Piece} {R S : Spot → Spot → Prop}
    (h : Row pieces R) (hbounded : piece.toExpr.wellBounded)
    (hmatches : ∀ s t, piece.toExpr.Matches s t ↔ S s t) :
    Row (piece :: pieces) (Relation.Comp R S) := by
  obtain ⟨hrow, hiff⟩ := h
  rw [row_toExpr] at hrow
  simp only [row_toExpr] at hiff
  refine ⟨?_, ?_⟩
  · rw [row_toExpr, List.reverse_cons, List.map_append, List.map_singleton,
      seq_concat_wellBounded, hrow, hbounded]
    rfl
  · intro s t
    rw [row_toExpr, List.reverse_cons, List.map_append, List.map_singleton,
      seq_concat_matches_iff]
    simp only [hiff, hmatches, Relation.Comp]

/-- Whether an assertion holds where nothing is passed. -/
def Checks (assertion : Look) (s t : Spot) : Prop := t = s ∧ assertion.holds s

theorem Row.look {pieces : List Piece} {R : Spot → Spot → Prop} (h : Row pieces R)
    (assertion : Look) :
    Row (.ofLook assertion :: pieces) (Relation.Comp R (Checks assertion)) :=
  h.cons rfl fun _ _ => Expr.matches_look_iff

namespace Reader

/-! ## Reading on -/

/-- Reading a text from one state comes to reading the rest of it from another state. -/
def Reads (r : Reader) (cs : List Char) (r' : Reader) (rest : List Char) : Prop :=
  ∀ fuel e, run? fuel r cs = some e → ∃ fuel', run? fuel' r' rest = some e

/-- What may follow a repetition without changing it. -/
def Calm (rest : List Char) : Prop := rest.head? ≠ some '?'

/-- One state is another one with a piece added to the branch being read. -/
structure Adds (r r' : Reader) (piece : Piece) : Prop where
  flags : r'.flags = r.flags
  groups : r'.groups = r.groups
  level : r'.level = { r.level with pieces := piece :: r.level.pieces }

/-- One state is another one with a language read behind the branch being read. -/
structure Extends (r r' : Reader) (L : Language Char) : Prop where
  flags : r'.flags = r.flags
  groups : r'.groups = r.groups
  branches : r'.level.branches = r.level.branches
  row : ∀ R, Row r.level.pieces R → Row r'.level.pieces (Relation.Comp R (Reaches L))

/-- A piece that matches the texts of a language. -/
def Stands (piece : Piece) (L : Language Char) : Prop :=
  ∃ e, piece.expr = some e ∧ e.Denotes L

/-- A text that is read as one piece, which matches the texts of a language. -/
def Atom (text : List Char) (L : Language Char) : Prop :=
  ∀ r rest, r.flags = {} → ∃ r' piece, Reads r (text ++ rest) r' rest ∧ Adds r r' piece ∧
    Stands piece L

/-- A text that is read as pieces that match the texts of a language in a row. -/
def Grows (text : List Char) (L : Language Char) : Prop :=
  ∀ r rest, r.flags = {} → Calm rest → ∃ r', Reads r (text ++ rest) r' rest ∧ Extends r r' L

section

variable {r r' r'' : Reader} {c : Char} {cs rest text first second : List Char} {piece : Piece}
  {L M : Language Char}

theorem Reads.refl (r : Reader) (cs : List Char) : Reads r cs r cs := fun fuel _ hrun =>
  ⟨fuel, hrun⟩

theorem Reads.trans (hfirst : Reads r first r' second) (hsecond : Reads r' second r'' rest) :
    Reads r first r'' rest := by
  intro fuel e hrun
  obtain ⟨fuel', hrun'⟩ := hfirst fuel e hrun
  exact hsecond fuel' e hrun'

/-- One construct is read if nothing else can come of it. -/
theorem Reads.step (hflags : r.flags = {})
    (hstep : ∀ read, r.step? c cs = some read → read = (r', rest)) :
    Reads r (c :: cs) r' rest := by
  intro fuel e hrun
  cases fuel with
  | zero => cases hrun
  | succ fuel =>
      have hnext : r.flags.next (c :: cs) = c :: cs := by rw [hflags]; rfl
      rw [run?, hnext] at hrun
      obtain ⟨read, hread, hrun⟩ := Option.bind_eq_some_iff.mp hrun
      rw [hstep read hread] at hrun
      exact ⟨fuel, hrun⟩

theorem Extends.refl (r : Reader) : Extends r r 1 := by
  refine ⟨rfl, rfl, rfl, ?_⟩
  intro R hrow
  have hone : Relation.Comp R (Reaches 1) = R := by
    funext s u
    simp [Relation.Comp, Expr.reaches_one_iff]
  rwa [hone]

theorem Extends.trans (hfirst : Extends r r' L) (hsecond : Extends r' r'' M) :
    Extends r r'' (L * M) := by
  refine ⟨hsecond.flags.trans hfirst.flags, hsecond.groups.trans hfirst.groups,
    hsecond.branches.trans hfirst.branches, ?_⟩
  intro R hrow
  have hmul : Reaches (L * M) = Relation.Comp (Reaches L) (Reaches M) := by
    funext s u
    exact propext Expr.reaches_mul_iff
  rw [hmul, ← Relation.comp_assoc]
  exact hsecond.row _ (hfirst.row R hrow)

theorem Adds.extends (h : Adds r r' piece) (hpiece : Stands piece L) : Extends r r' L := by
  obtain ⟨e, hexpr, hdenotes⟩ := hpiece
  have htoExpr : piece.toExpr = e := by rw [Piece.toExpr, hexpr, Option.getD_some]
  refine ⟨h.flags, h.groups, by rw [h.level], ?_⟩
  intro R hrow
  rw [h.level]
  apply hrow.cons
  · rw [htoExpr]
    exact hdenotes.wellBounded
  · rw [htoExpr]
    exact hdenotes.matches_iff

theorem Atom.grows (h : Atom text L) : Grows text L := by
  intro r rest hflags _
  obtain ⟨r', piece, hreads, hadds, hpiece⟩ := h r rest hflags
  exact ⟨r', hreads, hadds.extends hpiece⟩

theorem Grows.nil : Grows [] 1 := fun r rest _ _ => ⟨r, .refl r rest, .refl r⟩

theorem calm_cons (hc : c ≠ '?') : Calm (c :: cs) := fun heq => hc (Option.some.inj heq)

theorem calm_append (hsecond : Calm second) (hrest : Calm rest) : Calm (second ++ rest) := by
  cases second with
  | nil => exact hrest
  | cons c second => exact hsecond

theorem Grows.append (hfirst : Grows first L) (hcalm : Calm second) (hsecond : Grows second M) :
    Grows (first ++ second) (L * M) := by
  intro r rest hflags hrest
  obtain ⟨r', hreads, hextends⟩ := hfirst r (second ++ rest) hflags (calm_append hcalm hrest)
  obtain ⟨r'', hreads', hextends'⟩ := hsecond r' rest (hextends.flags.trans hflags) hrest
  rw [List.append_assoc]
  exact ⟨r'', hreads.trans hreads', hextends.trans hextends'⟩

/-! ## Characters -/

theorem Reads.push {expr : Expr} (hflags : r.flags = {}) {depth : Nat}
    (hstep : r.step? c cs = some (r.push ⟨some expr, depth⟩, rest)) :
    Reads r (c :: cs) (r.push ⟨some expr, depth⟩) rest := by
  apply Reads.step hflags
  intro read hread
  rw [hstep] at hread
  exact (Option.some.inj hread).symm

theorem adds_push (r : Reader) (piece : Piece) : Adds r (r.push piece) piece := ⟨rfl, rfl, rfl⟩

theorem atom_of_push {expr : Expr} {d : Nat} (hexpr : expr.Denotes L)
    (hstep : ∀ (r : Reader) rest, r.flags = {} →
      r.step? c (cs ++ rest) = some (r.push ⟨some expr, d⟩, rest)) : Atom (c :: cs) L := by
  intro r rest hflags
  exact ⟨_, _, Reads.push hflags (hstep r rest hflags), adds_push r _, ⟨expr, rfl, hexpr⟩⟩

theorem step?_plain (hflags : r.flags = {}) (hplain : isMeta c = false) (cs : List Char) :
    r.step? c cs = some (r.push ⟨some (.set (.single c)), 0⟩, cs) := by
  have hchar : Piece.char r.flags c = ⟨some (.set (.single c)), 0⟩ := by rw [hflags]; rfl
  unfold step?
  split <;> first | cases hplain | rw [← hchar]

theorem step?_escaped (hflags : r.flags = {}) (hmeta : isMeta c) (cs : List Char) :
    r.step? '\\' (c :: cs) = some (r.push ⟨some (.set (.single c)), 0⟩, cs) := by
  have hescape : readEscape? r.flags (c :: cs) = some (.char c false, cs) := by
    have hescapable : isEscapable c := by rw [isEscapable, hmeta, Bool.true_or]
    exact if_pos hescapable
  have hpushed : r.pushEscaped? (.char c false) = some (r.push ⟨some (.set (.single c)), 0⟩) := by
    rw [pushEscaped?, hflags]
    rfl
  rw [step?, hescape]
  simp [hpushed]

theorem step?_dot (hflags : r.flags = {}) (cs : List Char) :
    r.step? '.' cs = some (r.push ⟨some (.set (.compl (.single '\n'))), 0⟩, cs) := by
  rw [step?, hflags]
  rfl

theorem step?_notSlash (hflags : r.flags = {}) (cs : List Char) :
    r.step? '[' ('^' :: '/' :: ']' :: cs) =
      some (r.push ⟨some (.set (.compl (.single '/'))), 1⟩, cs) := by
  have hclass : readClass? {} ('^' :: '/' :: ']' :: cs) =
      some (⟨.compl (.single '/'), 1⟩, cs) := rfl
  rw [step?, hflags, hclass]
  rfl

/-- A character without a meaning of its own. -/
theorem atom_plain (hplain : isMeta c = false) : Atom [c] {[c]} :=
  atom_of_push (Expr.Denotes.single c) fun _ rest hflags => step?_plain hflags hplain rest

/-- A character behind a backslash. -/
theorem atom_escaped (hmeta : isMeta c) : Atom ['\\', c] {[c]} :=
  atom_of_push (Expr.Denotes.single c) fun _ rest hflags => step?_escaped hflags hmeta rest

/-- The dot. -/
theorem atom_dot : Atom ['.'] (Expr.other '\n') :=
  atom_of_push (Expr.Denotes.notSingle '\n') fun _ rest hflags => step?_dot hflags rest

/-- The class of all characters but the slash. -/
theorem atom_notSlash : Atom "[^/]".toList (Expr.other '/') :=
  atom_of_push (Expr.Denotes.notSingle '/') fun _ rest hflags => step?_notSlash hflags rest

/-! ## Repetitions -/

/-- The text behind does not make a repetition a lazy one. -/
theorem readGreed_calm (h : Calm rest) : readGreed rest = (true, rest) := by
  cases rest with
  | nil => rfl
  | cons c rest =>
      rw [readGreed]
      rintro cs heq
      exact h (by rw [(List.cons.inj heq).1]; rfl)

theorem Atom.repeated {least : Nat} {most : Option Nat} (h : Atom text L)
    (hstep : ∀ (r : Reader) cs, r.step? c cs =
      (r.repeatLast? (readGreed cs).1 least most).map (·, (readGreed cs).2))
    (hrepeated : ∀ e greedy, e.Denotes L → (Expr.repeated greedy least most e).Denotes M) :
    Grows (text ++ [c]) M := by
  intro r rest hflags hcalm
  obtain ⟨r', piece, hreads, hadds, e, hexpr, hdenotes⟩ := h r (c :: rest) hflags
  have hgreed := readGreed_calm hcalm
  obtain ⟨added, hadded⟩ : ∃ added, piece.repeat? (true != r'.flags.lazyFirst) least most =
      some added ∧ Stands added M := by
    refine ⟨_, by rw [Piece.repeat?, hexpr]; rfl, _, rfl, ?_⟩
    exact hrepeated e _ hdenotes
  refine ⟨{ r' with level := { r.level with pieces := added :: r.level.pieces } }, ?_, ?_⟩
  · rw [List.append_assoc]
    apply hreads.trans
    apply Reads.step (hadds.flags.trans hflags)
    intro read hread
    rw [hstep, hgreed, repeatLast?, hadds.level] at hread
    simp only [Option.bind_eq_bind, hadded.1, Option.bind_some, Option.map_some, Option.pure_def,
      Option.some.injEq] at hread
    exact hread.symm
  · have hnew : Adds r { r' with level := { r.level with pieces := added :: r.level.pieces } }
        added := ⟨hadds.flags, hadds.groups, rfl⟩
    exact hnew.extends hadded.2

theorem Atom.opt (h : Atom text L) : Grows (text ++ ['?']) (1 + L) :=
  h.repeated (fun _ _ => rfl) fun _ _ he => he.opt

theorem Atom.star (h : Atom text L) : Grows (text ++ ['*']) L∗ :=
  h.repeated (fun _ _ => rfl) fun _ _ he => he.star

theorem Atom.plus (h : Atom text L) : Grows (text ++ ['+']) (L * L∗) :=
  h.repeated (fun _ _ => rfl) fun _ _ he => he.plus

/-! ## Groups -/

/-- One state is another one with a group opened. -/
structure Opens (r r' : Reader) (kind : Group) : Prop where
  flags : r'.flags = {}
  level : r'.level = .fresh
  groups : r'.groups = ⟨r.level, kind, r.flags⟩ :: r.groups

theorem Opens.closed {kind : Group} (hopens : Opens r r' kind) (hextends : Extends r' r'' L) :
    ∃ closed piece, r''.closeParen? = some closed ∧ Adds r closed piece ∧ Stands piece L := by
  have hgroups := hextends.groups.trans hopens.groups
  have hempty : Row r'.level.pieces Eq := by
    rw [hopens.level]
    exact Row.nil
  have hrow := hextends.row Eq hempty
  have hclose : r''.level.close = Piece.row r''.level.pieces := by
    rw [Level.close, hextends.branches, hopens.level]
    rfl
  let piece : Piece := .group kind r''.level.close
  let level : Level := { r.level with pieces := piece :: r.level.pieces }
  refine ⟨{ r'' with flags := r.flags, level, groups := r.groups }, piece, ?_, ⟨rfl, rfl, rfl⟩,
    .group kind r''.level.close.toExpr, rfl, ?_⟩
  · rw [closeParen?, hgroups]
  rw [hclose]
  apply Expr.Denotes.group
  refine ⟨hrow.wellBounded, ?_⟩
  intro s t
  rw [hrow.matches_iff, Relation.eq_comp]

/-- What is read in parentheses is one piece. -/
theorem Grows.atom {opening body : List Char} (hbody : Grows body L)
    (hopen : ∀ (r : Reader) rest, r.flags = {} → ∃ r' kind,
      Reads r (opening ++ (body ++ ')' :: rest)) r' (body ++ ')' :: rest) ∧ Opens r r' kind) :
    Atom (opening ++ body ++ [')']) L := by
  intro r rest hflags
  obtain ⟨opened, kind, hreads, hopens⟩ := hopen r rest hflags
  have hcalm : Calm (')' :: rest) := by simp [Calm]
  obtain ⟨filled, hfills, hextends⟩ := hbody opened (')' :: rest) hopens.flags hcalm
  obtain ⟨closed, piece, hclosed, hadds, hpiece⟩ := hopens.closed hextends
  refine ⟨closed, piece, ?_, hadds, hpiece⟩
  rw [List.append_assoc, List.append_assoc]
  apply hreads.trans
  apply hfills.trans
  apply Reads.step (hextends.flags.trans hopens.flags)
  intro read hread
  rw [step?, hclosed] at hread
  exact (Option.some.inj hread).symm

theorem step?_openPlain (hflags : r.flags = {}) (cs : List Char) :
    r.step? '(' ('?' :: ':' :: cs) = some (r.openGroup .plain {}, cs) := by
  rw [step?, openParen?, hflags]
  rfl

theorem step?_openNumbered (hflags : r.flags = {}) (hc : c ≠ '?') (cs : List Char) :
    r.step? '(' (c :: cs) = some (r.openGroup .numbered {}, c :: cs) := by
  have hnext : r.flags.next (c :: cs) = c :: cs := by
    rw [hflags]
    rfl
  rw [step?]
  unfold openParen?
  rw [hnext, hflags]
  simp [hc]

/-- A group that only holds together is opened. -/
theorem opens_plain (hflags : r.flags = {}) (cs : List Char) :
    ∃ r', Reads r ("(?:".toList ++ cs) r' cs ∧ Opens r r' .plain := by
  refine ⟨r.openGroup .plain {}, ?_, rfl, rfl, rfl⟩
  apply Reads.step hflags
  intro read hread
  exact (Option.some.inj ((step?_openPlain hflags _).symm.trans hread)).symm

/-- A group that keeps what it holds under a number is opened. -/
theorem opens_numbered (hflags : r.flags = {}) (hc : c ≠ '?') (cs : List Char) :
    ∃ r', Reads r (['('] ++ c :: cs) r' (c :: cs) ∧ Opens r r' .numbered := by
  refine ⟨r.openGroup .numbered {}, ?_, rfl, rfl, rfl⟩
  apply Reads.step hflags
  intro read hread
  exact (Option.some.inj ((step?_openNumbered hflags hc _).symm.trans hread)).symm

/-- A group that keeps what it holds under a name is opened. -/
theorem opens_named {name : List Char} (hname : '>' ∉ name) (hflags : r.flags = {})
    (cs : List Char) : ∃ r', Reads r ("(?P<".toList ++ name ++ ['>'] ++ cs) r' cs ∧
      Opens r r' (.named (String.ofList name)) := by
  have hspan : (name ++ '>' :: cs).span (· ≠ '>') = (name, '>' :: cs) := by
    refine Text.span_eq_iff.mpr ⟨rfl, ?_, ?_⟩
    · intro c hc
      rw [decide_eq_true_eq]
      rintro rfl
      exact hname hc
    · intro c hc
      obtain rfl : '>' = c := Option.some.inj hc
      decide
  have htext : "(?P<".toList ++ name ++ ['>'] ++ cs =
      '(' :: '?' :: 'P' :: '<' :: (name ++ '>' :: cs) := by
    rw [List.append_assoc, List.append_assoc]
    rfl
  rw [htext]
  refine ⟨{ r.openGroup (.named (String.ofList name)) {} with
    names := String.ofList name :: r.names }, ?_, rfl, rfl, rfl⟩
  apply Reads.step hflags
  intro read hread
  have hparen : r.openParen? ('?' :: 'P' :: '<' :: (name ++ '>' :: cs)) =
      r.openNamed? (name ++ '>' :: cs) := by
    rw [openParen?, hflags]
    rfl
  rw [step?, hparen] at hread
  obtain ⟨⟨taken, after⟩, htaken, hopen⟩ := Option.bind_eq_some_iff.mp hread
  rw [readName?, hspan] at htaken
  dsimp only at hopen
  split at hopen
  · cases hopen
  · split at htaken
    next first others _ after' heq =>
      obtain ⟨rfl, hafter⟩ := Prod.mk.inj heq
      obtain ⟨-, rfl⟩ := List.cons.inj hafter
      split at htaken
      · obtain ⟨rfl, rfl⟩ := Prod.mk.inj (Option.some.inj htaken)
        rw [hflags] at hopen
        exact (Option.some.inj hopen).symm
      · cases htaken
    next => cases htaken

/-- Parentheses that only hold together. -/
theorem Grows.plainGroup (hbody : Grows text L) : Atom ("(?:".toList ++ text ++ [')']) L :=
  hbody.atom fun _ _ hflags => (opens_plain hflags _).imp fun _ hr' => ⟨_, hr'⟩

/-- Parentheses that keep what they hold under a name. -/
theorem Grows.namedGroup {name : List Char} (hname : '>' ∉ name) (hbody : Grows text L) :
    Atom ("(?P<".toList ++ name ++ ['>'] ++ text ++ [')']) L :=
  hbody.atom fun _ _ hflags => (opens_named hname hflags _).imp fun _ hr' => ⟨_, hr'⟩

/-- Parentheses that keep what they hold under a number. -/
theorem Grows.numberedGroup (hbody : Grows (c :: text) L) (hc : c ≠ '?') :
    Atom (['('] ++ c :: text ++ [')']) L :=
  hbody.atom fun _ _ hflags => (opens_numbered hflags hc _).imp fun _ hr' => ⟨_, hr'⟩

/-! ## Whole patterns -/

theorem finish_of_run {fuel : Nat} {e : Expr} (hflags : r.flags = {})
    (hbranches : r.level.branches = []) (hrun : run? fuel r [] = some e) :
    e = (Piece.row r.level.pieces).toExpr := by
  have hclose : r.level.close = Piece.row r.level.pieces := by
    rw [Level.close, hbranches]
    rfl
  cases fuel with
  | zero => cases hrun
  | succ fuel =>
      have hnext : r.flags.next [] = [] := by rw [hflags]; rfl
      rw [run?, hnext] at hrun
      dsimp only [finish?] at hrun
      rw [hclose] at hrun
      split at hrun
      · exact (Option.some.inj hrun).symm
      · cases hrun

/-- A pattern between the two ends of a text matches a language from end to end. -/
theorem Grows.anchored {e : Expr} (h : Grows text L)
    (hpattern : Expr.ofPattern? ('^' :: text ++ ['$']) = some e) :
    e.wellBounded ∧ ∀ s t, e.Matches s t ↔
      Look.textStart.holds s ∧ Reaches L s t ∧ Look.textEnd.holds t := by
  have hstart : Reads {} ('^' :: (text ++ ['$'])) (push {} (.ofLook .textStart)) (text ++ ['$']) :=
    Reads.push rfl rfl
  obtain ⟨filled, hfills, hextends⟩ := h (push {} (.ofLook .textStart)) ['$'] rfl (by simp [Calm])
  have hfilled : filled.flags = {} := hextends.flags
  have hend : Reads filled ['$'] (filled.push (.ofLook .textEnd)) [] := by
    apply Reads.push hfilled
    rw [step?, hfilled]
    rfl
  have hrow := (hextends.row _ (Row.nil.look .textStart)).look .textEnd
  obtain ⟨fuel, hrun⟩ := (hstart.trans (hfills.trans hend)) _ e hpattern
  have hbranches : (filled.push (.ofLook .textEnd)).level.branches = [] := hextends.branches
  have hflags : (filled.push (.ofLook .textEnd)).flags = {} := hfilled
  have he := finish_of_run hflags hbranches hrun
  subst he
  refine ⟨hrow.wellBounded, ?_⟩
  intro s t
  refine (hrow.matches_iff s t).trans ?_
  rw [Relation.eq_comp]
  constructor
  · rintro ⟨u, ⟨v, ⟨rfl, hstarts⟩, hreaches⟩, rfl, hends⟩
    exact ⟨hstarts, hreaches, hends⟩
  · rintro ⟨hstarts, hreaches, hends⟩
    exact ⟨t, ⟨s, ⟨rfl, hstarts⟩, hreaches⟩, rfl, hends⟩

end

end Reader

/-- What stands between the two ends of a text is all of it. -/
theorem whole_of_spans {text candidate : List Char} {s t : Spot} (hs : s ∈ Spot.all candidate)
    (hstart : Look.textStart.holds s) (hspans : s.Spans text t) (hend : Look.textEnd.holds t) :
    candidate = text := by
  obtain ⟨j, hj, rfl⟩ := Spot.mem_all_iff.mp hs
  have hfirst : j = 0 := by
    by_contra hne
    rw [Look.holds, if_neg hne, List.getElem?_eq_getElem (by omega)] at hstart
    cases hstart
  have hlast : t.rest = [] := by
    rw [Look.holds, Look.holdsBetween, Spot.after, Option.isNone_iff_eq_none] at hend
    exact List.head?_eq_none_iff.mp hend
  have hrest := hspans.rest_eq
  rw [hlast, List.append_nil] at hrest
  subst hfirst
  exact hrest

/-- A pattern between the two ends of a text matches the texts of a language and no others. -/
theorem isMatch_anchored_iff {text candidate : List Char} {L : Language Char} {regex : Searcher}
    (h : Reader.Grows text L) (hpattern : Searcher.ofPattern? ('^' :: text ++ ['$']) = some regex) :
    regex.isMatch candidate ↔ candidate ∈ L := by
  obtain ⟨e, he, rfl⟩ := Option.map_eq_some_iff.mp hpattern
  obtain ⟨hbounded, hmatches⟩ := h.anchored he
  simp only [isMatch_iff hbounded, hmatches]
  constructor
  · rintro ⟨s, hs, t, hstart, ⟨found, hfound, hspans⟩, hend⟩
    rwa [whole_of_spans hs hstart hspans hend]
  · intro hmem
    obtain ⟨t, hspans, hrest⟩ := Spot.exists_spans_rest (Spot.start candidate)
    refine ⟨Spot.start candidate, ?_, t, rfl, ⟨candidate, hmem, hspans⟩, ?_⟩
    · exact Spot.mem_all_iff.mpr ⟨0, Nat.zero_le _, rfl⟩
    · rw [Look.holds, Look.holdsBetween, Spot.after, hrest]
      rfl

end RouteAudit.Regex
