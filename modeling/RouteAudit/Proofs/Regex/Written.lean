import RouteAudit.Proofs.Regex.Constructs

/-! # Patterns read as expressions

The language of a pattern does not tell which groups there are. Here the pieces that a text is read
as are told one by one, wherever no flag is set and nothing that changes a repetition follows: a
text writes some expressions in a row (`Writes`), or a single one that may be repeated
(`WritesOne`).
-/

namespace RouteAudit.Regex.Reader

/-- One state is another one with some expressions in a row behind the branch being read. -/
structure Appends (r r' : Reader) (es : List Expr) : Prop where
  flags : r'.flags = r.flags
  groups : r'.groups = r.groups
  branches : r'.level.branches = r.level.branches
  exprs : r'.level.pieces.reverse.map Piece.toExpr =
    r.level.pieces.reverse.map Piece.toExpr ++ es

/-- A text that is read as one piece, which is a given expression. -/
def WritesOne (text : List Char) (e : Expr) : Prop :=
  ∀ r rest, r.flags = {} → ∃ r' piece, Reads r (text ++ rest) r' rest ∧ Adds r r' piece ∧
    piece.expr = some e

/-- A text that is read as some expressions in a row. -/
def Writes (text : List Char) (es : List Expr) : Prop :=
  ∀ r rest, r.flags = {} → Calm rest → ∃ r', Reads r (text ++ rest) r' rest ∧ Appends r r' es

section

variable {r r' r'' : Reader} {c : Char} {cs text first second : List Char} {piece : Piece}
  {e : Expr} {es fs : List Expr}

namespace Appends

theorem refl (r : Reader) : Appends r r [] := ⟨rfl, rfl, rfl, (List.append_nil _).symm⟩

theorem trans (hfirst : Appends r r' es) (hsecond : Appends r' r'' fs) :
    Appends r r'' (es ++ fs) where
  flags := hsecond.flags.trans hfirst.flags
  groups := hsecond.groups.trans hfirst.groups
  branches := hsecond.branches.trans hfirst.branches
  exprs := by rw [hsecond.exprs, hfirst.exprs, List.append_assoc]

end Appends

theorem Adds.appends (h : Adds r r' piece) (hexpr : piece.expr = some e) : Appends r r' [e] where
  flags := h.flags
  groups := h.groups
  branches := by rw [h.level]
  exprs := by
    have htoExpr : piece.toExpr = e := by rw [Piece.toExpr, hexpr, Option.getD_some]
    rw [h.level, List.reverse_cons, List.map_append, List.map_singleton, htoExpr]

theorem WritesOne.writes (h : WritesOne text e) : Writes text [e] := by
  intro r rest hflags _
  obtain ⟨r', piece, hreads, hadds, hexpr⟩ := h r rest hflags
  exact ⟨r', hreads, hadds.appends hexpr⟩

theorem Writes.nil : Writes [] [] := fun r rest _ _ => ⟨r, .refl r rest, .refl r⟩

theorem Writes.append (hfirst : Writes first es) (hcalm : Calm second)
    (hsecond : Writes second fs) : Writes (first ++ second) (es ++ fs) := by
  intro r rest hflags hrest
  obtain ⟨r', hreads, happends⟩ := hfirst r (second ++ rest) hflags (calm_append hcalm hrest)
  obtain ⟨r'', hreads', happends'⟩ := hsecond r' rest (happends.flags.trans hflags) hrest
  rw [List.append_assoc]
  exact ⟨r'', hreads.trans hreads', happends.trans happends'⟩

/-- Behind a single piece anything may follow. -/
theorem WritesOne.append (hfirst : WritesOne first e) (hsecond : Writes second fs) :
    Writes (first ++ second) (e :: fs) := by
  intro r rest hflags hrest
  obtain ⟨r', piece, hreads, hadds, hexpr⟩ := hfirst r (second ++ rest) hflags
  obtain ⟨r'', hreads', happends⟩ := hsecond r' rest (hadds.flags.trans hflags) hrest
  rw [List.append_assoc]
  exact ⟨r'', hreads.trans hreads', (hadds.appends hexpr).trans happends⟩

/-! ## Characters -/

theorem writesOne_of_push {depth : Nat}
    (hstep : ∀ (r : Reader) rest, r.flags = {} →
      r.step? c (cs ++ rest) = some (r.push ⟨some e, depth⟩, rest)) : WritesOne (c :: cs) e :=
  fun r rest hflags =>
    ⟨_, _, Reads.push hflags (hstep r rest hflags), adds_push r _, rfl⟩

theorem writesOne_plain (hplain : isMeta c = false) : WritesOne [c] (.set (.single c)) :=
  writesOne_of_push fun _ rest hflags => step?_plain hflags hplain rest

theorem writesOne_escaped (hmeta : isMeta c) : WritesOne ['\\', c] (.set (.single c)) :=
  writesOne_of_push fun _ rest hflags => step?_escaped hflags hmeta rest

theorem writesOne_dot : WritesOne ['.'] (.set (.compl (.single '\n'))) :=
  writesOne_of_push fun _ rest hflags => step?_dot hflags rest

theorem writesOne_notSlash : WritesOne "[^/]".toList (.set (.compl (.single '/'))) :=
  writesOne_of_push fun _ rest hflags => step?_notSlash hflags rest

theorem writesOne_look {assertion : Look}
    (hstep : ∀ (r : Reader) rest, r.flags = {} →
      r.step? c rest = some (r.push (.ofLook assertion), rest)) :
    WritesOne [c] (.look assertion) :=
  writesOne_of_push hstep

/-! ## Repetitions -/

theorem WritesOne.repeated {least : Nat} {most : Option Nat} (h : WritesOne text e)
    (hstep : ∀ (r : Reader) cs, r.step? c cs =
      (r.repeatLast? (readGreed cs).1 least most).map (·, (readGreed cs).2)) :
    Writes (text ++ [c]) [.repeated true least most e] := by
  intro r rest hflags hcalm
  obtain ⟨r', piece, hreads, hadds, hexpr⟩ := h r (c :: rest) hflags
  have hgreed := readGreed_calm hcalm
  have hlazy : (true != r'.flags.lazyFirst) = true := by rw [hadds.flags, hflags]; rfl
  let added : Piece := ⟨some (.repeated true least most e), Piece.depthAround [piece]⟩
  have hadded : piece.repeat? (true != r'.flags.lazyFirst) least most = some added := by
    rw [Piece.repeat?, hexpr, hlazy]
    rfl
  refine ⟨{ r' with level := { r.level with pieces := added :: r.level.pieces } }, ?_, ?_⟩
  · rw [List.append_assoc]
    apply hreads.trans
    apply Reads.step (hadds.flags.trans hflags)
    intro read hread
    rw [hstep, hgreed, repeatLast?, hadds.level] at hread
    simp only [Option.bind_eq_bind, hadded, Option.bind_some, Option.map_some, Option.pure_def,
      Option.some.injEq] at hread
    exact hread.symm
  · have hnew : Adds r { r' with level := { r.level with pieces := added :: r.level.pieces } }
        added := ⟨hadds.flags, hadds.groups, rfl⟩
    exact hnew.appends rfl

theorem WritesOne.opt (h : WritesOne text e) : Writes (text ++ ['?']) [.opt true e] :=
  h.repeated fun _ _ => rfl

theorem WritesOne.star (h : WritesOne text e) : Writes (text ++ ['*']) [.star true e] :=
  h.repeated fun _ _ => rfl

theorem WritesOne.plus (h : WritesOne text e) : Writes (text ++ ['+']) [.plus true e] :=
  h.repeated fun _ _ => rfl

/-! ## Groups -/

theorem Opens.closes {kind : Group} (hopens : Opens r r' kind) (h : Appends r' r'' es) :
    ∃ closed piece, r''.closeParen? = some closed ∧ Adds r closed piece ∧
      piece.expr = some (.group kind (.seq es)) := by
  have hgroups := h.groups.trans hopens.groups
  have hclose : r''.level.close.toExpr = .seq es := by
    have hexprs := h.exprs
    rw [hopens.level] at hexprs
    have hlevel : r''.level.close = Piece.row r''.level.pieces := by
      rw [Level.close, h.branches, hopens.level]
      rfl
    rw [hlevel, row_toExpr, hexprs]
    rfl
  let piece : Piece := .group kind r''.level.close
  let level : Level := { r.level with pieces := piece :: r.level.pieces }
  refine ⟨{ r'' with flags := r.flags, level, groups := r.groups }, piece, ?_, ⟨rfl, rfl, rfl⟩, ?_⟩
  · rw [closeParen?, hgroups]
  · rw [← hclose]
    rfl

/-- What is read in parentheses is a group. -/
theorem Writes.group {opening body : List Char} {kind : Group} (hbody : Writes body es)
    (hopen : ∀ (r : Reader) rest, r.flags = {} → ∃ r',
      Reads r (opening ++ (body ++ ')' :: rest)) r' (body ++ ')' :: rest) ∧ Opens r r' kind) :
    WritesOne (opening ++ body ++ [')']) (.group kind (.seq es)) := by
  intro r rest hflags
  obtain ⟨opened, hreads, hopens⟩ := hopen r rest hflags
  have hcalm : Calm (')' :: rest) := by simp [Calm]
  obtain ⟨filled, hfills, happends⟩ := hbody opened (')' :: rest) hopens.flags hcalm
  obtain ⟨closed, piece, hclosed, hadds, hexpr⟩ := hopens.closes happends
  refine ⟨closed, piece, ?_, hadds, hexpr⟩
  rw [List.append_assoc, List.append_assoc]
  apply hreads.trans
  apply hfills.trans
  apply Reads.step (happends.flags.trans hopens.flags)
  intro read hread
  rw [step?, hclosed] at hread
  exact (Option.some.inj hread).symm

theorem Writes.plainGroup (hbody : Writes text es) :
    WritesOne ("(?:".toList ++ text ++ [')']) (.group .plain (.seq es)) :=
  hbody.group fun _ _ hflags => opens_plain hflags _

theorem Writes.namedGroup {name : List Char} (hname : '>' ∉ name) (hbody : Writes text es) :
    WritesOne ("(?P<".toList ++ name ++ ['>'] ++ text ++ [')'])
      (.group (.named (String.ofList name)) (.seq es)) :=
  hbody.group fun _ _ hflags => opens_named hname hflags _

theorem Writes.numberedGroup (hbody : Writes (c :: text) es) (hc : c ≠ '?') :
    WritesOne (['('] ++ c :: text ++ [')']) (.group .numbered (.seq es)) :=
  hbody.group fun _ _ hflags => opens_numbered hflags hc _

/-! ## Whole patterns -/

/-- A pattern between the two ends of a text is read as what it writes between them. -/
theorem Writes.anchored (h : Writes text es)
    (hpattern : Expr.ofPattern? ('^' :: text ++ ['$']) = some e) :
    e = .seq (.look .textStart :: (es ++ [.look .textEnd])) := by
  have hstart : WritesOne ['^'] (.look .textStart) :=
    writesOne_look fun r rest hflags => by rw [step?, hflags]; rfl
  have hend : WritesOne ['$'] (.look .textEnd) :=
    writesOne_look fun r rest hflags => by rw [step?, hflags]; rfl
  have hwhole := hstart.append (h.append (calm_cons (by decide)) hend.writes)
  obtain ⟨r', hreads, happends⟩ := hwhole {} [] rfl (by simp [Calm])
  rw [List.append_nil] at hreads
  obtain ⟨fuel, hrun⟩ := hreads _ e hpattern
  rw [finish_of_run happends.flags happends.branches hrun, row_toExpr, happends.exprs]
  rfl

end

end RouteAudit.Regex.Reader
