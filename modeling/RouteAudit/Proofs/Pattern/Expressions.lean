import RouteAudit.Proofs.Pattern.Translation
import RouteAudit.Proofs.Regex.Trails
import RouteAudit.Proofs.Regex.Written

/-! # The expressions of a template

What is written for the items of a template is read as these expressions (`writes_items`). The
groups with names in them are those of the parameters, and what a parameter takes is one segment or
a list of segments (`mem_bodies_exprs`).
-/

namespace RouteAudit.Template

open Regex (Expr)
open Regex.Reader (Writes WritesOne calm_cons)

/-! ## Parameters -/

/-- One segment. -/
def segmentExpr : Expr := .plus true (.set (.compl (.single '/')))

/-- One or more segments with a slash between each two. -/
def segmentsExpr : Expr :=
  .seq [.group .plain segmentExpr,
    .star true (.group .plain (.seq [.set (.single '/'), .group .plain segmentExpr]))]

/-- What the group of a parameter holds. -/
def valueExpr : Option Modifier → Expr
  | none | some .optional => segmentExpr
  | some .zeroOrMore | some .oneOrMore => segmentsExpr

/-- A parameter behind what comes and goes with it. -/
def paramExprs (before : List Expr) (name : List Char) (modifier : Option Modifier) : List Expr :=
  let row := before ++ [.group (.named (String.ofList name)) (valueExpr modifier)]
  match modifier with
  | none | some .oneOrMore => row
  | some .optional | some .zeroOrMore => [.opt true (.group .plain (.seq row))]

/-- What a parameter takes, as a language. -/
def valueLanguage : Option Modifier → Language Char
  | none | some .optional => segmentLanguage
  | some .zeroOrMore | some .oneOrMore => segmentsLanguage

theorem denotes_segmentExpr : segmentExpr.Denotes segmentLanguage := by
  have hlanguage : segmentLanguage = _ := (Expr.other_mul_kstar '/').symm
  rw [hlanguage]
  exact (Expr.Denotes.notSingle '/').plus

theorem denotes_segmentsExpr : segmentsExpr.Denotes segmentsLanguage := by
  have hsegment := denotes_segmentExpr.group .plain
  exact hsegment.cat (((Expr.Denotes.single '/').cat hsegment).group .plain).star

theorem denotes_valueExpr (modifier : Option Modifier) :
    (valueExpr modifier).Denotes (valueLanguage modifier) := by
  match modifier with
  | none | some .optional => exact denotes_segmentExpr
  | some .zeroOrMore | some .oneOrMore => exact denotes_segmentsExpr

theorem bodies_valueExpr (name : String) (modifier : Option Modifier) :
    (valueExpr modifier).bodies name = [] := by
  match modifier with
  | none | some .optional | some .zeroOrMore | some .oneOrMore => rfl

theorem writes_char (c : Char) : Writes (escapeChar c) [.set (.single c)] := by
  unfold escapeChar
  split
  next hmeta => exact (Regex.Reader.writesOne_escaped hmeta).writes
  next hplain =>
    exact (Regex.Reader.writesOne_plain (Bool.eq_false_of_not_eq_true hplain)).writes

theorem writes_segment : Writes segment [segmentExpr] := Regex.Reader.writesOne_notSlash.plus

theorem writes_segments : ∃ es, Writes (listText segment) es ∧ Expr.seq es = segmentsExpr := by
  have hsegment := writes_segment.plainGroup
  have hslash := (writes_char '/').append (calm_cons (by decide)) hsegment.writes
  exact ⟨_, hsegment.append hslash.plainGroup.star, rfl⟩

theorem writesOne_capture {name body : List Char} {es : List Expr} (hname : '>' ∉ name)
    (hbody : Writes body es) :
    WritesOne (captureText (some name) body) (.group (.named (String.ofList name)) (.seq es)) := by
  have hgroup := hbody.namedGroup hname
  simp only [List.append_assoc] at hgroup
  rw [captureText]
  simpa using hgroup

theorem writes_modified {name slash : List Char} {before : List Expr} (hname : '>' ∉ name)
    (hslash : Writes slash before) (modifier : Modifier) :
    Writes (modifiedText slash (some name) segment modifier)
      (paramExprs before name (some modifier)) := by
  obtain ⟨es, hsegments, hes⟩ := writes_segments
  have hmanyCapture := writesOne_capture hname hsegments
  rw [hes] at hmanyCapture
  have hone := hslash.append (calm_capture name _) (writesOne_capture hname writes_segment).writes
  have hmany := hslash.append (calm_capture name _) hmanyCapture.writes
  cases modifier with
  | optional =>
      have hopt := hone.plainGroup.opt
      simp only [List.append_assoc] at hopt
      rw [modifiedText]
      simp only [List.append_assoc]
      exact hopt
  | zeroOrMore =>
      have hopt := hmany.plainGroup.opt
      simp only [List.append_assoc] at hopt
      rw [modifiedText]
      simp only [List.append_assoc]
      exact hopt
  | oneOrMore => exact hmany

/-! ## Items -/

/-- A block with its modifier. -/
def blockExpr (inner : List Expr) : Option Modifier → Expr
  | none => .group .plain (.seq inner)
  | some .optional => .opt true (.group .plain (.seq inner))
  | some .zeroOrMore => .star true (.group .plain (.seq inner))
  | some .oneOrMore => .plus true (.group .plain (.seq inner))

/-- The expressions of the items, in a row. A slash right before a modified parameter belongs to
it. -/
def exprs : Template → List Expr
  | [] => []
  | .char '/' _ :: .param name none (some modifier) :: items =>
    paramExprs [.set (.single '/')] name (some modifier) ++ exprs items
  | .char c _ :: items => .set (.single c) :: exprs items
  | .param name none modifier :: items => paramExprs [] name modifier ++ exprs items
  | .wildcard :: items =>
    .group .numbered (.star true (.set (.compl (.single '\n')))) :: exprs items
  | .blockOpen :: items =>
    match _ : closing? 0 items with
    | some (inner, modifier, rest) => blockExpr (exprs inner) modifier :: exprs rest
    | none => []
  | _ => []
termination_by items => items.length
decreasing_by
  · exact Nat.lt_succ_of_lt (Nat.lt_succ_self _)
  · exact Nat.lt_succ_self _
  · exact Nat.lt_succ_self _
  · exact Nat.lt_succ_self _
  all_goals
    have hlength := congrArg List.length (closing?_eq_some ‹_›)
    rw [List.length_append, List.length_cons] at hlength
    rw [List.length_cons]
    omega

theorem writes_wildcard :
    Writes "(.*)".toList [.group .numbered (.star true (.set (.compl (.single '\n'))))] :=
  (Regex.Reader.writesOne_dot.star.numberedGroup (by decide)).writes

theorem writes_block {text : List Char} {es : List Expr} (h : Writes text es)
    (modifier : Option Modifier) :
    Writes ("(?:".toList ++ text ++ itemsText [.blockClose modifier]) [blockExpr es modifier] := by
  have hgroup := h.plainGroup
  have happend (m : Modifier) : "(?:".toList ++ text ++ itemsText [.blockClose (some m)] =
      "(?:".toList ++ text ++ [')'] ++ [m.char] := by
    rw [itemsText, itemsText, List.append_assoc _ _ [m.char]]
    rfl
  cases modifier with
  | none => exact hgroup.writes
  | some modifier =>
      rw [happend]
      cases modifier with
      | optional => exact hgroup.opt
      | zeroOrMore => exact hgroup.star
      | oneOrMore => exact hgroup.plus

/-- What is written for items whose blocks are closed and that have no bodies is read as their
expressions. -/
theorem writes_items {items : Template} (hclosed : closed 0 items)
    (hitems : ∀ item ∈ items, ∃ behind, item.standsBefore behind) :
    Writes (itemsText items) (exprs items) := by
  fun_induction exprs items with
  | case1 => exact .nil
  | case2 escaped name modifier items ih =>
      obtain ⟨-, hparam, hrest⟩ := List.forall_mem_cons.mp hitems |>.imp_right
        List.forall_mem_cons.mp
      obtain ⟨behind, hstands⟩ := hparam
      have hmodified := writes_modified (not_mem_name hstands) (writes_char '/') modifier
      rw [itemsText]
      exact hmodified.append (calm_itemsText items) (ih hclosed hrest)
  | case3 c escaped items hslash ih =>
      obtain ⟨-, hrest⟩ := List.forall_mem_cons.mp hitems
      rw [itemsText_char hrest hslash]
      exact (writes_char c).append (calm_itemsText items) (ih hclosed hrest)
  | case4 name modifier items ih =>
      obtain ⟨⟨behind, hstands⟩, hrest⟩ := List.forall_mem_cons.mp hitems
      have hname := not_mem_name hstands
      cases modifier with
      | none =>
          have hcapture := (writesOne_capture hname writes_segment).writes
          rw [itemsText]
          exact hcapture.append (calm_itemsText items) (ih hclosed hrest)
      | some modifier =>
          rw [itemsText]
          exact (writes_modified hname .nil modifier).append (calm_itemsText items)
            (ih hclosed hrest)
  | case5 items ih =>
      obtain ⟨-, hrest⟩ := List.forall_mem_cons.mp hitems
      rw [itemsText]
      exact writes_wildcard.append (calm_itemsText items) (ih hclosed hrest)
  | case6 items inner modifier rest hclosing ihinner ihrest =>
      obtain ⟨hinner, hrest⟩ := closed_of_closing? hclosed hclosing
      obtain rfl := closing?_eq_some hclosing
      have hall := (List.forall_mem_cons.mp hitems).2
      have hblock := writes_block
        (ihinner hinner fun item hitem => hall item (by simp [hitem])) modifier
      have hwrites := hblock.append (calm_itemsText rest)
        (ihrest hrest fun item hitem => hall item (by simp [hitem]))
      rw [itemsText_block]
      exact hwrites
  | case7 items hclosing => exact absurd hclosing (closing?_ne_none hclosed)
  | case8 items hnil _ hchar hparam hwildcard hopen =>
      -- What is left has a body, or ends a block that was never opened.
      cases items with
      | nil => exact absurd rfl hnil
      | cons item items =>
          obtain ⟨behind, hstands⟩ := hitems item List.mem_cons_self
          rcases head_of_closed hclosed hstands with ⟨c, escaped, rfl⟩ | ⟨name, modifier, rfl⟩ |
            rfl | rfl
          · exact (hchar c escaped items rfl).elim
          · exact (hparam name modifier items rfl).elim
          · exact (hwildcard items rfl).elim
          · exact (hopen items rfl).elim

/-! ## Groups with names -/

theorem bodies_paramExprs (before : List Expr) (name : List Char) (modifier : Option Modifier)
    (other : String) : (paramExprs before name modifier).flatMap (Expr.bodies other) =
      before.flatMap (Expr.bodies other) ++
        if String.ofList name = other then [valueExpr modifier] else [] := by
  have hrow : (before ++ [Expr.group (.named (String.ofList name)) (valueExpr modifier)]).flatMap
      (Expr.bodies other) = before.flatMap (Expr.bodies other) ++
        if String.ofList name = other then [valueExpr modifier] else [] := by
    rw [List.flatMap_append, List.flatMap_singleton, Expr.bodies_named, bodies_valueExpr]
  have hopt (row : List Expr) : [Expr.opt true (.group .plain (.seq row))].flatMap
      (Expr.bodies other) = row.flatMap (Expr.bodies other) := by
    rw [List.flatMap_singleton, ← Expr.bodies_seq]
    rfl
  match modifier with
  | none | some .oneOrMore => exact hrow
  | some .optional | some .zeroOrMore => exact (hopt _).trans hrow

theorem bodies_blockExpr (inner : List Expr) (modifier : Option Modifier) (name : String) :
    (blockExpr inner modifier).bodies name = inner.flatMap (Expr.bodies name) := by
  rw [← Expr.bodies_seq]
  match modifier with
  | none | some .optional | some .zeroOrMore | some .oneOrMore => rfl

/-- The groups with names are those of the parameters. -/
theorem mem_bodies_exprs {items : Template} {name : String} {body : Expr}
    (h : body ∈ (exprs items).flatMap (Expr.bodies name)) :
    ∃ word modifier, String.ofList word = name ∧ .param word none modifier ∈ items ∧
      body = valueExpr modifier := by
  have hparam {word : List Char} {modifier : Option Modifier}
      (hmem : body ∈ if String.ofList word = name then [valueExpr modifier] else []) :
      String.ofList word = name ∧ body = valueExpr modifier := by
    split at hmem
    next heq => exact ⟨heq, List.mem_singleton.mp hmem⟩
    next => cases hmem
  have hlater {items more : Template} (hsub : items ⊆ more)
      (h : ∃ word modifier, String.ofList word = name ∧ .param word none modifier ∈ items ∧
        body = valueExpr modifier) : ∃ word modifier, String.ofList word = name ∧
          .param word none modifier ∈ more ∧ body = valueExpr modifier := by
    obtain ⟨word, modifier, hname, hmem, hbody⟩ := h
    exact ⟨word, modifier, hname, hsub hmem, hbody⟩
  fun_induction exprs items with
  | case1 => cases h
  | case2 escaped word modifier items ih =>
      rw [List.flatMap_append, bodies_paramExprs, List.mem_append, List.mem_append] at h
      rcases h with (hslash | hfirst) | hrest
      · cases hslash
      · obtain ⟨hname, hbody⟩ := hparam hfirst
        exact ⟨word, some modifier, hname, by simp, hbody⟩
      · exact hlater (by simp) (ih hrest)
  | case3 c escaped items hslash ih => exact hlater (by simp) (ih h)
  | case4 word modifier items ih =>
      rw [List.flatMap_append, bodies_paramExprs, List.mem_append, List.mem_append] at h
      rcases h with (hnil | hfirst) | hrest
      · cases hnil
      · obtain ⟨hname, hbody⟩ := hparam hfirst
        exact ⟨word, modifier, hname, by simp, hbody⟩
      · exact hlater (by simp) (ih hrest)
  | case5 items ih => exact hlater (by simp) (ih h)
  | case6 items inner modifier rest hclosing ihinner ihrest =>
      obtain rfl := closing?_eq_some hclosing
      rw [List.flatMap_cons, bodies_blockExpr, List.mem_append] at h
      rcases h with hinner | hrest
      · exact hlater (fun item hitem => by simp [hitem]) (ihinner hinner)
      · exact hlater (fun item hitem => by simp [hitem]) (ihrest hrest)
  | case7 => cases h
  | case8 => cases h

end RouteAudit.Template
