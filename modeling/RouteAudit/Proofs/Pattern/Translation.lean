import RouteAudit.Pattern.Matcher
import RouteAudit.Proofs.Pattern.Reading
import RouteAudit.Proofs.Regex.Constructs

/-! # Templates translated

The pattern that is written for the items of a template is read as an expression of the language
of the template, so a compiled template matches what the template describes, from end to end.
-/

namespace RouteAudit.Template

open Regex (Expr)
open Regex.Reader (Atom Grows Calm calm_cons)
open scoped Computability

/-! ## Characters and parameters -/

theorem grows_char (c : Char) : Grows (escapeChar c) (charLanguage c) := by
  unfold escapeChar
  split
  next hmeta => exact (Regex.Reader.atom_escaped hmeta).grows
  next hplain => exact (Regex.Reader.atom_plain (Bool.eq_false_of_not_eq_true hplain)).grows

theorem grows_segment : Grows segment segmentLanguage := by
  have hgrows := Regex.Reader.atom_notSlash.plus
  rw [Expr.other_mul_kstar] at hgrows
  exact hgrows

theorem atom_capture {name body : List Char} {L : Language Char} (hname : '>' ∉ name)
    (hbody : Grows body L) : Atom (captureText (some name) body) L := by
  have hatom := hbody.namedGroup hname
  simp only [List.append_assoc] at hatom
  rw [captureText]
  simpa using hatom

theorem grows_segments : Grows (listText segment) segmentsLanguage := by
  have hsegment := grows_segment.plainGroup
  have hslash := (grows_char '/').append (calm_cons (by decide)) hsegment.grows
  have hlist := hsegment.grows.append (calm_cons (by decide)) hslash.plainGroup.star
  exact hlist

theorem calm_capture (name body : List Char) : Calm (captureText (some name) body) :=
  calm_cons (by decide)

/-- A parameter with a modifier, behind a text that comes and goes with it. -/
theorem grows_modified {name slash : List Char} {L : Language Char} (hname : '>' ∉ name)
    (hslash : Grows slash L) (modifier : Modifier) :
    Grows (modifiedText slash (some name) segment modifier)
      (paramLanguage L (some modifier)) := by
  have hone := hslash.append (calm_capture name _) (atom_capture hname grows_segment).grows
  have hmany := hslash.append (calm_capture name _) (atom_capture hname grows_segments).grows
  cases modifier with
  | optional =>
      have hopt := hone.plainGroup.opt
      simp only [List.append_assoc] at hopt
      rw [modifiedText]
      simp only [List.append_assoc]
      exact hopt
  | zeroOrMore =>
      have hopt := hmany.plainGroup.opt
      simp only [List.append_assoc] at hopt
      rw [modifiedText]
      simp only [List.append_assoc]
      exact hopt
  | oneOrMore => exact hmany

theorem grows_wildcard : Grows "(.*)".toList wildcardLanguage := by
  have hstar := Regex.Reader.atom_dot.star
  rw [Expr.kstar_other] at hstar
  exact (hstar.numberedGroup (by decide)).grows

/-! ## Items -/

theorem calm_escapeChar (c : Char) (rest : List Char) : Calm (escapeChar c ++ rest) := by
  unfold escapeChar
  split
  next => exact calm_cons (by decide)
  next hplain =>
    refine calm_cons ?_
    rintro rfl
    exact hplain rfl

theorem calm_modifiedText {slash : List Char} (hslash : slash = [] ∨ slash = ['/'])
    (name : Option (List Char)) (body : List Char) (modifier : Modifier) (rest : List Char) :
    Calm (modifiedText slash name body modifier ++ rest) := by
  rcases hslash with rfl | rfl <;> cases modifier <;> cases name <;> exact calm_cons (by decide)

/-- No items are written with a question mark at their start. -/
theorem calm_itemsText (items : Template) : Calm (itemsText items) := by
  fun_cases itemsText items with
  | case1 => exact nofun
  | case2 => exact calm_modifiedText (.inr rfl) _ _ _ _
  | case3 => exact calm_modifiedText (.inr rfl) _ _ _ _
  | case4 => exact calm_escapeChar _ _
  | case6 => exact calm_modifiedText (.inl rfl) _ _ _ _
  | case8 => exact calm_modifiedText (.inl rfl) _ _ _ _
  | case5 | case7 | case9 | case10 | case11 | case12 => exact calm_cons (by decide)

theorem itemsText_append (inner rest : Template) (modifier : Option Modifier) :
    itemsText (inner ++ .blockClose modifier :: rest) =
      itemsText inner ++ itemsText (.blockClose modifier :: rest) := by
  fun_induction itemsText inner with
  | case1 => rfl
  | case4 c escaped items hparam hgroup ih =>
      rw [List.cons_append, itemsText, ih, List.append_assoc]
      · intro name body m behind heq
        cases items with
        | nil => cases heq
        | cons item items =>
            obtain ⟨rfl, -⟩ := List.cons.inj heq
            exact hparam name body m items rfl
      · intro body m behind heq
        cases items with
        | nil => cases heq
        | cons item items =>
            obtain ⟨rfl, -⟩ := List.cons.inj heq
            exact hgroup body m items rfl
  | case2 | case3 | case5 | case6 | case7 | case8 | case9 | case10 | case11 | case12 =>
      rename_i ih
      simp only [List.cons_append, itemsText, ih, List.append_assoc]

theorem grows_block {text : List Char} {L : Language Char} (h : Grows text L)
    (modifier : Option Modifier) :
    Grows ("(?:".toList ++ text ++ itemsText [.blockClose modifier])
      (Modifier.rounds L modifier) := by
  have hgroup := h.plainGroup
  have happend (m : Modifier) : "(?:".toList ++ text ++ itemsText [.blockClose (some m)] =
      "(?:".toList ++ text ++ [')'] ++ [m.char] := by
    rw [itemsText, itemsText, List.append_assoc _ _ [m.char]]
    rfl
  match modifier with
  | none => exact hgroup.grows
  | some .optional =>
      rw [happend]
      exact hgroup.opt
  | some .zeroOrMore =>
      rw [happend]
      exact hgroup.star
  | some .oneOrMore =>
      rw [happend]
      exact hgroup.plus

theorem itemsText_blockClose (modifier : Option Modifier) (rest : Template) :
    itemsText (.blockClose modifier :: rest) =
      itemsText [.blockClose modifier] ++ itemsText rest := by
  cases modifier <;> simp only [itemsText, List.cons_append, List.nil_append]

/-- A character is written on its own, unless it is a slash that belongs to what follows it. -/
theorem itemsText_char {c : Char} {escaped : Bool} {items : Template}
    (hitems : ∀ item ∈ items, ∃ behind, item.standsBefore behind)
    (hslash : ∀ name modifier rest, items = .param name none (some modifier) :: rest → c = '/' →
      False) :
    itemsText (.char c escaped :: items) = escapeChar c ++ itemsText items := by
  rw [itemsText]
  · rintro name (_ | body) modifier behind rfl hc
    · exact hslash name modifier behind rfl hc
    · obtain ⟨_, hstands⟩ := hitems _ List.mem_cons_self
      cases hstands
  · rintro body modifier behind rfl hc
    obtain ⟨_, hstands⟩ := hitems _ List.mem_cons_self
    cases hstands

/-- A block is written between its two ends. -/
theorem itemsText_block (inner rest : Template) (modifier : Option Modifier) :
    itemsText (.blockOpen :: (inner ++ .blockClose modifier :: rest)) =
      "(?:".toList ++ itemsText inner ++ itemsText [.blockClose modifier] ++ itemsText rest := by
  rw [itemsText, itemsText_append, itemsText_blockClose]
  simp only [List.append_assoc]

/-- What is written for items whose blocks are closed and that have no bodies is read as their
language. -/
theorem grows_items {items : Template} (hclosed : closed 0 items)
    (hitems : ∀ item ∈ items, ∃ behind, item.standsBefore behind) :
    Grows (itemsText items) (language items) := by
  fun_induction language items with
  | case1 => exact .nil
  | case2 escaped name modifier items ih =>
      obtain ⟨-, hparam, hrest⟩ := List.forall_mem_cons.mp hitems |>.imp_right
        List.forall_mem_cons.mp
      obtain ⟨behind, hstands⟩ := hparam
      have hmodified := grows_modified (not_mem_name hstands) (grows_char '/') modifier
      rw [itemsText]
      exact hmodified.append (calm_itemsText items) (ih hclosed hrest)
  | case3 c escaped items hslash ih =>
      obtain ⟨-, hrest⟩ := List.forall_mem_cons.mp hitems
      rw [itemsText_char hrest hslash]
      exact (grows_char c).append (calm_itemsText items) (ih hclosed hrest)
  | case4 name modifier items ih =>
      obtain ⟨⟨behind, hstands⟩, hrest⟩ := List.forall_mem_cons.mp hitems
      have hname := not_mem_name hstands
      cases modifier with
      | none =>
          have hcapture := (atom_capture hname grows_segment).grows
          rw [itemsText, paramLanguage, one_mul]
          exact hcapture.append (calm_itemsText items) (ih hclosed hrest)
      | some modifier =>
          rw [itemsText]
          exact (grows_modified hname .nil modifier).append (calm_itemsText items)
            (ih hclosed hrest)
  | case5 items ih =>
      obtain ⟨-, hrest⟩ := List.forall_mem_cons.mp hitems
      rw [itemsText]
      exact grows_wildcard.append (calm_itemsText items) (ih hclosed hrest)
  | case6 items inner modifier rest hclosing ihinner ihrest =>
      obtain ⟨hinner, hrest⟩ := closed_of_closing? hclosed hclosing
      obtain rfl := closing?_eq_some hclosing
      have hall := (List.forall_mem_cons.mp hitems).2
      have hblock := grows_block
        (ihinner hinner fun item hitem => hall item (by simp [hitem])) modifier
      have hgrows := hblock.append (calm_itemsText rest)
        (ihrest hrest fun item hitem => hall item (by simp [hitem]))
      rw [itemsText_block]
      exact hgrows
  | case7 items hclosing => exact absurd hclosing (closing?_ne_none hclosed)
  | case8 items hnil _ hchar hparam hwildcard hopen =>
      -- What is left has a body, or ends a block that was never opened.
      cases items with
      | nil => exact absurd rfl hnil
      | cons item items =>
          obtain ⟨behind, hstands⟩ := hitems item List.mem_cons_self
          rcases head_of_closed hclosed hstands with ⟨c, escaped, rfl⟩ | ⟨name, modifier, rfl⟩ |
            rfl | rfl
          · exact (hchar c escaped items rfl).elim
          · exact (hparam name modifier items rfl).elim
          · exact (hwildcard items rfl).elim
          · exact (hopen items rfl).elim

end RouteAudit.Template

namespace RouteAudit

/-- In whatever words it is said that an expression is none, the same patterns compile, and to the
same matchers. -/
theorem Matcher.toOption_compile (diagnose : List Char → Option String) (pattern base : String) :
    (compile pattern base diagnose).toOption = (compile pattern base).toOption := by
  unfold compile
  dsimp only
  cases Template.read (Pattern.join pattern base).toList with
  | error fault => rfl
  | ok items =>
      dsimp only [bind, Except.bind, Except.mapError]
      cases Regex.Searcher.ofPattern? (Template.regexText items) <;> rfl

theorem Matcher.regex_of_compile {pattern base : String} {matcher : Matcher}
    (h : compile pattern base = .ok matcher) : ∃ items regex,
      Template.read (Pattern.join pattern base).toList = .ok items ∧
      Regex.Searcher.ofPattern? (Template.regexText items) = some regex ∧
      matcher.regex = some regex := by
  unfold compile at h
  dsimp only at h
  cases hread : Template.read (Pattern.join pattern base).toList with
  | error fault =>
      rw [hread] at h
      cases h
  | ok items =>
      rw [hread] at h
      dsimp only [bind, Except.bind, Except.mapError] at h
      split at h
      next => cases h
      next regex hregex =>
        cases h
        exact ⟨items, regex, rfl, hregex, rfl⟩

/-- A template in which no parenthesis stands bare spells one row of items, and once it is
compiled it matches exactly the texts of their language. -/
theorem isMatch_iff_mem_language {pattern base : String} {matcher : Matcher}
    (hcompile : Matcher.compile pattern base = .ok matcher)
    (hbare : Template.hasBareParenthesis (Pattern.join pattern base).toList = false) :
    ∃ items : Template, items.Spells (Pattern.join pattern base).toList ∧
      (∀ other : Template, other.Spells (Pattern.join pattern base).toList → other = items) ∧
      ∀ candidate : String, matcher.isMatch candidate ↔ candidate.toList ∈ items.language := by
  obtain ⟨items, regex, hread, hpattern, hregex⟩ := Matcher.regex_of_compile hcompile
  obtain ⟨hclosed, hspells⟩ := Template.read_spec hread
  have hgrows := Template.grows_items hclosed (hspells hbare).standsBefore
  refine ⟨items, hspells hbare, fun other => (hspells hbare).unique, ?_⟩
  intro candidate
  rw [Matcher.isMatch, hregex, Option.any_some]
  exact Regex.isMatch_anchored_iff hgrows hpattern

/-- A slash before a parameter that may be missing is matched with its segments or not at
all. -/
theorem slash_comes_with_segments : ∃ matcher : Matcher,
    Matcher.compile "/:rest*" "" = .ok matcher ∧
      Template.hasBareParenthesis (Pattern.join "/:rest*" "").toList = false ∧
      matcher.isMatch "" ∧ matcher.isMatch "/a" ∧ ¬ matcher.isMatch "/" := by
  have hok : (Matcher.compile "/:rest*" "").toOption.isSome := by decide +kernel
  obtain ⟨matcher, hsome⟩ := Option.isSome_iff_exists.mp hok
  have hcompile : Matcher.compile "/:rest*" "" = .ok matcher := by
    cases hresult : Matcher.compile "/:rest*" "" with
    | error fault =>
        rw [hresult] at hsome
        cases hsome
    | ok found =>
        rw [hresult] at hsome
        cases hsome
        rfl
  have hbare : Template.hasBareParenthesis (Pattern.join "/:rest*" "").toList = false := by decide
  obtain ⟨items, -, hunique, hmatch⟩ := isMatch_iff_mem_language hcompile hbare
  have hspells : Template.Spells
      [.char '/' false, .param ['r', 'e', 's', 't'] none (some .zeroOrMore)]
      (Pattern.join "/:rest*" "").toList := ⟨_, rfl, rfl, [], rfl, rfl, rfl⟩
  obtain rfl := hunique _ hspells
  have hlanguage : Template.language
      [.char '/' false, .param ['r', 'e', 's', 't'] none (some .zeroOrMore)] =
        1 + Template.charLanguage '/' * Template.segmentsLanguage := by
    rw [Template.language, Template.language, mul_one, Template.paramLanguage]
  simp only [hlanguage, Language.mem_add, Language.mem_one] at hmatch
  have hsegment : ['a'] ∈ Template.segmentLanguage := ⟨List.cons_ne_nil _ _, by decide⟩
  refine ⟨matcher, hcompile, hbare, (hmatch "").mpr (.inl rfl), (hmatch "/a").mpr (.inr ?_), ?_⟩
  · have hslash : ['/'] ∈ Template.charLanguage '/' := rfl
    exact Language.append_mem_mul hslash (Template.mem_segmentsLanguage hsegment)
  · rw [hmatch]
    rintro (hnil | hslash)
    · cases hnil
    · obtain ⟨slash, rfl, segments, hsegments, htext⟩ := Language.mem_mul.mp hslash
      have hempty : segments = [] := (List.cons.inj htext).2
      exact Template.ne_nil_of_mem_segmentsLanguage hsegments hempty

end RouteAudit
