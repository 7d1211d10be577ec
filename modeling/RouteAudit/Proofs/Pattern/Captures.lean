import RouteAudit.Proofs.Pattern.Acceptance
import RouteAudit.Proofs.Pattern.Expressions
import RouteAudit.Proofs.Regex.Traces

/-! # What parameters capture

A parameter captures what it is made for: one segment, or a list of them. Where a template has
nothing but characters and parameters for one segment each, all of them capture something, and the
template with these values in their places is the candidate again (`captures_clean`).
-/

namespace RouteAudit

open Text (Spot)
open Regex (Expr Look Mark Trail ends)

namespace Item

/-- A character, or a parameter for one segment. -/
def isSimple : Item → Bool
  | char _ _ | param _ none none => true
  | _ => false

end Item

namespace Template

/-- The text of the characters and the parameters of a template, with values in the place of the
parameters. -/
def filled (values : List (String × String)) : Template → List Char
  | [] => []
  | .char c _ :: items => c :: filled values items
  | .param name _ _ :: items =>
    ((values.lookup (String.ofList name)).getD "").toList ++ filled values items
  | _ :: items => filled values items

theorem intercalate_cons (sep first : List Char) (more : List (List Char)) :
    sep.intercalate (first :: more) = first ++ more.flatMap (sep ++ ·) := by
  induction more generalizing first with
  | nil => simp [List.intercalate]
  | cons second more ih =>
      have hstep : sep.intercalate (first :: second :: more) =
          first ++ (sep ++ sep.intercalate (second :: more)) := by
        simp [List.intercalate]
      rw [hstep, ih, List.flatMap_cons, List.append_assoc]

/-- One or more segments with a slash between each two, as a list. -/
theorem exists_segments {text : List Char} (h : text ∈ segmentsLanguage) :
    ∃ segments, segments ≠ [] ∧ (∀ segment ∈ segments, segment ≠ [] ∧ '/' ∉ segment) ∧
      text = ['/'].intercalate segments := by
  obtain ⟨first, hfirst, rest, ⟨parts, rfl, hparts⟩, rfl⟩ := Language.mem_mul.mp h
  clear h
  have hmore : ∃ more : List (List Char), (∀ segment ∈ more, segment ≠ [] ∧ '/' ∉ segment) ∧
      parts.flatten = more.flatMap (['/'] ++ ·) := by
    induction parts with
    | nil => exact ⟨[], nofun, rfl⟩
    | cons part parts ih =>
        obtain ⟨hpart, hparts⟩ := List.forall_mem_cons.mp hparts
        obtain ⟨more, hmore, hflatten⟩ := ih hparts
        obtain ⟨_, rfl, segment, hsegment, rfl⟩ := Language.mem_mul.mp hpart
        refine ⟨segment :: more, List.forall_mem_cons.mpr ⟨hsegment, hmore⟩, ?_⟩
        rw [List.flatten_cons, hflatten, List.flatMap_cons]
  obtain ⟨more, hmore, hflatten⟩ := hmore
  refine ⟨first :: more, List.cons_ne_nil _ _, List.forall_mem_cons.mpr ⟨hfirst, hmore⟩, ?_⟩
  rw [intercalate_cons, hflatten]

/-- A value for a parameter is one segment, or segments with slashes between them. -/
theorem clean_of_mem_valueLanguage {modifier : Option Modifier} {word : List Char}
    (h : word ∈ valueLanguage modifier) :
    if modifier = none ∨ modifier = some .optional then String.ofList word ≠ "" ∧ '/' ∉ word
    else ∃ segments, segments ≠ [] ∧ (∀ segment ∈ segments, segment ≠ [] ∧ '/' ∉ segment) ∧
      word = ['/'].intercalate segments := by
  match modifier with
  | none | some .optional =>
      obtain ⟨hnonempty, hslash⟩ := h
      rw [if_pos (by simp)]
      exact ⟨fun hempty => hnonempty (String.ofList_injective hempty), hslash⟩
  | some .zeroOrMore | some .oneOrMore =>
      rw [if_neg (by simp)]
      exact exists_segments h

/-! ## Names of a template without bodies -/

theorem contained_of_standsBefore {item : Item} {behind : List Char}
    (h : item.standsBefore behind) : item.contained ∧
      item.captures = (paramNames [item]).map String.ofList := by
  have hvalue (name : List Char) (modifier : Option Modifier) :
      (Item.param name none modifier).contained ∧
        (Item.param name none modifier).captures = [String.ofList name] := by
    match modifier with
    | none | some .optional | some .zeroOrMore | some .oneOrMore => exact ⟨rfl, rfl⟩
  cases item with
  | char | wildcard | blockOpen => exact ⟨rfl, rfl⟩
  | param name body modifier =>
      cases body with
      | none => exact hvalue name modifier
      | some body => cases h
  | group => cases h
  | blockClose modifier =>
      match modifier with
      | none | some .optional | some .zeroOrMore | some .oneOrMore => exact ⟨rfl, rfl⟩

theorem captures_eq_paramNames {items : Template}
    (hitems : ∀ item ∈ items, ∃ behind, item.standsBefore behind) :
    captures items = (paramNames items).map String.ofList := by
  induction items with
  | nil => rfl
  | cons item items ih =>
      obtain ⟨⟨behind, hitem⟩, hrest⟩ := List.forall_mem_cons.mp hitems
      have hnames : paramNames (item :: items) = paramNames [item] ++ paramNames items :=
        List.filterMap_append (l := [item])
      rw [captures_cons, (contained_of_standsBefore hitem).2, ih hrest, hnames, List.map_append]

theorem mem_paramNames {items : Template} {name : List Char} {body : Option (List Char)}
    {modifier : Option Modifier} (h : .param name body modifier ∈ items) :
    name ∈ paramNames items := List.mem_filterMap.mpr ⟨_, h, rfl⟩

/-- Where no two parameters have one name, the name tells the modifier. -/
theorem modifier_unique {items : Template} {name : List Char} {first second : Option Modifier}
    (hnodup : (paramNames items).Nodup) (hfirst : .param name none first ∈ items)
    (hsecond : .param name none second ∈ items) : first = second := by
  induction items with
  | nil => cases hfirst
  | cons item items ih =>
      have hlater {modifier : Option Modifier} (hitem : item = .param name none modifier) :
          name ∉ paramNames items := by
        subst hitem
        exact (List.nodup_cons.mp hnodup).1
      rcases List.mem_cons.mp hfirst with rfl | hmem
      · rcases List.mem_cons.mp hsecond with heq | hmem
        · exact (Item.param.inj heq).2.2.symm
        · exact absurd (mem_paramNames hmem) (hlater rfl)
      · rcases List.mem_cons.mp hsecond with rfl | hmem'
        · exact absurd (mem_paramNames hmem) (hlater rfl)
        · have hrest : (paramNames items).Nodup :=
            hnodup.sublist (List.Sublist.filterMap _ (List.sublist_cons_self item items))
          exact ih hrest hmem hmem'

/-! ## Values in their places -/

section

variable {items : Template} {text : List Char} {c d : Trail} {values : List (String × String)}

theorem exprs_char {char : Char} {escaped : Bool} (hsimple : ∀ item ∈ items, item.isSimple) :
    exprs (.char char escaped :: items) = .set (.single char) :: exprs items := by
  rw [exprs]
  rintro name modifier rest rfl
  cases hsimple _ List.mem_cons_self

theorem exprs_param (name : List Char) (items : Template) :
    exprs (.param name none none :: items) =
      .group (.named (String.ofList name)) segmentExpr :: exprs items := by
  rw [exprs]
  rfl

theorem bodies_exprs_eq_nil {name : String}
    (hname : name ∉ (paramNames items).map String.ofList) :
    (Expr.seq (exprs items)).bodies name = [] := by
  rw [Expr.bodies_seq, List.eq_nil_iff_forall_not_mem]
  intro body hbody
  obtain ⟨word, modifier, rfl, hparam, -⟩ := mem_bodies_exprs hbody
  exact hname (List.mem_map_of_mem (mem_paramNames hparam))

/-- A parameter captures the stretch that it takes: the parameters behind it have other names, so
its marks stay. -/
theorem exists_captured?_of_param {name : String} {middle : Trail}
    (hgroup : (Expr.group (.named name) segmentExpr).Passes c middle)
    (hrest : (Expr.seq (exprs items)).Passes middle d) (hc : c.spot ∈ Spot.all text)
    (hname : name ∉ (paramNames items).map String.ofList) :
    ∃ word, c.spot.Spans word middle.spot ∧
      Regex.Searcher.captured? text d.marks name = some word := by
  obtain ⟨word, -, hword, hcaptured⟩ := Regex.exists_captured?_of_group hgroup hc
    denotes_segmentExpr (bodies_valueExpr name none)
  have hkept := hrest.ends_eq (hgroup.mem_all hc) (bodies_exprs_eq_nil hname)
  exact ⟨word, hword, (Regex.captured?_congr hkept).trans hcaptured⟩

/-- The values that a pass over a template of characters and parameters captures stand where the
parameters do. -/
theorem spans_filled (hsimple : ∀ item ∈ items, item.isSimple)
    (hnodup : ((paramNames items).map String.ofList).Nodup) (hc : c.spot ∈ Spot.all text)
    (h : (Expr.seq (exprs items)).Passes c d)
    (hvalues : ∀ name ∈ (paramNames items).map String.ofList,
      values.lookup name = (Regex.Searcher.captured? text d.marks name).map String.ofList) :
    (∀ name ∈ (paramNames items).map String.ofList,
      (Regex.Searcher.captured? text d.marks name).isSome) ∧
      c.spot.Spans (items.filled values) d.spot := by
  induction items generalizing c with
  | nil =>
      rw [exprs] at h
      obtain rfl : c = d := h
      exact ⟨List.forall_mem_nil _, .nil _⟩
  | cons item items ih =>
      obtain ⟨hitem, hothers⟩ := List.forall_mem_cons.mp hsimple
      cases item with
      | char char escaped =>
          rw [exprs_char hothers, Expr.passes_seq_cons] at h
          obtain ⟨middle, hchar, hrest⟩ := h
          obtain ⟨hsome, hspans⟩ := ih hothers hnodup (hchar.mem_all hc) hrest hvalues
          have hone := (Expr.Denotes.single char).matches_iff _ _ |>.mp (hchar.matches rfl)
          obtain ⟨_, rfl, hchar⟩ := hone
          exact ⟨hsome, Spot.spans_append_iff.mpr ⟨_, hchar, hspans⟩⟩
      | param name body modifier =>
          cases body with
          | some body => cases hitem
          | none =>
          cases modifier with
          | some modifier => cases hitem
          | none =>
          obtain ⟨hname, hnodup⟩ := List.nodup_cons.mp hnodup
          obtain ⟨hvalue, hvalues⟩ := List.forall_mem_cons.mp hvalues
          rw [exprs_param, Expr.passes_seq_cons] at h
          obtain ⟨middle, hgroup, hrest⟩ := h
          obtain ⟨hsome, hspans⟩ := ih hothers hnodup (hgroup.mem_all hc) hrest hvalues
          obtain ⟨word, hword, hcaptured⟩ := exists_captured?_of_param hgroup hrest hc hname
          refine ⟨List.forall_mem_cons.mpr ⟨by rw [hcaptured]; rfl, hsome⟩, ?_⟩
          rw [filled, hvalue, hcaptured, Option.map_some, Option.getD_some, String.toList_ofList]
          exact Spot.spans_append_iff.mpr ⟨_, hword, hspans⟩
      | group | wildcard | blockOpen | blockClose => cases hitem

end

end Template

/-! ## Captures -/

section

variable {α : Type} {names : List String} {f : String → Option α}

theorem lookup_filterMap (names : List String) (f : String → Option α) (name : String) :
    (names.filterMap fun key => (f key).map fun value => (key, value)).lookup name =
      if name ∈ names then f name else none := by
  induction names with
  | nil => rfl
  | cons key names ih =>
      by_cases heq : name = key
      · subst heq
        cases hvalue : f name with
        | none =>
            rw [List.filterMap_cons_none (by rw [hvalue]; rfl), ih, if_pos List.mem_cons_self,
              hvalue, ite_self]
        | some value =>
            rw [List.filterMap_cons_some (by rw [hvalue]; rfl), List.lookup_cons_self,
              if_pos List.mem_cons_self]
      · have hmem : name ∈ key :: names ↔ name ∈ names := by simp [heq]
        simp only [hmem]
        rw [← ih]
        cases hvalue : f key with
        | none => rw [List.filterMap_cons_none (by rw [hvalue]; rfl)]
        | some value =>
            have hkey : (name == key) = false := beq_eq_false_iff_ne.mpr heq
            rw [List.filterMap_cons_some (by rw [hvalue]; rfl)]
            simp only [List.lookup_cons, hkey]

theorem map_fst_filterMap (h : ∀ name ∈ names, (f name).isSome) :
    (names.filterMap fun key => (f key).map fun value => (key, value)).map Prod.fst = names := by
  induction names with
  | nil => rfl
  | cons key names ih =>
      obtain ⟨hkey, hnames⟩ := List.forall_mem_cons.mp h
      obtain ⟨value, hvalue⟩ := Option.isSome_iff_exists.mp hkey
      rw [List.filterMap_cons_some (by rw [hvalue]; rfl), List.map_cons, ih hnames]

end

namespace Matcher

/-- What a matcher captures, from the marks of the preferred match. -/
theorem captures?_eq {matcher : Matcher} {regex : Regex.Searcher}
    (hregex : matcher.regex = some regex) (candidate : String) :
    matcher.captures? candidate = (regex.find? candidate.toList).map fun marks =>
      matcher.params.filterMap fun name =>
        ((Regex.Searcher.captured? candidate.toList marks name).map String.ofList).map
          fun value => (name, value) := by
  rw [captures?, hregex]
  cases hfind : regex.find? candidate.toList with
  | none => simp [hfind]
  | some marks => simp [hfind, Option.map_map, Function.comp_def]

theorem isSome_captures? (matcher : Matcher) (candidate : String) :
    (matcher.captures? candidate).isSome = matcher.isMatch candidate := by
  cases hregex : matcher.regex with
  | none => rw [captures?, isMatch, hregex]; rfl
  | some regex =>
      rw [captures?_eq hregex, Option.isSome_map, isMatch, hregex, Regex.Searcher.find?,
        Option.isSome_map]
      rfl

theorem params_of_compile {pattern base : String} {matcher : Matcher} {items : Template}
    (h : compile pattern base = .ok matcher)
    (hread : Template.read (Pattern.join pattern base).toList = .ok items) :
    matcher.params = (Template.paramNames items).map String.ofList := by
  unfold compile at h
  simp only [hread, Except.mapError, bind, Except.bind] at h
  split at h
  · cases h
  · cases h
    rfl

end Matcher

/-- A template that is read and has no bodies, with the expression that it was compiled to. -/
structure Matcher.Expresses (matcher : Matcher) (items : Template) (e : Expr) : Prop where
  regex : matcher.regex = some (.ofExpr e)
  params : matcher.params = (Template.paramNames items).map String.ofList
  distinct : matcher.params.Nodup
  wellBounded : e.wellBounded
  expr : e = .seq (.look .textStart :: (Template.exprs items ++ [.look .textEnd]))

section

variable {matcher : Matcher} {items : Template} {e : Expr} {text : List Char} {marks : List Mark}

theorem Matcher.Expresses.bodies (h : matcher.Expresses items e) (name : String) :
    e.bodies name = (Template.exprs items).flatMap (Expr.bodies name) := by
  rw [h.expr, Expr.bodies_seq, List.flatMap_cons, List.flatMap_append, List.flatMap_singleton]
  exact List.append_nil _

/-- What is captured under the name of a parameter is a value for it. -/
theorem Matcher.Expresses.mem_valueLanguage (h : matcher.Expresses items e)
    (hfind : (Regex.Searcher.ofExpr e).find? text = some marks) {name value : List Char}
    {modifier : Option Modifier} (hparam : .param name none modifier ∈ items)
    (hcaptured : Regex.Searcher.captured? text marks (String.ofList name) = some value) :
    value ∈ Template.valueLanguage modifier := by
  refine Regex.mem_of_captured? h.wellBounded hfind (fun body hbody => ?_) hcaptured
  rw [h.bodies] at hbody
  obtain ⟨other, modifier', hname, hother, rfl⟩ := Template.mem_bodies_exprs hbody
  obtain rfl := String.ofList_injective hname
  -- No two parameters have one name, so this is the parameter itself.
  have hnodup : (Template.paramNames items).Nodup := (h.params ▸ h.distinct).of_map _
  obtain rfl := Template.modifier_unique hnodup hother hparam
  exact ⟨Template.denotes_valueExpr _, Template.bodies_valueExpr _ _⟩

/-- Where all parameters take one segment, what is captured stands in their places. -/
theorem Matcher.Expresses.filled_eq (h : matcher.Expresses items e)
    (hfind : (Regex.Searcher.ofExpr e).find? text = some marks)
    (hsimple : ∀ item ∈ items, item.isSimple) {values : List (String × String)}
    (hvalues : ∀ name ∈ matcher.params,
      values.lookup name = (Regex.Searcher.captured? text marks name).map String.ofList) :
    (∀ name ∈ matcher.params, (Regex.Searcher.captured? text marks name).isSome) ∧
      items.filled values = text := by
  obtain ⟨s, hs, t, hpasses⟩ := Regex.exists_passes_of_find? h.wellBounded hfind
  rw [h.expr, Expr.passes_seq_cons] at hpasses
  obtain ⟨_, ⟨rfl, hstart⟩, hpasses⟩ := hpasses
  obtain ⟨last, hitems, hend⟩ := Expr.passes_seq_concat.mp hpasses
  obtain ⟨rfl, hend⟩ := hend
  have hnodup := h.distinct
  rw [h.params] at hnodup hvalues ⊢
  obtain ⟨hsome, hspans⟩ := Template.spans_filled hsimple hnodup hs hitems hvalues
  exact ⟨hsome, (Regex.whole_of_spans hs hstart hspans hend).symm⟩

end

/-- Without bodies, what compiles is compiled to the expressions of its items. -/
theorem exists_expresses {pattern base : String} {matcher : Matcher} {items : Template}
    (hcompile : Matcher.compile pattern base = .ok matcher)
    (hread : Template.read (Pattern.join pattern base).toList = .ok items)
    (hitems : ∀ item ∈ items, ∃ behind, item.standsBefore behind) :
    ∃ e, matcher.Expresses items e := by
  obtain ⟨items', regex, hread', hpattern, hregex⟩ := Matcher.regex_of_compile hcompile
  obtain rfl := Except.ok.inj (hread.symm.trans hread')
  obtain ⟨e, he, rfl⟩ := Option.map_eq_some_iff.mp hpattern
  have hclosed := (Template.read_eq_ok_iff.mp hread).2.2
  have hparams := Matcher.params_of_compile hcompile hread
  have hcontained : ∀ item ∈ items, item.contained := fun item hitem =>
    (hitems item hitem).elim fun _ hstands => (Template.contained_of_standsBefore hstands).1
  have hnodup := ((Matcher.compile_ok_iff hread hcontained).mp ⟨matcher, hcompile⟩).1
  rw [Template.captures_eq_paramNames hitems, ← hparams] at hnodup
  exact ⟨e, hregex, hparams, hnodup, ((Template.grows_items hclosed hitems).anchored he).1,
    (Template.writes_items hclosed hitems).anchored he⟩

/-- A template in which no parenthesis stands bare captures from a candidate exactly if it matches.
A parameter captures one segment, or a list of segments if it may take more than one. Where there
are only characters and parameters for one segment, all parameters capture something, and with
these values in their places the template is the candidate. -/
theorem captures_clean {pattern base : String} {matcher : Matcher}
    (hcompile : Matcher.compile pattern base = .ok matcher)
    (hbare : Template.hasBareParenthesis (Pattern.join pattern base).toList = false) :
    ∃ items : Template, items.Spells (Pattern.join pattern base).toList ∧
      (∀ other : Template, other.Spells (Pattern.join pattern base).toList → other = items) ∧
      ∀ candidate : String,
        ((matcher.captures? candidate).isSome ↔ matcher.isMatch candidate) ∧
        ∀ captured, matcher.captures? candidate = some captured →
          (∀ name modifier value, .param name none modifier ∈ items →
            (String.ofList name, value) ∈ captured →
              if modifier = none ∨ modifier = some .optional then
                value ≠ "" ∧ '/' ∉ value.toList
              else ∃ segments, segments ≠ [] ∧
                (∀ segment ∈ segments, segment ≠ [] ∧ '/' ∉ segment) ∧
                  value.toList = ['/'].intercalate segments) ∧
          ((∀ item ∈ items, item.isSimple) →
            captured.map Prod.fst = (Template.paramNames items).map String.ofList ∧
              items.filled captured = candidate.toList) := by
  obtain ⟨items, -, hread, -⟩ := Matcher.regex_of_compile hcompile
  have hspells := (Template.read_spec hread).2 hbare
  refine ⟨items, hspells, fun other => hspells.unique, fun candidate => ?_⟩
  obtain ⟨e, hexpresses⟩ := exists_expresses hcompile hread hspells.standsBefore
  refine ⟨by rw [Matcher.isSome_captures?], fun captured hsome => ?_⟩
  rw [Matcher.captures?_eq hexpresses.regex] at hsome
  obtain ⟨marks, hfind, rfl⟩ := Option.map_eq_some_iff.mp hsome
  constructor
  · intro name modifier value hparam hmem
    obtain ⟨key, -, hpair⟩ := List.mem_filterMap.mp hmem
    obtain ⟨_, hvalue, heq⟩ := Option.map_eq_some_iff.mp hpair
    obtain ⟨rfl, rfl⟩ := Prod.mk.inj heq
    obtain ⟨word, hcaptured, rfl⟩ := Option.map_eq_some_iff.mp hvalue
    rw [String.toList_ofList]
    exact Template.clean_of_mem_valueLanguage (hexpresses.mem_valueLanguage hfind hparam hcaptured)
  · intro hsimple
    obtain ⟨hall, hfilled⟩ := hexpresses.filled_eq hfind hsimple fun name hname =>
      (lookup_filterMap _ _ name).trans (if_pos hname)
    refine ⟨?_, hfilled⟩
    rw [← hexpresses.params]
    exact map_fst_filterMap fun name hname => by rw [Option.isSome_map, hall name hname]

/-- What the parameter of "/:id" captures is the rest of a text that matches. -/
theorem captures_rest_of_path : ∃ matcher : Matcher,
    Matcher.compile "/:id" "" = .ok matcher ∧
      Template.hasBareParenthesis (Pattern.join "/:id" "").toList = false ∧
      matcher.captures? "/a7" = some [("id", "a7")] := by
  have hmatches : (Matcher.compile "/:id" "").toOption.any (·.isMatch "/a7") := by decide +kernel
  cases hcompile : Matcher.compile "/:id" "" with
  | error fault =>
      rw [hcompile] at hmatches
      cases hmatches
  | ok matcher =>
  rw [hcompile] at hmatches
  have hbare : Template.hasBareParenthesis (Pattern.join "/:id" "").toList = false := by decide
  obtain ⟨items, -, hunique, hclean⟩ := captures_clean hcompile hbare
  obtain rfl := hunique [.char '/' false, .param ['i', 'd'] none none]
    ⟨_, rfl, rfl, [], rfl, rfl, rfl⟩
  obtain ⟨hsome, hcaptured⟩ := hclean "/a7"
  obtain ⟨captured, hcaptures⟩ := Option.isSome_iff_exists.mp (hsome.mpr hmatches)
  obtain ⟨hnames, hfilled⟩ := (hcaptured captured hcaptures).2 (by decide)
  -- One name is captured, and its value stands behind the slash.
  obtain ⟨⟨name, value⟩, rfl⟩ := List.length_eq_one_iff.mp
    ((List.length_map Prod.fst).symm.trans (congrArg List.length hnames))
  obtain rfl : name = "id" := List.singleton_inj.mp hnames
  have hplaces : Template.filled [("id", value)]
      [.char '/' false, .param ['i', 'd'] none none] = '/' :: value.toList := by
    simp [Template.filled]
  rw [hplaces] at hfilled
  have hvalue : value.toList = "a7".toList := (List.cons.inj hfilled).2
  obtain rfl := String.toList_injective hvalue
  exact ⟨matcher, rfl, hbare, hcaptures⟩

end RouteAudit
