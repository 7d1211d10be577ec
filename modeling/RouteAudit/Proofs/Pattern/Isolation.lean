import RouteAudit.Proofs.Pattern.Acceptance
import RouteAudit.Proofs.Regex.Alone

/-! # Bodies in their own groups

The body of a group is written into the pattern as it stands in the template. So it may reach
beyond its parentheses and be a part of something else: two bodies that are no patterns can be one
together. Where each body closes what it opens, that does not happen: if the whole compiles, each
capture is a pattern of its own.
-/

namespace RouteAudit

namespace Item

/-- The body that an item is given in the template, with the name of its capture. -/
def custom? : Item → Option (Option (List Char) × List Char)
  | param name (some body) _ => some (some name, body)
  | group body _ => some (none, body)
  | _ => none

/-- An item whose body can be read apart, and if it was given one, the capture of that is a pattern
of its own but for its size. -/
def Isolated (item : Item) : Prop :=
  item.contained ∧ ∀ capture body, item.custom? = some (capture, body) →
    (Regex.Expr.written? (Template.captureText capture body)).isSome

/-- The body that an item is given closes what it opens. -/
def ClosesItself (item : Item) : Prop :=
  ∀ capture body, item.custom? = some (capture, body) → Regex.closesItself body

/-- An item that means itself somewhere and whose body closes what it opens. -/
def Tidy (item : Item) : Prop := (∃ rest, item.stands rest) ∧ item.ClosesItself

theorem Isolated.of_bodiless {item : Item} (hcore : item.core = none)
    (hcustom : item.custom? = none) : item.Isolated := by
  refine ⟨by rw [contained, hcore, Option.all_none], ?_⟩
  intro capture body hsome
  rw [hcustom] at hsome
  cases hsome

end Item

namespace Template

open Regex.Reader hiding isNameChar

/-- The bodies that a template gives, with the names of their captures. -/
def customs (items : Template) : List (Option (List Char) × List Char) :=
  items.filterMap Item.custom?

section

variable {name body slash text more rest : List Char} {capture : Option (List Char)}
  {names : List String} {modifier : Option Modifier} {items : Template} {r : Regex.Reader}

/-! ## Captures -/

theorem listText_append (body rest : List Char) : listText body ++ rest =
    '(' :: '?' :: ':' :: (body ++ ')' :: ("(?:/(?:".toList ++ body ++ "))*".toList ++ rest)) := by
  simp [listText]

/-- The reader comes to the body of a capture, behind the parenthesis that is right before it. -/
theorem reaches_body (hname : capture.all isName)
    (hbare : capture = none → Modifier.repeats modifier)
    (h : Completes r (captureText capture (bodyText modifier body) ++ rest))
    (hflags : r.flags = {}) : ∃ r' behind, Completes r' (body ++ ')' :: behind) ∧ r'.Begins ∧
      r'.names = (capture.map String.ofList).toList ++ r.names := by
  cases capture with
  | none =>
      have htext : captureText none (bodyText modifier body) ++ rest =
          '(' :: (listText body ++ ')' :: rest) := by
        rw [bodyText, if_pos (hbare rfl)]
        simp [captureText]
      rw [htext, listText_append] at h
      have hopened := (h.enter_numbered hflags (by decide)).enter_plain rfl
      exact ⟨_, _, hopened, begins_openGroup _ _, rfl⟩
  | some name =>
      have htext : captureText (some name) (bodyText modifier body) ++ rest =
          "(?P<".toList ++ name ++ '>' :: (bodyText modifier body ++ ')' :: rest) := by
        simp [captureText]
      rw [htext] at h
      have hopened := Completes.enter_named hname h hflags
      rw [bodyText] at hopened
      split at hopened
      next =>
        rw [listText_append] at hopened
        exact ⟨_, _, hopened.enter_plain rfl, begins_openGroup _ _, rfl⟩
      next => exact ⟨_, _, hopened, ⟨rfl, rfl, List.cons_ne_nil _ _⟩, rfl⟩

/-- A body in a capture can be read apart, and its capture is a pattern of its own. -/
theorem capture_apart (hname : capture.all isName)
    (h : Completes r (captureText capture (bodyText modifier body) ++ rest)) (hflags : r.flags = {})
    (hcloses : Regex.closesItself body) :
    (group? (if capture = none ∧ ¬ Modifier.repeats modifier then body
      else '?' :: ':' :: body)).isSome ∧
      (Regex.Expr.written? (captureText capture body)).isSome := by
  split
  next hbare =>
    obtain ⟨rfl, hrepeats⟩ := hbare
    have htext : captureText none (bodyText modifier body) ++ rest =
        '(' :: (body ++ ')' :: rest) := by
      rw [bodyText, if_neg hrepeats]
      simp [captureText]
    rw [htext] at h
    exact h.group_apart hflags hcloses
  next hbare =>
    obtain ⟨r', behind, hcomplete, hbegins, hnames⟩ := reaches_body hname
      (fun hnone => by_contra fun hrepeats => hbare ⟨hnone, hrepeats⟩) h hflags
    refine ⟨hcomplete.plain_apart hbegins hcloses, ?_⟩
    cases capture with
    | none => exact hcomplete.numbered_alone hbegins hcloses
    | some name =>
        exact Completes.named_alone hname hcomplete hbegins hnames hcloses

theorem isolated_param {given : Option (List Char)} {behind : List Char}
    (hstands : (Item.param name given modifier).stands behind)
    (hcloses : (Item.param name given modifier).ClosesItself)
    (h : Completes r (captureText (some name) (bodyText modifier (given.getD segment)) ++ rest))
    (hflags : r.flags = {}) : (Item.param name given modifier).Isolated := by
  have hbody : Regex.closesItself (given.getD segment) := by
    cases given with
    | none => decide
    | some body => exact hcloses _ _ rfl
  have hname : (some name).all isName := isName_of_stands hstands
  obtain ⟨hgroup, hwritten⟩ := capture_apart hname h hflags hbody
  rw [if_neg fun hbare => Option.some_ne_none _ hbare.1] at hgroup
  refine ⟨hgroup, ?_⟩
  intro capture body hcustom
  cases given with
  | none => cases hcustom
  | some given =>
      obtain ⟨rfl, rfl⟩ := Prod.mk.inj (Option.some.inj hcustom)
      exact hwritten

theorem isolated_group (hcloses : (Item.group body modifier).ClosesItself)
    (h : Completes r (captureText none (bodyText modifier body) ++ rest)) (hflags : r.flags = {}) :
    (Item.group body modifier).Isolated := by
  obtain ⟨hgroup, hwritten⟩ := capture_apart rfl h hflags (hcloses _ _ rfl)
  refine ⟨?_, ?_⟩
  · rw [Item.contained, Item.core, Option.all_some]
    by_cases hrepeats : Modifier.repeats modifier
    · rw [if_neg fun hbare => hbare.2 hrepeats] at hgroup
      rwa [if_pos hrepeats]
    · rw [if_pos ⟨rfl, hrepeats⟩] at hgroup
      rwa [if_neg hrepeats]
  · intro capture body' hcustom
    obtain ⟨rfl, rfl⟩ := Prod.mk.inj (Option.some.inj hcustom)
    exact hwritten

/-! ## Items -/

/-- The reader has no flag set and goes back to none. -/
def Unflagged (r : Regex.Reader) : Prop := r.flags = {} ∧ ∀ group ∈ r.groups, group.flags = {}

theorem Unflagged.of_open {groups : List Regex.OpenGroup} {r' : Regex.Reader}
    (hopen : Open groups r') (hgroups : ∀ group ∈ groups, group.flags = {}) : Unflagged r' :=
  ⟨hopen.flags, hopen.groups ▸ hgroups⟩

theorem Unflagged.openGroup (h : Unflagged r) (kind : Regex.Group) :
    Unflagged (r.openGroup kind {}) :=
  ⟨rfl, List.forall_mem_cons.mpr h⟩

theorem next_of_takes (htakes : Takes text names) (h : Completes r (text ++ rest))
    (hflags : Unflagged r) (hcalm : Calm rest) : ∃ r', Unflagged r' ∧ Completes r' rest := by
  obtain ⟨r', hopen, hcomplete⟩ := h.of_comes (htakes r rest hflags.1 hcalm)
  exact ⟨r', .of_open hopen hflags.2, hcomplete⟩

/-- Where the reader comes to the end, there is a group for each closing parenthesis. -/
theorem next_of_close (h : Completes r (')' :: rest)) (hflags : Unflagged r) :
    ∃ r', (Unflagged r' ∧ r'.repeatable) ∧ Completes r' rest := by
  cases hgroups : r.groups with
  | nil =>
      obtain ⟨r', behind, hstep, -⟩ := h.step_unset hflags.1
      rw [step?, closeParen?, hgroups] at hstep
      cases hstep
  | cons group outer =>
      have hinner := hflags.2
      rw [hgroups] at hinner
      obtain ⟨hgroup, houter⟩ := List.forall_mem_cons.mp hinner
      obtain ⟨r', ⟨hopen, hrepeatable⟩, hcomplete⟩ :=
        h.of_comes (comes_close ⟨hflags.1, hgroups⟩ hgroup rest)
      exact ⟨r', ⟨.of_open hopen houter, hrepeatable⟩, hcomplete⟩

/-- The reader comes to a capture with a modifier, behind what is written before it. -/
theorem reaches_capture {modifier : Modifier} (hslash : slash = [] ∨ slash = ['/'])
    (h : Completes r (modifiedText slash capture body modifier ++ rest)) (hflags : Unflagged r) :
    ∃ r' behind, Completes r' (captureText capture (bodyText (some modifier) body) ++ behind) ∧
      r'.flags = {} := by
  have hpast (r : Regex.Reader) (behind : List Char) (hflags : Unflagged r)
      (h : Completes r (slash ++ (captureText capture (bodyText (some modifier) body) ++ behind))) :
      ∃ r' behind, Completes r' (captureText capture (bodyText (some modifier) body) ++ behind) ∧
        r'.flags = {} := by
    have hcalm : Calm (captureText capture (bodyText (some modifier) body) ++ behind) := by
      cases capture <;> exact calm_cons (by decide)
    obtain ⟨r', hflags', hcomplete⟩ := next_of_takes (takes_slash hslash) h hflags hcalm
    exact ⟨r', behind, hcomplete, hflags'.1⟩
  rw [modifiedText_eq] at h
  split at h
  next =>
    rw [List.append_assoc] at h
    exact hpast r rest hflags h
  next =>
    have htext : "(?:".toList ++ (slash ++ captureText capture (bodyText (some modifier) body)) ++
        [')'] ++ ['?'] ++ rest = '(' :: '?' :: ':' :: (slash ++
          (captureText capture (bodyText (some modifier) body) ++ ')' :: '?' :: rest)) := by simp
    rw [htext] at h
    exact hpast _ _ (hflags.openGroup .plain) (h.enter_plain hflags.1)

/-- Where the reader comes to the end from the text of an item, the item is isolated and the reader
comes to what follows. -/
def Isolates (item : Item) (text : List Char) : Prop :=
  ∀ r rest, Unflagged r → Calm rest → Completes r (text ++ rest) →
    item.Isolated ∧ ∃ r', Unflagged r' ∧ Completes r' rest

theorem isolates_char (c : Char) (escaped : Bool) : Isolates (.char c escaped) (escapeChar c) :=
  fun _ _ hflags hcalm h => ⟨.of_bodiless rfl rfl, next_of_takes (takes_char c) h hflags hcalm⟩

theorem isolates_wildcard : Isolates .wildcard "(.*)".toList := fun _ _ hflags hcalm h =>
  ⟨.of_bodiless rfl rfl, next_of_takes takes_wildcard h hflags hcalm⟩

/-- An item that a text captures: it is isolated where the reader comes to the end from the text,
and then the text is read for its names. -/
structure CapturedBy (item : Item) (text : List Char) : Prop where
  isolated : ∀ {r rest}, Completes r (text ++ rest) → r.flags = {} → item.Isolated
  takes : item.Isolated → TakesOne text item.captures

theorem captured_param {given : Option (List Char)}
    (hitem : (Item.param name given modifier).Tidy) : CapturedBy (.param name given modifier)
      (captureText (some name) (bodyText modifier (given.getD segment))) := by
  obtain ⟨⟨behind, hstands⟩, hcloses⟩ := hitem
  exact ⟨isolated_param hstands hcloses, fun hisolated => takesOne_param hstands hisolated.1⟩

theorem captured_group (hitem : (Item.group body modifier).Tidy) :
    CapturedBy (.group body modifier) (captureText none (bodyText modifier body)) := by
  obtain ⟨⟨behind, hstands⟩, hcloses⟩ := hitem
  exact ⟨isolated_group hcloses, fun hisolated => takesOne_group hstands hisolated.1⟩

theorem CapturedBy.isolates {item : Item} (h : CapturedBy item text) : Isolates item text := by
  intro r rest hflags hcalm hcomplete
  have hisolated := h.isolated hcomplete hflags.1
  exact ⟨hisolated, next_of_takes (h.takes hisolated).takes hcomplete hflags hcalm⟩

theorem CapturedBy.isolates_modified {item : Item} {modifier : Modifier}
    (h : CapturedBy item (captureText capture (bodyText (some modifier) body)))
    (hslash : slash = [] ∨ slash = ['/']) :
    Isolates item (modifiedText slash capture body modifier) := by
  intro r rest hflags hcalm hcomplete
  obtain ⟨r', behind, hcapture, hflags'⟩ := reaches_capture hslash hcomplete hflags
  have hisolated := h.isolated hcapture hflags'
  have htakes := takes_modified hslash (h.takes hisolated)
  exact ⟨hisolated, next_of_takes htakes hcomplete hflags hcalm⟩

theorem isolates_blockOpen : Isolates .blockOpen "(?:".toList := fun _ _ hflags _ h =>
  ⟨.of_bodiless rfl rfl, _, hflags.openGroup .plain, h.enter_plain hflags.1⟩

theorem isolates_blockClose (modifier : Option Modifier) :
    Isolates (.blockClose modifier) (')' :: Modifier.spelling modifier) := by
  intro r rest hflags hcalm h
  refine ⟨.of_bodiless rfl rfl, ?_⟩
  obtain ⟨r', ⟨hflags', hrepeatable⟩, hclosed⟩ := next_of_close h hflags
  cases modifier with
  | none => exact ⟨r', hflags', hclosed⟩
  | some modifier =>
      have hmark : modifier.char ∈ ['?', '*', '+'] := by cases modifier <;> decide
      obtain ⟨r'', hopen, hnext⟩ :=
        hclosed.of_comes (comes_repeat hmark hflags'.1 hrepeatable hcalm)
      exact ⟨r'', .of_open hopen hflags'.2, hnext⟩

theorem Isolates.cons {item : Item} (hitem : Isolates item text) (hflags : Unflagged r)
    (hcalm : Calm (more ++ rest)) (h : Completes r (text ++ more ++ rest))
    (hmore : ∀ {r'}, Completes r' (more ++ rest) → Unflagged r' → ∀ other ∈ items, other.Isolated) :
    ∀ other ∈ item :: items, other.Isolated := by
  rw [List.append_assoc] at h
  obtain ⟨hisolated, r', hflags', hnext⟩ := hitem r (more ++ rest) hflags hcalm h
  exact List.forall_mem_cons.mpr ⟨hisolated, hmore hnext hflags'⟩

/-- Where the reader comes to the end from items whose bodies close what they open, all of these
are isolated. -/
theorem isolated_items (h : Completes r (itemsText items ++ rest)) (hflags : Unflagged r)
    (hcalm : Calm rest) (hitems : ∀ item ∈ items, item.Tidy) : ∀ item ∈ items, item.Isolated := by
  have hcalm (items : Template) : Calm (itemsText items ++ rest) :=
    calm_append (calm_itemsText items) hcalm
  fun_induction itemsText items generalizing r with
  | case1 => exact List.forall_mem_nil _
  | case2 escaped name body modifier items ih =>
      obtain ⟨-, hfirst, hitems⟩ := List.forall_mem_cons.mp hitems
        |>.imp_right List.forall_mem_cons.mp
      have hfirst := (captured_param hfirst).isolates_modified (.inr rfl)
      have hboth := hfirst.cons hflags (hcalm items) h fun hnext hflags => ih hnext hflags hitems
      exact List.forall_mem_cons.mpr ⟨.of_bodiless rfl rfl, hboth⟩
  | case3 escaped body modifier items ih =>
      obtain ⟨-, hfirst, hitems⟩ := List.forall_mem_cons.mp hitems
        |>.imp_right List.forall_mem_cons.mp
      have hfirst := (captured_group hfirst).isolates_modified (.inr rfl)
      have hboth := hfirst.cons hflags (hcalm items) h fun hnext hflags => ih hnext hflags hitems
      exact List.forall_mem_cons.mpr ⟨.of_bodiless rfl rfl, hboth⟩
  | case4 c escaped items _ _ ih =>
      obtain ⟨-, hitems⟩ := List.forall_mem_cons.mp hitems
      exact (isolates_char c escaped).cons hflags (hcalm items) h
        fun hnext hflags => ih hnext hflags hitems
  | case5 name body items ih =>
      obtain ⟨hfirst, hitems⟩ := List.forall_mem_cons.mp hitems
      exact (captured_param hfirst).isolates.cons hflags (hcalm items) h
        fun hnext hflags => ih hnext hflags hitems
  | case6 name body modifier items ih =>
      obtain ⟨hfirst, hitems⟩ := List.forall_mem_cons.mp hitems
      exact ((captured_param hfirst).isolates_modified (.inl rfl)).cons hflags (hcalm items) h
        fun hnext hflags => ih hnext hflags hitems
  | case7 body items ih =>
      obtain ⟨hfirst, hitems⟩ := List.forall_mem_cons.mp hitems
      exact (captured_group hfirst).isolates.cons hflags (hcalm items) h
        fun hnext hflags => ih hnext hflags hitems
  | case8 body modifier items ih =>
      obtain ⟨hfirst, hitems⟩ := List.forall_mem_cons.mp hitems
      exact ((captured_group hfirst).isolates_modified (.inl rfl)).cons hflags (hcalm items) h
        fun hnext hflags => ih hnext hflags hitems
  | case9 items ih =>
      obtain ⟨-, hitems⟩ := List.forall_mem_cons.mp hitems
      exact isolates_wildcard.cons hflags (hcalm items) h
        fun hnext hflags => ih hnext hflags hitems
  | case10 items ih =>
      obtain ⟨-, hitems⟩ := List.forall_mem_cons.mp hitems
      exact isolates_blockOpen.cons hflags (hcalm items) h
        fun hnext hflags => ih hnext hflags hitems
  | case11 items ih =>
      obtain ⟨-, hitems⟩ := List.forall_mem_cons.mp hitems
      exact (isolates_blockClose none).cons hflags (hcalm items) h
        fun hnext hflags => ih hnext hflags hitems
  | case12 modifier items ih =>
      obtain ⟨-, hitems⟩ := List.forall_mem_cons.mp hitems
      exact (isolates_blockClose (some modifier)).cons hflags (hcalm items) h
        fun hnext hflags => ih hnext hflags hitems

theorem isolated_of_ofPattern? (h : (Regex.Searcher.ofPattern? (regexText items)).isSome)
    (hitems : ∀ item ∈ items, item.Tidy) : ∀ item ∈ items, item.Isolated := by
  rw [Regex.Searcher.ofPattern?, Option.isSome_map, Option.isSome_iff_exists] at h
  obtain ⟨e, hpattern⟩ := h
  obtain ⟨r, behind, hstep, hcomplete⟩ := (completes_of_run hpattern).step (c := '^') rfl
  obtain ⟨rfl, rfl⟩ := Prod.mk.inj (Option.some.inj hstep)
  exact isolated_items hcomplete ⟨rfl, List.forall_mem_nil _⟩ (by simp [Calm]) hitems

end

end Template

/-- A pattern that compiles keeps the bodies of its template apart, where each that it was given
closes what it opens: every body can be read apart from what stands around it, and the capture of
each that was given is a pattern of its own, unless its automata alone would grow too large. -/
theorem Matcher.bodies_apart {pattern base : String} {items : Template}
    (hread : Template.read (Pattern.join pattern base).toList = .ok items)
    (hcloses : ∀ custom ∈ items.customs, Regex.closesItself custom.2)
    (hcompile : ∃ matcher, compile pattern base = .ok matcher) :
    (∀ item ∈ items, item.contained) ∧ ∀ custom ∈ items.customs,
      ∃ e, Regex.Expr.written? (Template.captureText custom.1 custom.2) = some e ∧
        ((Regex.Searcher.ofPattern? (Template.captureText custom.1 custom.2)).isSome ↔ e.fits) := by
  obtain ⟨-, hstands, -⟩ := Template.read_eq_ok_iff.mp hread
  have hitems : ∀ item ∈ items, item.Tidy := fun item hitem =>
    ⟨Template.exists_stands_of_mem hstands hitem, fun capture body hcustom =>
      hcloses (capture, body) (List.mem_filterMap.mpr ⟨item, hitem, hcustom⟩)⟩
  obtain ⟨matcher, hcompile⟩ := hcompile
  obtain ⟨items', regex, hread', hpattern, -⟩ := Matcher.regex_of_compile hcompile
  obtain rfl := Except.ok.inj (hread.symm.trans hread')
  have hisolated := Template.isolated_of_ofPattern? (by rw [hpattern]; rfl) hitems
  refine ⟨fun item hitem => (hisolated item hitem).1, ?_⟩
  rintro ⟨capture, body⟩ hcustom
  obtain ⟨item, hitem, hcustom⟩ := List.mem_filterMap.mp hcustom
  obtain ⟨e, hwritten⟩ := Option.isSome_iff_exists.mp ((hisolated item hitem).2 _ _ hcustom)
  exact ⟨e, hwritten, Regex.isSome_ofPattern?_iff hwritten⟩

/-- A body of a parameter and a bare one with parentheses in its classes are each a regular
expression by itself. -/
theorem Matcher.bodies_apart_digits : ∃ items : Template,
    Template.read (Pattern.join "/:id([0-9]+)/([(]x+[)])*" "").toList = .ok items ∧
      (∀ custom ∈ items.customs, Regex.closesItself custom.2) ∧
      (∃ matcher, compile "/:id([0-9]+)/([(]x+[)])*" "" = .ok matcher) ∧
      (∃ e, Regex.Expr.written? "(?P<id>[0-9]+)".toList = some e ∧
        ((Regex.Searcher.ofPattern? "(?P<id>[0-9]+)".toList).isSome ↔ e.fits)) ∧
      ∃ e, Regex.Expr.written? "([(]x+[)])".toList = some e ∧
        ((Regex.Searcher.ofPattern? "([(]x+[)])".toList).isSome ↔ e.fits) := by
  let items : Template := [.char '/' false, .param "id".toList (some "[0-9]+".toList) none,
    .char '/' false, .group "[(]x+[)]".toList (some .zeroOrMore)]
  have hread : Template.read (Pattern.join "/:id([0-9]+)/([(]x+[)])*" "").toList = .ok items := by
    decide +kernel
  have hcloses : ∀ custom ∈ items.customs, Regex.closesItself custom.2 := by decide
  have hok : (compile "/:id([0-9]+)/([(]x+[)])*" "").toOption.isSome := by decide +kernel
  have hcompile : ∃ matcher, compile "/:id([0-9]+)/([(]x+[)])*" "" = .ok matcher := by
    cases hresult : compile "/:id([0-9]+)/([(]x+[)])*" "" with
    | ok matcher => exact ⟨matcher, rfl⟩
    | error e =>
        rw [hresult] at hok
        cases hok
  obtain ⟨-, hcaptures⟩ := bodies_apart hread hcloses hcompile
  exact ⟨items, hread, hcloses, hcompile,
    hcaptures (some "id".toList, "[0-9]+".toList) (by decide),
    hcaptures (none, "[(]x+[)]".toList) (by decide)⟩

end RouteAudit
