import RouteAudit.Proofs.Pattern.Translation
import RouteAudit.Proofs.Regex.Names

/-! # Templates accepted

What is written for a template is a regular expression if the body of each group is one on its
own, no two groups have one name and the limits are kept. So once the bodies are looked at apart,
only names can clash.
-/

namespace RouteAudit

/-- Whether a modifier asks for as many as there are. -/
def Modifier.repeats : Option Modifier → Bool
  | some .zeroOrMore | some .oneOrMore => true
  | _ => false

namespace Item

/-- What is written for the body of an item, behind the opening parenthesis of the group that it
fills. A body that is repeated fills a group of its own. -/
def core : Item → Option (List Char)
  | param _ body _ => some ('?' :: ':' :: body.getD Template.segment)
  | group body modifier => some (if Modifier.repeats modifier then '?' :: ':' :: body else body)
  | _ => none

/-- Whether the body of an item can be read apart. -/
def contained (item : Item) : Bool := item.core.all fun core => (Regex.Reader.group? core).isSome

/-- An item that means itself somewhere and whose body can be read apart. -/
def Whole (item : Item) : Prop := item.contained ∧ ∃ rest, item.stands rest

/-- The names of the groups in the body of an item. -/
def bodyNames (item : Item) : List String :=
  ((item.core.bind Regex.Reader.group?).map (·.names)).getD []

/-- The modifier of an item. -/
def modifier? : Item → Option Modifier
  | param _ _ modifier | group _ modifier | blockClose modifier => modifier
  | _ => none

/-- The names that the body of an item gives. A body that is repeated is written twice. -/
def bodyCaptures (item : Item) : List String :=
  if Modifier.repeats item.modifier? then item.bodyNames ++ item.bodyNames else item.bodyNames

/-- The names that an item gives, in order. -/
def captures (item : Item) : List String :=
  match item with
  | param name _ _ => String.ofList name :: item.bodyCaptures
  | _ => item.bodyCaptures

end Item

namespace Template

open Pattern (isNameStart isNameChar)
open Regex.Reader hiding isNameChar

/-- The names that the groups of a template are given, in order. -/
def captures (items : Template) : List String := items.flatMap Item.captures

section

variable {name body slash text : List Char} {names more : List String} {blocks : Nat}
  {modifier : Option Modifier} {items : Template} {closed : Regex.Reader}

/-! ## Names -/

theorem toNat_lt_of_isAlphanum {c : Char} (h : c.isAlphanum) : c.toNat < 128 := by
  rcases Bool.or_eq_true_iff.mp h with halpha | hdigit
  · rcases Bool.or_eq_true_iff.mp halpha with hupper | hlower
    · have hrange : 65 ≤ c.toNat ∧ c.toNat ≤ 90 := decide_eq_true_iff.mp hupper
      omega
    · have hrange : 97 ≤ c.toNat ∧ c.toNat ≤ 122 := (Bool.and_eq_true_iff.mp hlower).imp
        of_decide_eq_true of_decide_eq_true
      omega
  · have hrange : 48 ≤ c.toNat ∧ c.toNat ≤ 57 := (Bool.and_eq_true_iff.mp hdigit).imp
      of_decide_eq_true of_decide_eq_true
    omega

theorem isNameChar_first {c : Char} (h : isNameStart c) : Regex.Reader.isNameChar true c := by
  rw [isNameStart, Bool.or_eq_true] at h
  rw [Regex.Reader.isNameChar, if_pos rfl, Bool.or_eq_true, or_comm]
  refine h.imp_left fun halpha => ?_
  have hascii : c.toNat < 128 := toNat_lt_of_isAlphanum (by rw [Char.isAlphanum, halpha]; rfl)
  rw [Unicode.Recent.isAlphabetic, if_pos hascii, halpha]

theorem isNameChar_later {c : Char} (h : isNameChar c) : Regex.Reader.isNameChar false c := by
  rw [isNameChar, Bool.or_eq_true] at h
  rw [Regex.Reader.isNameChar, if_neg Bool.false_ne_true]
  rcases h with halnum | hunderscore
  · have hascii := toNat_lt_of_isAlphanum halnum
    rw [Unicode.Recent.isAlphanumeric, if_pos hascii, halnum, Bool.or_true]
  · rw [hunderscore]
    rfl

/-- The name of a parameter is one for a group too. -/
theorem isName_of_stands {rest : List Char} {body : Option (List Char)}
    (h : (Item.param name body modifier).stands rest) : isName name := by
  obtain ⟨hfirst, hchars⟩ := name_of_stands h
  cases name with
  | nil => cases hfirst
  | cons c name =>
      rw [isName, Bool.and_eq_true, List.all_eq_true]
      exact ⟨isNameChar_first hfirst, fun d hd => isNameChar_later (hchars d (.tail c hd))⟩

/-! ## Bodies -/

theorem Balanced.alike {depth : Nat} (h : Balanced depth body) : BodiesAlike body body := by
  induction h with
  | nil => exact .nil
  | escape c _ ih => exact .escape c ih
  | opening _ ih | closing _ ih => exact .char (by decide) ih
  | char hescape _ _ _ ih => exact .char hescape ih

theorem balanced_of_isBody (h : Item.isBody body) : Balanced 0 body := (isBody_iff.mp h).2

theorem isBody_segment : Item.isBody segment := by decide

theorem isBody_getD {rest : List Char} {body : Option (List Char)}
    (h : (Item.param name body modifier).stands rest) : Item.isBody (body.getD segment) := by
  cases body with
  | none => exact isBody_segment
  | some body => exact (Item.stands_param.mp h).2.2.1

theorem takes_char (c : Char) : Takes (escapeChar c) [] := by
  unfold escapeChar
  split
  next hmeta => exact (takesOne_escaped hmeta).takes
  next hplain => exact (takesOne_plain (Bool.eq_false_of_not_eq_true hplain)).takes

theorem takes_slash (hslash : slash = [] ∨ slash = ['/']) : Takes slash [] := by
  rcases hslash with rfl | rfl
  · exact .nil
  · exact takes_char '/'

theorem listText_eq (body : List Char) : listText body = "(?:".toList ++ body ++ [')'] ++
    ("(?:".toList ++ (escapeChar '/' ++ ("(?:".toList ++ body ++ [')'])) ++ [')'] ++ ['*']) := by
  simp [listText, escapeChar, isPatternMeta]

/-- A body that is repeated is read twice. -/
theorem takes_list (h : group? ('?' :: ':' :: body) = some closed) (hbody : Item.isBody body) :
    Takes (listText body) (closed.names ++ closed.names) := by
  have hone := (fills_of_group? h (balanced_of_isBody hbody).alike).plainGroup (Nat.le_refl 3)
  have hslash := (takes_char '/').append (calm_cons (by decide)) hone.takes
  rw [listText_eq]
  have hmore := (hslash.fills.plainGroup (by decide)).repeated '*' (by decide)
  exact hone.takes.append (calm_cons (by decide)) hmore

/-- What is written for the body of an item. -/
def bodyText (modifier : Option Modifier) (body : List Char) : List Char :=
  if Modifier.repeats modifier then listText body else body

theorem modifiedText_eq (slash : List Char) (name : Option (List Char)) (body : List Char)
    (modifier : Modifier) : modifiedText slash name body modifier =
      if modifier = .oneOrMore then slash ++ captureText name (bodyText (some modifier) body)
      else "(?:".toList ++ (slash ++ captureText name (bodyText (some modifier) body)) ++
        [')'] ++ ['?'] := by
  cases modifier <;> simp [modifiedText, bodyText, Modifier.repeats]

theorem takes_modified {modifier : Modifier} {name : Option (List Char)}
    (hslash : slash = [] ∨ slash = ['/'])
    (h : TakesOne (captureText name (bodyText (some modifier) body)) names) :
    Takes (modifiedText slash name body modifier) names := by
  have hcalm : Calm (captureText name (bodyText (some modifier) body)) := by
    cases name <;> exact calm_cons (by decide)
  have hone := (takes_slash hslash).append hcalm h.takes
  rw [modifiedText_eq]
  split
  next => exact hone
  next => exact (hone.fills.plainGroup (by decide)).repeated '?' (by decide)

theorem takesOne_param {rest : List Char} {body : Option (List Char)}
    (hstands : (Item.param name body modifier).stands rest)
    (hcontained : (Item.param name body modifier).contained) :
    TakesOne (captureText (some name) (bodyText modifier (body.getD segment)))
      (Item.param name body modifier).captures := by
  obtain ⟨closed, hclosed⟩ := Option.isSome_iff_exists.mp hcontained
  have hbody := isBody_getD hstands
  have hname := isName_of_stands hstands
  have hnames : (Item.param name body modifier).bodyNames = closed.names := by
    rw [Item.bodyNames, Item.core, Option.bind_some, hclosed]
    rfl
  have htext (text : List Char) : captureText (some name) text =
      "(?P<".toList ++ name ++ ['>'] ++ text ++ [')'] := by simp [captureText]
  rw [htext, Item.captures, Item.bodyCaptures, hnames, Item.modifier?, bodyText]
  split
  next => exact (takes_list hclosed hbody).fills.namedGroup (by decide) hname
  next =>
    exact (fills_of_group? hclosed (balanced_of_isBody hbody).alike).namedGroup (by decide) hname

theorem takesOne_group {rest : List Char} (hstands : (Item.group body modifier).stands rest)
    (hcontained : (Item.group body modifier).contained) :
    TakesOne (captureText none (bodyText modifier body)) (Item.group body modifier).captures := by
  obtain ⟨closed, hclosed⟩ := Option.isSome_iff_exists.mp hcontained
  have hbody := (Item.stands_group.mp hstands).1
  have hnames : (Item.group body modifier).bodyNames = closed.names := by
    rw [Item.bodyNames, Item.core, Option.bind_some, hclosed]
    rfl
  have hcaptures : (Item.group body modifier).captures = if Modifier.repeats modifier then
      closed.names ++ closed.names else closed.names := by
    rw [← hnames]
    rfl
  rw [hcaptures, bodyText]
  split at hclosed
  next hrepeats =>
    rw [if_pos hrepeats, if_pos hrepeats]
    exact (takes_list hclosed hbody).fills.numberedGroup (by decide)
  next hrepeats =>
    rw [if_neg hrepeats, if_neg hrepeats]
    exact takesOne_of_group? hclosed (balanced_of_isBody hbody).alike

theorem takes_wildcard : Takes "(.*)".toList [] :=
  ((takesOne_dot.repeated '*' (by decide)).fills.numberedGroup (by decide)).takes

/-! ## Items -/

/-- A text that is read where so many groups are open, for the names that it gives, and closes
them all. -/
def Ends (blocks : Nat) (text : List Char) (names : List String) : Prop :=
  ∀ (r : Regex.Reader) inner outer rest, r.flags = {} → r.groups = inner ++ outer →
    inner.length = blocks → (∀ group ∈ inner, group.flags = {}) → Calm rest →
      Comes text.length names r (text ++ rest) (Open outer) rest

theorem Ends.nil : Ends 0 [] [] := by
  intro r inner outer rest hflags hgroups hlength _ hrest
  obtain rfl := List.length_eq_zero_iff.mp hlength
  have hnil := Takes.nil r rest hflags hrest
  rwa [hgroups] at hnil

theorem ends_of_takes (h : Takes text names) {second : List Char} (hcalm : Calm second)
    (hsecond : Ends blocks second more) : Ends blocks (text ++ second) (names ++ more) := by
  intro r inner outer rest hflags hgroups hlength hinner hrest
  rw [List.append_assoc, List.length_append]
  refine (h r (second ++ rest) hflags (calm_append hcalm hrest)).trans fun r' hr' => ?_
  exact hsecond r' inner outer rest hr'.flags (hr'.groups.trans hgroups) hlength hinner hrest

theorem Ends.blockOpen (h : Ends (blocks + 1) text names) :
    Ends blocks ("(?:".toList ++ text) names := by
  intro r inner outer rest hflags hgroups hlength hinner hrest
  have hnext : r.flags.next ("(?:".toList ++ text ++ rest) =
      '(' :: '?' :: ':' :: (text ++ rest) := by rw [hflags]; rfl
  have hopen := Comes.step hnext (step?_openPlain hflags _) rfl
  have hread := hopen.trans fun r' hr' => by
    subst hr'
    refine h _ (⟨r.level, .plain, {}⟩ :: inner) outer rest rfl ?_ (by simp [hlength]) ?_ hrest
    · rw [List.cons_append, ← hgroups, ← hflags]
      rfl
    · exact List.forall_mem_cons.mpr ⟨rfl, hinner⟩
  refine hread.weaken ?_ fun _ hlast => hlast
  rw [List.length_append]
  exact Nat.add_le_add_right (by decide) _

/-- The end of a block, with what repeats it. -/
theorem Ends.blockClose (h : Ends blocks text names) (hcalm : Calm text)
    (modifier : Option Modifier) :
    Ends (blocks + 1) (')' :: (Modifier.spelling modifier ++ text)) names := by
  intro r inner outer rest hflags hgroups hlength hinner hrest
  cases inner with
  | nil => cases hlength
  | cons group inner =>
  obtain ⟨hgroup, hinner⟩ := List.forall_mem_cons.mp hinner
  have hclose := comes_close ⟨hflags, hgroups⟩ hgroup (Modifier.spelling modifier ++ (text ++ rest))
  have hlast (r' : Regex.Reader) (hr' : Open (inner ++ outer) r') :
      Comes text.length names r' (text ++ rest) (Open outer) rest :=
    h r' inner outer rest hr'.flags hr'.groups (Nat.succ.inj hlength) hinner hrest
  have hmore (r' : Regex.Reader) (hr' : Open (inner ++ outer) r' ∧ r'.repeatable) :
      Comes (Modifier.spelling modifier ++ text).length names r'
        (Modifier.spelling modifier ++ (text ++ rest)) (Open outer) rest := by
    cases modifier with
    | none => exact hlast r' hr'.1
    | some modifier =>
        have hmark : modifier.char ∈ ['?', '*', '+'] := by cases modifier <;> decide
        have hrepeat := comes_repeat hmark hr'.1.flags hr'.2 (calm_append hcalm hrest)
        rw [List.length_append]
        exact hrepeat.trans fun r'' hr'' => hlast r'' (hr'.1.groups ▸ hr'')
  rw [List.cons_append, List.append_assoc]
  refine (hclose.trans hmore).weaken ?_ fun _ hlast => hlast
  rw [List.length_cons, Nat.add_comm]

theorem captures_cons (item : Item) (items : Template) :
    captures (item :: items) = item.captures ++ captures items := rfl

/-- What is written for items is read for the names that they give. -/
theorem ends_items (hclosed : Template.closed blocks items) (hwhole : ∀ item ∈ items, item.Whole) :
    Ends blocks (itemsText items) (captures items) := by
  have hcalm := calm_itemsText
  fun_induction itemsText items generalizing blocks with
  | case1 =>
      rw [Template.closed, beq_iff_eq] at hclosed
      subst hclosed
      exact .nil
  | case2 escaped name body modifier items ih =>
      obtain ⟨-, ⟨hcontained, rest, hstands⟩, hwhole⟩ := List.forall_mem_cons.mp hwhole
        |>.imp_right List.forall_mem_cons.mp
      exact ends_of_takes (takes_modified (.inr rfl) (takesOne_param hstands hcontained))
        (hcalm items) (ih hclosed hwhole)
  | case3 escaped body modifier items ih =>
      obtain ⟨-, ⟨hcontained, rest, hstands⟩, hwhole⟩ := List.forall_mem_cons.mp hwhole
        |>.imp_right List.forall_mem_cons.mp
      exact ends_of_takes (takes_modified (.inr rfl) (takesOne_group hstands hcontained))
        (hcalm items) (ih hclosed hwhole)
  | case4 c escaped items _ _ ih =>
      obtain ⟨-, hwhole⟩ := List.forall_mem_cons.mp hwhole
      exact ends_of_takes (takes_char c) (hcalm items) (ih hclosed hwhole)
  | case5 name body items ih =>
      obtain ⟨⟨hcontained, rest, hstands⟩, hwhole⟩ := List.forall_mem_cons.mp hwhole
      exact ends_of_takes (takesOne_param hstands hcontained).takes (hcalm items)
        (ih hclosed hwhole)
  | case6 name body modifier items ih =>
      obtain ⟨⟨hcontained, rest, hstands⟩, hwhole⟩ := List.forall_mem_cons.mp hwhole
      exact ends_of_takes (takes_modified (.inl rfl) (takesOne_param hstands hcontained))
        (hcalm items) (ih hclosed hwhole)
  | case7 body items ih =>
      obtain ⟨⟨hcontained, rest, hstands⟩, hwhole⟩ := List.forall_mem_cons.mp hwhole
      exact ends_of_takes (takesOne_group hstands hcontained).takes (hcalm items)
        (ih hclosed hwhole)
  | case8 body modifier items ih =>
      obtain ⟨⟨hcontained, rest, hstands⟩, hwhole⟩ := List.forall_mem_cons.mp hwhole
      exact ends_of_takes (takes_modified (.inl rfl) (takesOne_group hstands hcontained))
        (hcalm items) (ih hclosed hwhole)
  | case9 items ih =>
      obtain ⟨-, hwhole⟩ := List.forall_mem_cons.mp hwhole
      exact ends_of_takes takes_wildcard (hcalm items) (ih hclosed hwhole)
  | case10 items ih =>
      obtain ⟨-, hwhole⟩ := List.forall_mem_cons.mp hwhole
      exact (ih hclosed hwhole).blockOpen
  | case11 items ih =>
      obtain ⟨-, hwhole⟩ := List.forall_mem_cons.mp hwhole
      cases blocks with
      | zero => cases hclosed
      | succ blocks => exact (ih hclosed hwhole).blockClose (hcalm items) none
  | case12 modifier items ih =>
      obtain ⟨-, hwhole⟩ := List.forall_mem_cons.mp hwhole
      cases blocks with
      | zero => cases hclosed
      | succ blocks =>
          have hnone : (Item.blockClose (some modifier)).captures = [] := by cases modifier <;> rfl
          rw [captures_cons, hnone]
          exact (ih hclosed hwhole).blockClose (hcalm items) (some modifier)

/-- What is written for a template is a regular expression if no two groups have one name and the
limits are kept, and only then. -/
theorem accepted_iff (hclosed : Template.closed 0 items) (hwhole : ∀ item ∈ items, item.Whole) :
    (Regex.Searcher.ofPattern? (regexText items)).isSome ↔
      (captures items).Nodup ∧ withinLimits (regexText items) := by
  have htakes : Takes (itemsText items) (captures items) := fun r rest hflags hrest =>
    ends_items hclosed hwhole r [] r.groups rest hflags rfl rfl nofun hrest
  rw [Regex.Searcher.ofPattern?, Option.isSome_map]
  exact htakes.anchored

end

end Template

/-- A pattern whose template is read and has its bodies apart compiles if no two groups have one
name and the limits are kept, and only then. -/
theorem Matcher.compile_ok_iff {pattern base : String} {items : Template}
    (hread : Template.read (Pattern.join pattern base).toList = .ok items)
    (hcontained : ∀ item ∈ items, item.contained) :
    (∃ matcher, compile pattern base = .ok matcher) ↔
      items.captures.Nodup ∧ Regex.Reader.withinLimits items.regexText := by
  obtain ⟨-, hstands, hclosed⟩ := Template.read_eq_ok_iff.mp hread
  have hwhole : ∀ item ∈ items, item.Whole := fun item hitem =>
    ⟨hcontained item hitem, Template.exists_stands_of_mem hstands hitem⟩
  rw [← Template.accepted_iff hclosed hwhole]
  constructor
  · rintro ⟨matcher, hcompile⟩
    obtain ⟨items', regex, hread', hpattern, -⟩ := Matcher.regex_of_compile hcompile
    obtain rfl := Except.ok.inj (hread.symm.trans hread')
    rw [hpattern]
    rfl
  · intro hsome
    obtain ⟨regex, hregex⟩ := Option.isSome_iff_exists.mp hsome
    unfold compile
    simp only [hread, Except.mapError, bind, Except.bind, hregex]
    exact ⟨_, rfl⟩

end RouteAudit
