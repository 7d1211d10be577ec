import RouteAudit.Proofs.Remedy.Params

/-! # What is repaired still compiles

A pattern is compiled with what its base puts before it. Where the bodies of all groups can be read
apart, a pass keeps what compiles, unless a name that it makes up has been given in the base or
inside a body already (only parameters of the pattern itself are looked at when names are made up),
a body falls apart when its dots are encoded, or bounding the end takes away the scheme that kept
the base off.
-/

namespace RouteAudit

namespace Pattern

/-- What a base puts before a pattern. -/
def lead (pattern base : List Char) : List Char :=
  if base.isEmpty || namesScheme pattern then []
  else if pattern.head? = some '/' then withoutEndSlashes base
  else withoutEndSlashes base ++ ['/']

section

variable {pattern other base : List Char}

/-- Without a base a pattern stands alone. -/
theorem lead_empty (pattern : List Char) : lead pattern "".toList = [] := rfl

theorem joinChars_eq (pattern base : List Char) :
    joinChars pattern base = lead pattern base ++ pattern := by
  unfold joinChars lead
  split
  next => rfl
  next =>
    split
    next => rw [List.head?_cons, if_pos rfl]
    next hno =>
      rw [if_neg, List.append_assoc, List.singleton_append]
      intro hslash
      exact hno _ (List.cons_head?_tail hslash).symm

theorem toList_join (pattern base : String) :
    (join pattern base).toList = lead pattern.toList base.toList ++ pattern.toList := by
  rw [join, String.toList_ofList, joinChars_eq]

/-- The same is put before patterns that both name a scheme or both do not, and of which both or
none start with a slash. -/
theorem lead_congr (hscheme : namesScheme other = namesScheme pattern)
    (hslash : other.head? = some '/' ↔ pattern.head? = some '/') :
    lead other base = lead pattern base := by
  unfold lead
  simp only [hscheme, hslash]

/-- A slash stands where a base meets a pattern. -/
theorem lead_ends (pattern base : List Char) : lead pattern base = [] ∨
    (lead pattern base).getLast? = some '/' ∨ pattern.head? = some '/' := by
  unfold lead
  split_ifs with _ hslash
  · exact .inl rfl
  · exact .inr (.inr hslash)
  · exact .inr (.inl List.getLast?_concat)

end

end Pattern

namespace Template

section

variable {before items items' : Template} {rest other : List Char}

/-- Behind a slash anything may follow. -/
theorem stands_of_slash (h : items.stands rest) (hslash : (spelling items).getLast? = some '/')
    (other : List Char) : items.stands other := by
  induction items with
  | nil => rfl
  | cons item items ih =>
      obtain ⟨hitem, hitems⟩ := stands_cons.mp h
      rw [spelling_cons, List.getLast?_append] at hslash
      cases items with
      | nil =>
          obtain ⟨start, hstart⟩ := List.getLast?_eq_some_iff.mp hslash
          obtain ⟨-, escaped, rfl⟩ := Remedy.item_of_slash hitem hstart List.not_mem_nil
          exact stands_cons.mpr ⟨Item.stands_of_firm (by cases escaped <;> rfl) hitem _, rfl⟩
      | cons next items =>
          have hsome : spelling (next :: items) ≠ [] :=
            spelling_eq_nil.not.mpr (List.cons_ne_nil _ _)
          rw [List.getLast?_eq_some_getLast hsome, Option.some_or] at hslash
          have hhead : (spelling (next :: items) ++ other).head? =
              (spelling (next :: items) ++ rest).head? := by
            rw [List.head?_append_of_ne_nil _ hsome, List.head?_append_of_ne_nil _ hsome]
          refine stands_cons.mpr ⟨?_, ih hitems ?_⟩
          · rwa [Item.stands_congr hhead]
          · rw [List.getLast?_eq_some_getLast hsome]
            exact hslash

theorem closed_append (h : ∀ blocks, closed blocks items' = closed blocks items) (blocks : Nat) :
    closed blocks (before ++ items') = closed blocks (before ++ items) := by
  induction before generalizing blocks with
  | nil => exact h blocks
  | cons item before ih =>
      rw [List.cons_append, List.cons_append, closed_cons, closed_cons]
      simp only [ih]

end

end Template

namespace Remedy

open Pattern (namesScheme)

/-! ## Templates that repairs keep -/

/-- A template in which some items may be reworked: they stand behind others, with a slash where
the two meet, all bodies can be read apart, no two groups have one name, and none but parameters of
the items has one of the names that may be made up. Where `dots` holds, the dots in their bodies may
be encoded as well. -/
structure Repairable (dots : Prop) (names : List (List Char)) (before items : Template) :
    Prop where
  stands : (before ++ items).stands []
  closed : Template.closed 0 (before ++ items)
  joined : before = [] ∨ (Template.spelling before).getLast? = some '/' ∨
    (Template.spelling items).head? = some '/'
  contained : ∀ item ∈ before ++ items, item.contained
  nodup : (before ++ items).captures.Nodup
  unnamed : ∀ name ∈ names, String.ofList name ∉ before.captures ∧
    ∀ item ∈ items, String.ofList name ∉ item.bodyCaptures
  encodable : dots → ∀ item ∈ items, encodable item

theorem captures_append (items other : Template) :
    Template.captures (items ++ other) = items.captures ++ other.captures := List.flatMap_append

section

variable {dots : Prop} {names made : List (List Char)} {before items items' : Template}
  {name text : List Char}

namespace Repairable

theorem stands_items (h : Repairable dots names before items) : items.stands [] :=
  (Template.stands_append.mp h.stands).2

theorem contained_items (h : Repairable dots names before items) :
    ∀ item ∈ items, item.contained := (List.forall_mem_append.mp h.contained).2

/-- What stands before the items stands before others as well, if a slash comes first in both or
in none. -/
theorem stands_before (h : Repairable dots names before items)
    (hslash : (Template.spelling items').head? = some '/' ↔
      (Template.spelling items).head? = some '/') : before.stands (Template.spelling items') := by
  have hbefore := (Template.stands_append.mp h.stands).1
  rw [List.append_nil] at hbefore
  rcases h.joined with rfl | hlast | hfirst
  · rfl
  · exact Template.stands_of_slash hbefore hlast _
  · rwa [Template.stands_congr ((hslash.mpr hfirst).trans hfirst.symm)]

/-- What the items are named is taken, or a name that is not made up. -/
theorem not_mem_captures (h : Repairable dots names before items) (hname : name ∈ names)
    (hfree : name ∉ takenNames (Template.spelling items)) :
    String.ofList name ∉ before.captures ++ items.captures := by
  obtain ⟨hbefore, hbodies⟩ := h.unnamed name hname
  rw [List.mem_append, not_or]
  refine ⟨hbefore, fun hmem => ?_⟩
  obtain ⟨item, hitem, hnamed⟩ := List.mem_flatMap.mp hmem
  cases item with
  | param word body modifier =>
      rcases List.mem_cons.mp hnamed with heq | hbody
      · have htaken := taken_of_mem h.stands_items hitem []
        rw [List.nil_append, List.append_nil, ← String.ofList_injective heq] at htaken
        exact hfree htaken
      · exact hbodies _ hitem hbody
  | char | group | wildcard | blockOpen | blockClose => exact hbodies _ hitem hnamed

theorem reworked (h : Repairable dots names before items)
    (hreworked : Reworked true made items items') (hnodup : made.Nodup)
    (hmade : ∀ name ∈ made, name ∈ names ∧ name ∉ takenNames (Template.spelling items)) :
    Repairable dots names before items' where
  stands := by
    rw [Template.stands_append, List.append_nil]
    exact ⟨h.stands_before hreworked.head_slash, hreworked.stands h.stands_items⟩
  closed := by
    rw [Template.closed_append hreworked.closed]
    exact h.closed
  joined := by
    rw [hreworked.head_slash]
    exact h.joined
  contained := List.forall_mem_append.mpr ⟨(List.forall_mem_append.mp h.contained).1,
    hreworked.contained h.contained_items⟩
  nodup := by
    have hwords := hnodup.map (f := String.ofList) fun _ _ => String.ofList_injective
    rw [captures_append]
    refine hreworked.nodup_captures h.contained_items hwords ?_ (captures_append _ _ ▸ h.nodup)
    intro name hname
    obtain ⟨word, hword, rfl⟩ := List.mem_map.mp hname
    exact h.not_mem_captures (hmade word hword).1 (hmade word hword).2
  unnamed name hname := by
    refine ⟨(h.unnamed name hname).1, fun item' hitem' hnamed => ?_⟩
    obtain ⟨item, hitem, hold⟩ := hreworked.bodyCaptures h.contained_items hitem' hnamed
    exact (h.unnamed name hname).2 item hitem hold
  encodable hdots :=
    hreworked.encodable h.stands_items h.contained_items (h.encodable hdots)

/-- The dots of the bodies are encoded once. -/
theorem encoded (h : Repairable dots names before items) (hdots : dots) :
    Repairable False names before (items.map encodedItem) where
  stands := by
    have hhead := head?_spelling_map_encodedItem items
    rw [Template.stands_append, List.append_nil]
    exact ⟨h.stands_before (by rw [hhead]), stands_map_encodedItem h.stands_items⟩
  closed := by
    rw [Template.closed_append (closed_map_encodedItem items)]
    exact h.closed
  joined := by
    rw [head?_spelling_map_encodedItem]
    exact h.joined
  contained := by
    refine List.forall_mem_append.mpr ⟨(List.forall_mem_append.mp h.contained).1, ?_⟩
    rw [List.forall_mem_map]
    exact fun item hitem => (encodable_iff.mp (h.encodable hdots item hitem)).1
  nodup := by
    rw [captures_append, captures_map_encodedItem (h.encodable hdots), ← captures_append]
    exact h.nodup
  unnamed name hname := by
    refine ⟨(h.unnamed name hname).1, ?_⟩
    rw [List.forall_mem_map]
    intro item hitem
    rw [(encodable_iff.mp (h.encodable hdots item hitem)).2]
    exact (h.unnamed name hname).2 item hitem
  encodable := False.elim

theorem settled (h : Repairable dots names before items) : Repairable False names before items :=
  { h with encodable := False.elim }

end Repairable

/-! ## A pass over a text -/

/-- The names that a pass over a text makes up for its double wildcards. -/
def madeUp (text : List Char) : List (List Char) :=
  freshNames (takenNames (bounded text).pattern) (segmentsPerRun * runCount text)

/-- A pass keeps what may be reworked, where its bodies may be encoded if a segment of the text is
made of dots. -/
theorem Repairable.pass
    (h : Repairable (hasTraversal none (Template.spelling items))
      (madeUp (Template.spelling items)) before items) : ∃ items',
    pass (Template.spelling items) = Template.spelling items' ∧
      Repairable False (madeUp (Template.spelling items)) before items' ∧
        ((Template.spelling items').head? = some '/' ↔
          (Template.spelling items).head? = some '/') := by
  obtain ⟨items₁, items₂, hfirst, hsecond, htext⟩ := reworked_bounded h.stands_items
  have hbounded := (h.reworked hfirst List.nodup_nil nofun).reworked hsecond List.nodup_nil nofun
  obtain ⟨items₃, hspelling, hthird⟩ := reworked_expandRuns hbounded.stands_items
  have hslash := hthird.head_slash.trans (hsecond.head_slash.trans hfirst.head_slash)
  have hexpanded := hbounded.reworked hthird (nodup_freshNames _ _) fun name hname => by
    refine ⟨?_, not_mem_taken_of_mem_freshNames hname⟩
    rwa [madeUp, ← runCount_bounded, htext]
  rw [pass_eq, htext, hspelling]
  split
  next hrule =>
    have hencoded := hexpanded.encoded (hasRule_traversal_iff.mp hrule)
    obtain ⟨items₄, hspelling', hfourth⟩ := reworked_encodeTraversal hexpanded.stands_items
    refine ⟨items₄, hspelling', hencoded.reworked hfourth List.nodup_nil nofun, ?_⟩
    rw [hfourth.head_slash, head?_spelling_map_encodedItem]
    exact hslash
  next => exact ⟨items₃, rfl, hexpanded.settled, hslash⟩

/-! ## Schemes -/

/-- Whether a text names a scheme only in what is dropped when the parameter at its end is
bounded. -/
def LosesScheme (text : List Char) : Prop :=
  namesScheme text ∧ ∃ head name, splitRepeatedParam? (piped text).pattern = some (head, name) ∧
    (bounded text).pattern = head ++ ':' :: name ++ boundedUnion ∧ ¬ namesScheme head

theorem namesScheme_append_left (h : namesScheme text) (rest : List Char) :
    namesScheme (text ++ rest) := by
  induction text with
  | nil => cases h
  | cons c text ih =>
      rw [namesScheme_cons] at h
      rw [List.cons_append, namesScheme_cons]
      refine h.imp ?_ ih
      rintro ⟨rfl, behind, rfl⟩
      exact ⟨rfl, behind ++ rest, rfl⟩

theorem namesScheme_congr {other : List Char} (h : Edited text other) (hback : Edited other text) :
    namesScheme other ↔ namesScheme text := ⟨h.namesScheme, hback.namesScheme⟩

theorem namesScheme_piped (text : List Char) :
    namesScheme (piped text).pattern ↔ namesScheme text := by
  rcases piped_cases text with hold | ⟨hnew, -⟩
  · rw [hold]
  · rw [hnew]
    exact namesScheme_congr (edited_escapePipes 0 text) (edited_of_escapePipes 0 text)

theorem namesScheme_bounded (h : ¬ LosesScheme text) :
    namesScheme (bounded text).pattern ↔ namesScheme text := by
  rw [← namesScheme_piped text]
  rcases (piped text).boundTrailingWildcard_cases (assessed text) with
    hold | ⟨head, name, hsplit, hnew⟩ | ⟨head, hstar, hnew⟩
  · rw [bounded, hold]
  · refine ⟨fun hscheme => ?_, fun hscheme => ?_⟩
    · rw [bounded, hnew] at hscheme
      exact (edited_boundParam hsplit).namesScheme hscheme
    · by_contra hlost
      refine h ⟨(namesScheme_piped text).mp hscheme, head, name, hsplit, hnew, fun hhead => ?_⟩
      rw [bounded, hnew, List.append_assoc] at hlost
      exact hlost (namesScheme_append_left hhead _)
  · rw [bounded, hnew]
    exact namesScheme_congr (edited_boundStar hstar) (edited_of_boundStar hstar)

theorem namesScheme_pass (h : ¬ LosesScheme text) : namesScheme (pass text) = namesScheme text := by
  have hexpanded : namesScheme (expandRuns (bounded text).pattern) ↔ namesScheme text :=
    (namesScheme_congr (edited_expandRuns _) (edited_of_expandRuns _)).trans (namesScheme_bounded h)
  rw [Bool.eq_iff_iff, pass_eq]
  split
  · exact (namesScheme_congr (edited_encodeTraversal _) (edited_of_encodeTraversal _)).trans
      hexpanded
  · exact hexpanded

end

/-! ## Main result -/

/-- A pattern that compiles on a base still does when it is repaired, within the limits of regular
expressions, if the pattern begins with an item of the joined template and the bodies of all groups
can be read apart (where a segment is made of dots, also with their dots encoded), no name that is
made up is given by the base or in a body, and the scheme that keeps the base off is not lost. -/
theorem fixed_compiles {pattern base : String} {before items : Template}
    (hread : Template.read (Pattern.join pattern base).toList = .ok (before ++ items))
    (hpattern : pattern.toList = Template.spelling items)
    (hcontained : ∀ item ∈ before ++ items, item.contained)
    (hdots : hasTraversal none pattern.toList → ∀ item ∈ items, encodable item)
    (hnames : ∀ name ∈ madeUp pattern.toList, String.ofList name ∉ before.captures ∧
      ∀ item ∈ items, String.ofList name ∉ item.bodyCaptures)
    (hscheme : base = "" ∨ ¬ LosesScheme pattern.toList)
    (hlimits : ∀ fixed, Template.read (Pattern.join (remediate pattern).fixed base).toList =
      .ok fixed → Regex.Reader.withinLimits fixed.regexText)
    (hcompile : ∃ matcher, Matcher.compile pattern base = .ok matcher) :
    ∃ matcher, Matcher.compile (remediate pattern).fixed base = .ok matcher := by
  obtain ⟨htext, hstands, hclosed⟩ := Template.read_eq_ok_iff.mp hread
  have hnodup := ((Matcher.compile_ok_iff hread hcontained).mp hcompile).1
  have hbefore : Pattern.lead pattern.toList base.toList = Template.spelling before := by
    rw [Pattern.toList_join, hpattern, Template.spelling_append] at htext
    rw [hpattern]
    exact List.append_cancel_right htext
  have hjoined : before = [] ∨ (Template.spelling before).getLast? = some '/' ∨
      (Template.spelling items).head? = some '/' := by
    rw [← Template.spelling_eq_nil, ← hbefore, ← hpattern]
    exact Pattern.lead_ends _ _
  rw [hpattern] at hdots hnames
  obtain ⟨items', hpass, hrepaired, hslash⟩ := Repairable.pass
    ⟨hstands, hclosed, hjoined, hcontained, hnodup, hnames, hdots⟩
  rw [← hpattern, ← toList_fixed] at hpass
  have hlead : Pattern.lead (remediate pattern).fixed.toList base.toList =
      Template.spelling before := by
    rw [← hbefore]
    rcases hscheme with rfl | hkept
    · rw [Pattern.lead_empty, Pattern.lead_empty]
    · refine Pattern.lead_congr ?_ (by rwa [hpass, hpattern])
      rw [toList_fixed, namesScheme_pass hkept]
  have hread' : Template.read (Pattern.join (remediate pattern).fixed base).toList =
      .ok (before ++ items') := by
    refine Template.read_eq_ok_iff.mpr ⟨?_, hrepaired.stands, hrepaired.closed⟩
    rw [Pattern.toList_join, hlead, hpass, Template.spelling_append]
  exact (Matcher.compile_ok_iff hread' hrepaired.contained).mpr
    ⟨hrepaired.nodup, hlimits _ hread'⟩

/-- Where no pipe stands in a group, no wildcard ends the text and no segment is made of dots, only
double wildcards are repaired. -/
theorem pass_of_plain {text : List Char} (hpipes : (escapePipes 0 text).2 = 0)
    (hparam : splitRepeatedParam? text = none) (hstar : withoutFinalStar? text = none)
    (hdots : ¬ hasTraversal none text) :
    (bounded text).pattern = text ∧ pass text = expandRuns text := by
  have hpiped : (piped text).pattern = text := by
    rcases (Work.start (assessed text)).escapePipes_cases (assessed text) with hold | ⟨hsome, -⟩
    · rw [piped, hold, start_pattern]
    · rw [start_pattern] at hsome
      exact absurd hpipes hsome
  have hbounded : (bounded text).pattern = text := by
    rcases (piped text).boundTrailingWildcard_cases (assessed text) with
      hold | ⟨head, name, hsome, -⟩ | ⟨head, hsome, -⟩
    · rw [bounded, hold, hpiped]
    · rw [hpiped, hparam] at hsome
      cases hsome
    · rw [hpiped, hstar] at hsome
      cases hsome
  refine ⟨hbounded, ?_⟩
  rw [pass_eq, if_neg (hasRule_traversal_iff.not.mpr hdots), hbounded]

/-- A double wildcard behind a parameter of the name that would be made up first, on a base with a
parameter. -/
theorem fixed_compiles_behind_param :
    ∃ matcher, Matcher.compile (remediate "/:seg1/**").fixed "/:v" = .ok matcher := by
  have hread : Template.read (Pattern.join "/:seg1/**" "/:v").toList =
      .ok ([.char '/' false, .param ['v'] none none] ++ [.char '/' false,
        .param "seg1".toList none none, .char '/' false, .wildcard, .wildcard]) := by
    decide +kernel
  have hcontained : ∀ item ∈ ([.char '/' false, .param ['v'] none none] ++ [.char '/' false,
      .param "seg1".toList none none, .char '/' false, .wildcard, .wildcard] : Template),
      item.contained := by decide
  obtain ⟨hbounded, hpass⟩ : (bounded "/:seg1/**".toList).pattern = "/:seg1/**".toList ∧
      pass "/:seg1/**".toList = expandRuns "/:seg1/**".toList :=
    pass_of_plain (by decide +kernel) (by decide +kernel) (by decide +kernel) (by decide +kernel)
  refine fixed_compiles hread (by decide +kernel) hcontained ?_ ?_ ?_ ?_ ?_
  · exact fun hdots => absurd hdots (by decide +kernel)
  · rw [madeUp, hbounded]
    decide +kernel
  · exact .inr fun hlost => absurd hlost.1 (by decide)
  · intro fixed hfixed
    have hlimits : (Template.read (Pattern.join (String.ofList (expandRuns "/:seg1/**".toList))
        "/:v").toList).toOption.all (Regex.Reader.withinLimits ·.regexText) := by
      decide +kernel
    rwa [← hpass, ← toList_fixed, String.ofList_toList, hfixed] at hlimits
  · exact (Matcher.compile_ok_iff hread hcontained).mpr (by decide +kernel)

/-- A name that is given inside a body is not looked at when names are made up. -/
example : (Matcher.compile "/(?P<seg1>a)/**" "").toOption.isSome ∧
    (Matcher.compile (String.ofList (expandRuns "/(?P<seg1>a)/**".toList)) "").toOption.isNone := by
  decide +kernel

end Remedy

end RouteAudit
