import RouteAudit.Proofs.Remedy.EncodedItems
import RouteAudit.Proofs.Remedy.Settling

/-! # Parameters of what is repaired

A pass leaves a text that is read as a template where the pattern was one. Its parameters are those
of the pattern, in order, and among them the ones that were made up for double wildcards
(`fixed_params`). Escaping pipes, bounding a wildcard and encoding dots make up no names.
-/

namespace RouteAudit.Remedy

open Pattern (isNameChar)
open Template (paramNames)

/-! ## Names that are taken -/

section

variable {items : Template} {name rest : List Char}

theorem mem_takenNames (hname : name ≠ []) (hchars : ∀ c ∈ name, isNameChar c)
    (hrest : ∀ c ∈ rest.head?, ¬ isNameChar c) (start : List Char) :
    name ∈ takenNames (start ++ ':' :: (name ++ rest)) := by
  induction start with
  | nil =>
      have hword : (name ++ rest).takeWhile isNameChar = name := by
        have hspan := Text.span_eq_iff.mpr ⟨Eq.refl (name ++ rest), hchars, hrest⟩
        rw [List.span_eq_takeWhile_dropWhile] at hspan
        exact congrArg Prod.fst hspan
      rw [List.nil_append, takenNames, if_pos rfl, hword, if_neg (by simpa using hname)]
      exact List.mem_cons_self
  | cons c start ih =>
      rw [List.cons_append, takenNames]
      dsimp only
      split_ifs
      · exact ih
      · exact List.mem_cons_of_mem _ ih
      · exact ih

/-- No name goes on behind a parameter. -/
theorem not_nameChar_behind {body : Option (List Char)} {modifier : Option Modifier}
    (h : (Item.param name body modifier).stands rest) :
    ∀ c ∈ (Item.bodySpelling body ++ (Modifier.spelling modifier ++ rest)).head?,
      ¬ isNameChar c := by
  cases body with
  | some body =>
      rintro c ⟨⟩
      decide
  | none =>
      cases modifier with
      | none => exact fun c hc => ((behind_param h).2 rfl rfl c hc).1
      | some modifier =>
          rintro c ⟨⟩
          cases modifier <;> decide

/-- The parameters of a template are among the names that are taken. -/
theorem taken_of_mem {body : Option (List Char)} {modifier : Option Modifier}
    (hstands : items.stands rest) (hmem : .param name body modifier ∈ items)
    (start : List Char) : name ∈ takenNames (start ++ (Template.spelling items ++ rest)) := by
  induction items generalizing start with
  | nil => cases hmem
  | cons item items ih =>
      obtain ⟨hitem, hitems⟩ := Template.stands_cons.mp hstands
      rw [Template.spelling_cons]
      rcases List.mem_cons.mp hmem with rfl | hmem
      · obtain ⟨hfirst, hchars⟩ := Template.name_of_stands hitem
        have hname : name ≠ [] := by
          rintro rfl
          cases hfirst
        have htaken := mem_takenNames hname hchars (not_nameChar_behind hitem) start
        simpa [Item.spelling] using htaken
      · have htaken := ih hitems hmem (start ++ item.spelling)
        simpa using htaken

end

/-! ## Rows woven into each other -/

/-- A row that two others are woven into, each in its order. -/
inductive Woven {α : Type} : List α → List α → List α → Prop where
  | nil : Woven [] [] []
  | left {new old all : List α} (a : α) : Woven new old all → Woven (a :: new) old (a :: all)
  | right {new old all : List α} (a : α) : Woven new old all → Woven new (a :: old) (a :: all)

namespace Woven

section

variable {α : Type} {new old all : List α}

theorem symm (h : Woven new old all) : Woven old new all := by
  induction h with
  | nil => exact .nil
  | left a _ ih => exact .right a ih
  | right a _ ih => exact .left a ih

theorem append_left (before : List α) (h : Woven new old all) :
    Woven (before ++ new) old (before ++ all) := by
  induction before with
  | nil => exact h
  | cons a before ih => exact .left a ih

theorem append_right (before : List α) (h : Woven new old all) :
    Woven new (before ++ old) (before ++ all) := (h.symm.append_left before).symm

theorem eq_of_nil (h : Woven [] old all) : all = old := by
  generalize hnew : ([] : List α) = new at h
  induction h with
  | nil => rfl
  | left => cases hnew
  | right a _ ih => rw [ih hnew]

theorem perm (h : Woven new old all) : all.Perm (new ++ old) := by
  induction h with
  | nil => exact .refl _
  | left a _ ih => exact ih.cons a
  | right a _ ih => exact (ih.cons a).trans List.perm_middle.symm

theorem sublist_left (h : Woven new old all) : new.Sublist all := by
  induction h with
  | nil => exact .refl _
  | left a _ ih => exact ih.cons_cons a
  | right a _ ih => exact ih.cons a

/-- What tells the two apart gets each of them back. -/
theorem filter_right {p : α → Bool} (h : Woven new old all) (hnew : ∀ a ∈ new, p a = false)
    (hold : ∀ a ∈ old, p a) : all.filter p = old := by
  induction h with
  | nil => rfl
  | left a _ ih =>
      obtain ⟨ha, hnew⟩ := List.forall_mem_cons.mp hnew
      rw [List.filter_cons_of_neg (by simp [ha]), ih hnew hold]
  | right a _ ih =>
      obtain ⟨ha, hold⟩ := List.forall_mem_cons.mp hold
      rw [List.filter_cons_of_pos ha, ih hnew hold]

end

end Woven

/-! ## Names of reworked items -/

section

variable {free : Bool} {names : List (List Char)} {item item' : Item} {items items' : Template}

theorem paramNames_append (items other : Template) :
    paramNames (items ++ other) = paramNames items ++ paramNames other := List.filterMap_append

theorem paramNames_cons (item : Item) (items : Template) :
    paramNames (item :: items) = paramNames [item] ++ paramNames items :=
  paramNames_append [item] items

theorem SameItem.paramNames (h : SameItem item item') :
    Template.paramNames [item'] = Template.paramNames [item] := by cases h <;> rfl

theorem paramNames_optionalItems (names : List (List Char)) :
    paramNames (optionalItems names) = names := by
  fun_induction optionalItems names with
  | case1 | case2 => rfl
  | case3 name names _ ih => exact congrArg (name :: ·) ih

theorem paramNames_stars (stars : Nat) (items : Template) :
    paramNames (List.replicate stars .wildcard ++ items) = paramNames items := by
  induction stars with
  | zero => rfl
  | succ stars ih => exact ih

theorem paramNames_encodedItem (item : Item) :
    paramNames [encodedItem item] = paramNames [item] := by
  unfold encodedItem
  split <;> rfl

theorem paramNames_map_encodedItem (items : Template) :
    paramNames (items.map encodedItem) = paramNames items := by
  induction items with
  | nil => rfl
  | cons item items ih =>
      rw [List.map_cons, paramNames_cons, paramNames_encodedItem, ih, ← paramNames_cons]

/-- The names made up are woven into the old ones. -/
theorem Reworked.woven (h : Reworked free names items items') :
    Woven names (paramNames items) (paramNames items') := by
  induction h with
  | nil => exact .nil
  | @keep free names item item' items items' hitem _ ih =>
      rw [paramNames_cons item, paramNames_cons item', hitem.paramNames]
      exact ih.append_right _
  | bound free name => exact .right name .nil
  | @ending item _ _ hitem =>
      rw [hitem]
      exact .nil
  | @run names more items items' stars _ _ _ ih =>
      rw [paramNames_stars, paramNames_append, paramNames_optionalItems]
      exact ih.append_left names
  | dots _ _ ih => exact ih

/-! ## Items behind the first two steps -/

theorem Reworked.refl (free : Bool) (items : Template) : Reworked free [] items items := by
  induction items generalizing free with
  | nil => exact .nil free
  | cons item items ih => exact .keep (.refl item) (ih item.firm)

/-- Behind the first two steps the items have been reworked twice, for no names. -/
theorem reworked_bounded (hstands : items.stands []) : ∃ items₁ items₂,
    Reworked true [] items items₁ ∧ Reworked true [] items₁ items₂ ∧
      (bounded (Template.spelling items)).pattern = Template.spelling items₂ := by
  have hpiped : ∃ items₁, Reworked true [] items items₁ ∧
      (piped (Template.spelling items)).pattern = Template.spelling items₁ := by
    rcases piped_cases (Template.spelling items) with hold | ⟨hnew, -⟩
    · exact ⟨items, .refl true items, hold⟩
    · obtain ⟨items₁, hspelling, hreworked⟩ := reworked_escapePipes hstands true
      exact ⟨items₁, hreworked, hnew.trans hspelling⟩
  obtain ⟨items₁, hfirst, htext⟩ := hpiped
  have hstands₁ := hfirst.stands hstands
  refine ⟨items₁, ?_⟩
  rcases (piped (Template.spelling items)).boundTrailingWildcard_cases
      (assessed (Template.spelling items)) with
    hold | ⟨head, name, hsplit, hnew⟩ | ⟨head, hstar, hnew⟩
  · exact ⟨items₁, hfirst, .refl true items₁, hold.trans htext⟩
  · rw [htext] at hsplit
    obtain ⟨items₂, hspelling, hreworked⟩ := reworked_boundParam hstands₁ hsplit true
    exact ⟨items₂, hfirst, hreworked, hnew.trans hspelling⟩
  · rw [htext] at hstar
    obtain ⟨items₂, hspelling, hreworked⟩ := reworked_boundStar hstands₁ hstar true
    exact ⟨items₂, hfirst, hreworked, hnew.trans hspelling⟩

end

/-! ## Texts with their parameters -/

/-- A text is read as a template that has these parameters. -/
def HasParams (names : List (List Char)) (text : List Char) : Prop :=
  ∃ items, Template.read text = .ok items ∧ paramNames items = names

section

variable {names : List (List Char)} {text other head name : List Char}
  {items items' : Template}

theorem read_reworked (hstands : items.stands []) (hclosed : Template.closed 0 items)
    {free : Bool} {made : List (List Char)} (h : Reworked free made items items') :
    Template.read (Template.spelling items') = .ok items' := by
  refine Template.read_eq_ok_iff.mpr ⟨rfl, h.stands hstands, ?_⟩
  rw [h.closed]
  exact hclosed

theorem HasParams.encodeTraversal (h : HasParams names text) :
    HasParams names (encodeTraversal text) := by
  obtain ⟨items, hread, rfl⟩ := h
  obtain ⟨rfl, hstands, hclosed⟩ := Template.read_eq_ok_iff.mp hread
  obtain ⟨items', hspelling, hreworked⟩ := reworked_encodeTraversal hstands
  have hclosed' : Template.closed 0 (items.map encodedItem) := by
    rw [closed_map_encodedItem]
    exact hclosed
  rw [hspelling, ← paramNames_map_encodedItem]
  exact ⟨items', read_reworked (stands_map_encodedItem hstands) hclosed' hreworked,
    hreworked.woven.eq_of_nil⟩

/-- Names are made up for the runs only, and none of them is a parameter already. -/
theorem HasParams.expandRuns (h : HasParams names text) : ∃ all made,
    HasParams all (expandRuns text) ∧ Woven made names all ∧
      made.Nodup ∧ made.length = segmentsPerRun * runCount text ∧
        ∀ name ∈ made, (∃ i, name = numberedName i) ∧ name ∉ names := by
  obtain ⟨items, hread, rfl⟩ := h
  obtain ⟨rfl, hstands, hclosed⟩ := Template.read_eq_ok_iff.mp hread
  obtain ⟨items', hspelling, hreworked⟩ := reworked_expandRuns hstands
  have hread' := read_reworked hstands hclosed hreworked
  refine ⟨paramNames items', _, ⟨items', hspelling ▸ hread', rfl⟩, hreworked.woven,
    nodup_freshNames _ _, length_freshNames _ _,
    fun name hname => ⟨numbered_of_mem_freshNames hname, fun hold => ?_⟩⟩
  obtain ⟨item, hitem, hparam⟩ := List.mem_filterMap.mp hold
  cases item with
  | param old body modifier =>
      obtain rfl := Option.some.inj hparam
      have htaken := taken_of_mem hstands hitem []
      rw [List.nil_append, List.append_nil] at htaken
      exact not_mem_taken_of_mem_freshNames hname htaken
  | char | group | wildcard | blockOpen | blockClose => cases hparam

theorem HasParams.bounded (h : HasParams names text) : HasParams names (bounded text).pattern := by
  obtain ⟨items, hread, rfl⟩ := h
  obtain ⟨rfl, hstands, hclosed⟩ := Template.read_eq_ok_iff.mp hread
  obtain ⟨items₁, items₂, hfirst, hsecond, htext⟩ := reworked_bounded hstands
  rw [htext]
  refine ⟨items₂, read_reworked (hfirst.stands hstands) ?_ hsecond, ?_⟩
  · rw [hfirst.closed]
    exact hclosed
  · rw [hsecond.woven.eq_of_nil, hfirst.woven.eq_of_nil]

/-- A pass weaves the names that it makes up into the parameters. -/
theorem HasParams.pass (h : HasParams names text) : ∃ all made,
    HasParams all (pass text) ∧ Woven made names all ∧
      made.Nodup ∧ made.length = segmentsPerRun * runCount text ∧
        ∀ name ∈ made, (∃ i, name = numberedName i) ∧ name ∉ names := by
  obtain ⟨all, made, hall, hwoven, hmade⟩ := h.bounded.expandRuns
  rw [runCount_bounded] at hmade
  refine ⟨all, made, ?_, hwoven, hmade⟩
  rw [pass_eq]
  split
  · exact hall.encodeTraversal
  · exact hall

end

/-! ## Main result -/

/-- A pattern that is read as a template is repaired to one. Where the parameters of the pattern
are distinct, those of the repaired one are: they are the old ones in order, and three made up for
each double wildcard, none of which the pattern has. -/
theorem fixed_params {pattern : String} {items : Template}
    (hread : Template.read pattern.toList = .ok items) (hnodup : (paramNames items).Nodup) :
    ∃ items' : Template, ∃ made : List (List Char),
      Template.read (remediate pattern).fixed.toList = .ok items' ∧
      (paramNames items').Nodup ∧ made.Sublist (paramNames items') ∧
      made.length = 3 * runCount pattern.toList ∧
      (∀ name ∈ made, (∃ i, name = numberedName i) ∧ name ∉ paramNames items) ∧
      (paramNames items').filter (· ∉ made) = paramNames items := by
  have hpattern : HasParams (paramNames items) pattern.toList := ⟨items, hread, rfl⟩
  obtain ⟨_, made, ⟨items', hread', rfl⟩, hwoven, hfresh, hlength, hmade⟩ := hpattern.pass
  rw [← toList_fixed] at hread'
  have happart : ∀ name ∈ paramNames items, name ∉ made := fun name hold hnew =>
    (hmade name hnew).2 hold
  refine ⟨items', made, hread', ?_, hwoven.sublist_left, hlength, hmade, ?_⟩
  · rw [hwoven.perm.nodup_iff, List.nodup_append']
    exact ⟨hfresh, hnodup, fun name hnew hold => happart name hold hnew⟩
  · refine hwoven.filter_right (fun name hnew => ?_) fun name hold => ?_
    · rw [decide_eq_false_iff_not, not_not]
      exact hnew
    · rw [decide_eq_true_iff]
      exact happart name hold

/-- A double wildcard between a parameter of the name that would be made up first and another one
that has a group. -/
theorem fixed_params_between_params :
    ∃ items' : Template, ∃ made : List (List Char),
      Template.read (remediate "/:seg1/**/:id(a|b)").fixed.toList = .ok items' ∧
      (paramNames items').Nodup ∧ made.Sublist (paramNames items') ∧
      made.length = 3 * runCount "/:seg1/**/:id(a|b)".toList ∧
      (∀ name ∈ made, (∃ i, name = numberedName i) ∧ name ∉ ["seg1".toList, "id".toList]) ∧
      (paramNames items').filter (· ∉ made) = ["seg1".toList, "id".toList] := by
  have hread : Template.read "/:seg1/**/:id(a|b)".toList = .ok [.char '/' false,
      .param "seg1".toList none none, .char '/' false, .wildcard, .wildcard, .char '/' false,
      .param "id".toList (some "a|b".toList) none] := by
    decide +kernel
  exact fixed_params hread (by decide)

end RouteAudit.Remedy
