import RouteAudit.Proofs.Pattern.Acceptance
import RouteAudit.Proofs.Remedy.Names

/-! # Templates reworked

What the repairs do to a text, they do to the items that it is read as: some bodies get
backslashes, some items are put in the place of others. What comes out means itself again and
gives no names but the old ones and those that were made up for it.
-/

namespace RouteAudit

namespace Item

/-- Whether anything may follow an item. -/
def firm : Item → Bool
  | char c escaped => escaped || c != ':'
  | param _ _ modifier | group _ modifier | blockClose modifier => modifier.isSome
  | wildcard | blockOpen => true

theorem stands_of_firm {item : Item} {rest : List Char} (hfirm : item.firm)
    (h : item.stands rest) (other : List Char) : item.stands other := by
  cases item with
  | char c escaped =>
      cases escaped with
      | true => rfl
      | false =>
          have hc : c ≠ ':' := by simpa [firm] using hfirm
          exact Template.standsBefore_char.mpr
            ⟨(Template.standsBefore_char.mp h).1, fun heq => absurd heq hc⟩
  | param name body modifier =>
      obtain ⟨modifier, rfl⟩ := Option.isSome_iff_exists.mp hfirm
      cases body with
      | none =>
          obtain ⟨hfirst, hname, -⟩ := Template.standsBefore_param.mp h
          exact Template.standsBefore_param.mpr ⟨hfirst, hname, nofun, rfl⟩
      | some body =>
          obtain ⟨hfirst, hname, hbody, -⟩ := stands_param.mp h
          exact stands_param.mpr ⟨hfirst, hname, hbody, rfl⟩
  | group body modifier =>
      obtain ⟨modifier, rfl⟩ := Option.isSome_iff_exists.mp hfirm
      exact stands_group.mpr ⟨(stands_group.mp h).1, rfl⟩
  | wildcard | blockOpen => rfl
  | blockClose modifier =>
      obtain ⟨modifier, rfl⟩ := Option.isSome_iff_exists.mp hfirm
      rfl

end Item

namespace Remedy

open Pattern (isNameStart isNameChar)
open Regex.Reader (BodiesAlike)

/-! ## Bodies with encoded dots -/

/-- What stands between the parentheses of a group where dots have been encoded. -/
def encodedBody (body : List Char) : List Char :=
  (encodeFrom false (some '(') (body ++ [')'])).dropLast

/-- An item with the dots of its body encoded. -/
def encodedItem : Item → Item
  | .param name (some body) modifier => .param name (some (encodedBody body)) modifier
  | .group body modifier => .group (encodedBody body) modifier
  | item => item

theorem encodeFrom_cons {before : Option Char} {c : Char} {cs : List Char}
    (h : ¬ (startsSegment before && startsWithDots (c :: cs))) :
    encodeFrom false before (c :: cs) = c :: encodeFrom false (some c) cs := by
  rw [encodeFrom, if_neg Bool.false_ne_true, if_neg h]

theorem startsWithDots_iff {cs : List Char} :
    startsWithDots cs ↔ ∃ rest, cs = '.' :: '.' :: rest ∧ endsName rest.head? := by
  unfold startsWithDots
  split
  next rest => exact ⟨fun h => ⟨rest, rfl, h⟩, by rintro ⟨_, ⟨⟩, h⟩; exact h⟩
  next hno => exact iff_of_false Bool.false_ne_true (by rintro ⟨rest, rfl, -⟩; exact hno rest rfl)

theorem head?_of_startsWithDots {c : Char} {cs : List Char} (h : startsWithDots (c :: cs)) :
    cs.head? = some '.' := by
  obtain ⟨rest, heq, -⟩ := startsWithDots_iff.mp h
  rw [(List.cons.inj heq).2]
  rfl

theorem not_startsWithDots {c : Char} (hc : c ≠ '.') (cs : List Char) :
    ¬ startsWithDots (c :: cs) := by
  rw [startsWithDots_iff]
  rintro ⟨rest, heq, -⟩
  exact hc (List.cons.inj heq).1

/-! ## Bodies with backslashes -/

/-- An item and the same with backslashes before some pipes of its body. -/
inductive SameItem : Item → Item → Prop where
  | refl (item : Item) : SameItem item item
  | param {body other : List Char} (name : List Char) (modifier : Option Modifier) :
      BodiesAlike body other → Item.isBody other →
        SameItem (.param name (some body) modifier) (.param name (some other) modifier)
  | group {body other : List Char} (modifier : Option Modifier) :
      BodiesAlike body other → Item.isBody other →
        SameItem (.group body modifier) (.group other modifier)

namespace SameItem

variable {item item' : Item} {rest : List Char}

theorem after (h : SameItem item item') (blocks : Nat) :
    item'.after blocks = item.after blocks := by cases h <;> rfl

theorem head (h : SameItem item item') (rest other : List Char) :
    (item'.spelling ++ other).head? = (item.spelling ++ rest).head? := by
  cases h with
  | refl => rw [List.head?_append_of_ne_nil _ item.spelling_ne_nil,
      List.head?_append_of_ne_nil _ item.spelling_ne_nil]
  | param | group => rfl

theorem stands (h : SameItem item item') (hstands : item.stands rest) : item'.stands rest := by
  cases h with
  | refl => exact hstands
  | param name modifier _ hbody =>
      obtain ⟨hfirst, hname, -, hmodifier⟩ := Item.stands_param.mp hstands
      exact Item.stands_param.mpr ⟨hfirst, hname, hbody, hmodifier⟩
  | group modifier _ hbody =>
      exact Item.stands_group.mpr ⟨hbody, (Item.stands_group.mp hstands).2⟩

theorem core (h : SameItem item item') : item' = item ∨ ∃ core core',
    item.core = some core ∧ item'.core = some core' ∧ BodiesAlike core core' := by
  have hopened {body other : List Char} (halike : BodiesAlike body other) :
      BodiesAlike ('?' :: ':' :: body) ('?' :: ':' :: other) :=
    .char (by decide) (.char (by decide) halike)
  cases h with
  | refl => exact .inl rfl
  | param name modifier halike => exact .inr ⟨_, _, rfl, rfl, hopened halike⟩
  | group modifier halike =>
      refine .inr ⟨_, _, rfl, rfl, ?_⟩
      split
      next => exact hopened halike
      next => exact halike

/-- The bodies are read apart alike, for the same names. -/
theorem contained (h : SameItem item item') (hcontained : item.contained) :
    item'.contained ∧ item'.bodyNames = item.bodyNames := by
  rcases h.core with rfl | ⟨core, core', hcore, hcore', halike⟩
  · exact ⟨hcontained, rfl⟩
  · rw [Item.contained, hcore, Option.all_some, Option.isSome_iff_exists] at hcontained
    obtain ⟨closed, hclosed⟩ := hcontained
    obtain ⟨closed', hclosed', hnames⟩ := Regex.Reader.group?_alike hclosed halike
    refine ⟨?_, ?_⟩
    · rw [Item.contained, hcore', Option.all_some, hclosed']
      rfl
    · rw [Item.bodyNames, Item.bodyNames, hcore, hcore', Option.bind_some, Option.bind_some,
        hclosed, hclosed', Option.map_some, Option.map_some, hnames]

theorem captures (h : SameItem item item') (hcontained : item.contained) :
    item'.captures = item.captures ∧ item'.bodyCaptures = item.bodyCaptures := by
  have hmodifier : item'.modifier? = item.modifier? := by cases h <;> rfl
  have hbody : item'.bodyCaptures = item.bodyCaptures := by
    rw [Item.bodyCaptures, Item.bodyCaptures, (h.contained hcontained).2, hmodifier]
  refine ⟨?_, hbody⟩
  cases h with
  | refl => rfl
  | param name => exact congrArg (String.ofList name :: ·) hbody
  | group => exact hbody

end SameItem

/-! ## Items in the place of others -/

/-- What stands in the group that bounds a wildcard. -/
def unionBody : List Char := "allowed1|allowed2|allowed3".toList

theorem boundedUnion_eq : boundedUnion = '(' :: unionBody ++ [')'] := by decide

/-- The items of optional segments with the given names. -/
def optionalItems : List (List Char) → Template
  | [] => []
  | [name] => [.param name none (some .optional)]
  | name :: names =>
    .param name none (some .optional) :: .char '/' false :: optionalItems names

/-- What the two dots of a segment are replaced by, behind the first percent sign. -/
def encodedDots : Template := ['2', 'E', '%', '2', 'E'].map (.char · false)

/-- Whether a text is the name of a parameter. -/
def IsName (name : List Char) : Prop := name.head?.any isNameStart ∧ ∀ c ∈ name, isNameChar c

/-- A template and what the repairs make of it, with the names that are made up for it, in order.
Where something else comes first than before, anything may follow what stands before it, which
`free` tells. -/
inductive Reworked : Bool → List (List Char) → Template → Template → Prop where
  | nil (free : Bool) : Reworked free [] [] []
  | keep {free : Bool} {names : List (List Char)} {item item' : Item} {items items' : Template} :
      SameItem item item' → Reworked item.firm names items items' →
        Reworked free names (item :: items) (item' :: items')
  | bound (free : Bool) (name : List Char) (body : Option (List Char))
      (modifier : Option Modifier) :
      Reworked free [] [.param name body modifier] [.param name (some unionBody) none]
  | ending {item : Item} :
      (∀ blocks, item.after blocks = some blocks) → item.spelling.head? ≠ some '/' →
        Template.paramNames [item] = [] → Reworked true [] [item] [.group unionBody none]
  | run {names more : List (List Char)} {items items' : Template} (stars : Nat) :
      names ≠ [] → (∀ name ∈ names, IsName name) → Reworked true more items items' →
        Reworked true (names ++ more) (List.replicate (stars + 1) .wildcard ++ items)
          (optionalItems names ++ items')
  | dots {free escaped : Bool} {names : List (List Char)} {items items' : Template} :
      free || escaped → Reworked true names items items' →
        Reworked free names (.char '.' escaped :: .char '.' false :: items)
          (.char '%' escaped :: encodedDots ++ items')

section

variable {free : Bool} {names : List (List Char)} {items items' : Template}

theorem spelling_optionalItems (names : List (List Char)) :
    Template.spelling (optionalItems names) = optionalSegments names := by
  fun_induction optionalItems names with
  | case1 => rfl
  | case2 name => simp [Template.spelling, Item.spelling, Item.bodySpelling, Modifier.spelling,
      optionalSegments, Modifier.char]
  | case3 name names hnames ih =>
      rw [optionalSegments, Template.spelling_cons, Template.spelling_cons, ih]
      · simp [Item.spelling, Item.bodySpelling, Modifier.spelling, Modifier.char]
      · exact hnames

theorem head_optionalItems (hnames : names ≠ []) (items : Template) :
    (Template.spelling (optionalItems names ++ items)).head? = some ':' := by
  unfold optionalItems
  split
  next => exact absurd rfl hnames
  next => rfl
  next => rfl

theorem stands_optionalItems (hnames : ∀ name ∈ names, IsName name) (rest : List Char) :
    (optionalItems names).stands rest := by
  have hparam {name : List Char} (hname : IsName name) (rest : List Char) :
      (Item.param name none (some .optional)).stands rest :=
    Template.standsBefore_param.mpr ⟨hname.1, hname.2, nofun, rfl⟩
  fun_induction optionalItems names with
  | case1 => rfl
  | case2 name =>
      exact Template.stands_cons.mpr ⟨hparam (hnames name List.mem_cons_self) _, rfl⟩
  | case3 name names _ ih =>
      obtain ⟨hname, hnames⟩ := List.forall_mem_cons.mp hnames
      exact Template.stands_cons.mpr ⟨hparam hname _, Template.stands_cons.mpr ⟨rfl, ih hnames⟩⟩

theorem closed_optionalItems (names : List (List Char)) (blocks : Nat) (items : Template) :
    Template.closed blocks (optionalItems names ++ items) = Template.closed blocks items := by
  fun_induction optionalItems names with
  | case1 => rfl
  | case2 => rfl
  | case3 name names _ ih => exact ih

theorem bodyNames_of_core {item : Item} {core : List Char} {names : List String}
    (hcore : item.core = some core)
    (hnames : (Regex.Reader.group? core).map (·.names) = some names) :
    item.contained ∧ item.bodyNames = names := by
  obtain ⟨closed, hclosed, rfl⟩ := Option.map_eq_some_iff.mp hnames
  refine ⟨?_, ?_⟩
  · rw [Item.contained, hcore, Option.all_some, hclosed]
    rfl
  · rw [Item.bodyNames, hcore, Option.bind_some, hclosed]
    rfl

/-- A new item has no names in its body and nothing in it is encoded. -/
structure Harmless (item : Item) : Prop where
  contained : item.contained
  bodyCaptures : item.bodyCaptures = []
  plain : encodedItem item = item

theorem harmless_char (c : Char) (escaped : Bool) : Harmless (.char c escaped) := ⟨rfl, rfl, rfl⟩

theorem harmless_boundedParam (name : List Char) : Harmless (.param name (some unionBody) none) :=
  have hbody : (Item.param name (some unionBody) none).contained ∧
      (Item.param name (some unionBody) none).bodyNames = [] := bodyNames_of_core rfl rfl
  ⟨hbody.1, hbody.2, rfl⟩

theorem harmless_boundedGroup : Harmless (.group unionBody none) :=
  have hbody : (Item.group unionBody none).contained ∧
      (Item.group unionBody none).bodyNames = [] := bodyNames_of_core rfl rfl
  ⟨hbody.1, hbody.2, rfl⟩

theorem harmless_optional (name : List Char) : Harmless (.param name none (some .optional)) :=
  have hbody : (Item.param name none (some .optional)).contained ∧
      (Item.param name none (some .optional)).bodyNames = [] := bodyNames_of_core rfl rfl
  ⟨hbody.1, hbody.2, rfl⟩

theorem harmless_optionalItems (names : List (List Char)) :
    ∀ item ∈ optionalItems names, Harmless item := by
  fun_induction optionalItems names with
  | case1 => exact nofun
  | case2 name => exact List.forall_mem_singleton.mpr (harmless_optional name)
  | case3 name names _ ih =>
      exact List.forall_mem_cons.mpr ⟨harmless_optional name,
        List.forall_mem_cons.mpr ⟨harmless_char _ _, ih⟩⟩

theorem harmless_encodedDots : ∀ item ∈ encodedDots, Harmless item := by
  intro item hitem
  obtain ⟨c, -, rfl⟩ := List.mem_map.mp hitem
  exact harmless_char c false

theorem captures_optionalItems (names : List (List Char)) (items : Template) :
    Template.captures (optionalItems names ++ items) =
      names.map String.ofList ++ Template.captures items := by
  have hparam (name : List Char) :
      (Item.param name none (some .optional)).captures = [String.ofList name] :=
    congrArg (String.ofList name :: ·) (harmless_optional name).bodyCaptures
  fun_induction optionalItems names with
  | case1 => rfl
  | case2 name => rw [List.singleton_append, Template.captures_cons, hparam, List.map_singleton]
  | case3 name names _ ih =>
      rw [List.cons_append, List.cons_append, Template.captures_cons, Template.captures_cons,
        hparam, ih, List.map_cons]
      rfl

theorem closed_stars (stars blocks : Nat) (items : Template) :
    Template.closed blocks (List.replicate stars .wildcard ++ items) =
      Template.closed blocks items := by
  induction stars with
  | zero => rfl
  | succ stars ih => exact ih

theorem captures_stars (stars : Nat) (items : Template) :
    Template.captures (List.replicate stars .wildcard ++ items) = Template.captures items := by
  induction stars with
  | zero => rfl
  | succ stars ih => exact ih

namespace Reworked

/-- Where nothing else may come first, the first character stays. -/
theorem head_eq (h : Reworked free names items items') (hfree : free = false) :
    (Template.spelling items').head? = (Template.spelling items).head? := by
  cases h with
  | nil => rfl
  | keep hitem _ => exact hitem.head _ _
  | bound => rfl
  | ending | run => cases hfree
  | @dots _ escaped _ items items' hescaped _ =>
      rw [hfree, Bool.false_or] at hescaped
      rw [hescaped]
      rfl

/-- A slash comes first only where it did before. -/
theorem head_slash (h : Reworked free names items items') :
    (Template.spelling items').head? = some '/' ↔ (Template.spelling items).head? = some '/' := by
  cases h with
  | nil => exact Iff.rfl
  | keep hitem _ => rw [Template.spelling_cons, Template.spelling_cons, hitem.head]
  | bound => exact Iff.rfl
  | @ending item _ hslash _ =>
      refine iff_of_false (by decide) ?_
      rwa [Template.spelling_cons, Template.spelling_nil, List.append_nil]
  | run stars hnames _ _ =>
      rw [head_optionalItems hnames]
      exact iff_of_false (by decide) (fun h => absurd (Option.some.inj h) (by decide))
  | @dots _ escaped _ items items' hescaped _ =>
      have hne (c : Char) (hc : c ≠ '/') (rest : Template) :
          (Template.spelling (.char c escaped :: rest)).head? ≠ some '/' := by
        cases escaped with
        | true => exact fun h => absurd (Option.some.inj h) (by decide)
        | false => exact fun h => hc (Option.some.inj h)
      exact iff_of_false (hne '%' (by decide) (encodedDots ++ items'))
        (hne '.' (by decide) (.char '.' false :: items))

theorem stands (h : Reworked free names items items') (hstands : items.stands []) :
    items'.stands [] := by
  induction h with
  | nil => rfl
  | @keep free names item item' items items' hitem hrest ih =>
      obtain ⟨hfirst, hitems⟩ := Template.stands_cons.mp hstands
      refine Template.stands_cons.mpr ⟨hitem.stands ?_, ih hitems⟩
      cases hfirm : item.firm with
      | true => exact Item.stands_of_firm hfirm hfirst _
      | false =>
          rw [hfirm] at hrest
          rw [List.append_nil] at hfirst ⊢
          rwa [Item.stands_congr (hrest.head_eq rfl)]
  | bound free name body modifier =>
      obtain ⟨hfirst, hname⟩ := Template.name_of_stands (Template.stands_cons.mp hstands).1
      have hbounded : (Item.param name (some unionBody) none).stands [] :=
        Item.stands_param.mpr ⟨hfirst, hname, by decide, rfl⟩
      exact Template.stands_cons.mpr ⟨hbounded, rfl⟩
  | ending => decide
  | @run names more items items' stars _ hnames _ ih =>
      rw [Template.stands_append] at hstands ⊢
      exact ⟨stands_optionalItems hnames _, ih hstands.2⟩
  | @dots free escaped names items items' _ _ ih =>
      obtain ⟨-, hstands⟩ := Template.stands_cons.mp hstands
      have hrest := ih (Template.stands_cons.mp hstands).2
      refine Template.stands_cons.mpr ⟨by cases escaped <;> rfl, ?_⟩
      exact Template.stands_append.mpr ⟨rfl, hrest⟩

theorem closed (h : Reworked free names items items') (blocks : Nat) :
    Template.closed blocks items' = Template.closed blocks items := by
  induction h generalizing blocks with
  | nil => rfl
  | @keep free names item item' items items' hitem hrest ih =>
      rw [Template.closed_cons, Template.closed_cons, hitem.after]
      simp only [ih]
  | bound => rfl
  | @ending item hafter _ _ =>
      rw [Template.closed_cons blocks item, hafter]
      rfl
  | run stars _ _ _ ih => rw [closed_optionalItems, closed_stars, ih]
  | dots _ _ ih => exact ih blocks

/-- What comes out was there before, or is harmless. -/
theorem origin (h : Reworked free names items items') :
    ∀ item' ∈ items', (∃ item ∈ items, SameItem item item') ∨ Harmless item' := by
  induction h with
  | nil => exact nofun
  | keep hitem _ ih =>
      refine List.forall_mem_cons.mpr ⟨.inl ⟨_, List.mem_cons_self, hitem⟩, fun item' hitem' => ?_⟩
      refine (ih item' hitem').imp_left ?_
      rintro ⟨item, hmem, hsame⟩
      exact ⟨item, List.mem_cons_of_mem _ hmem, hsame⟩
  | bound free name => exact List.forall_mem_singleton.mpr (.inr (harmless_boundedParam name))
  | ending => exact List.forall_mem_singleton.mpr (.inr harmless_boundedGroup)
  | @run names _ _ _ _ _ _ _ ih =>
      refine List.forall_mem_append.mpr ⟨fun item' hitem' =>
        .inr (harmless_optionalItems names item' hitem'), fun item' hitem' => ?_⟩
      refine (ih item' hitem').imp_left ?_
      rintro ⟨item, hmem, hsame⟩
      exact ⟨item, List.mem_append_right _ hmem, hsame⟩
  | dots _ _ ih =>
      refine List.forall_mem_cons.mpr ⟨.inr (harmless_char _ _), ?_⟩
      refine List.forall_mem_append.mpr ⟨fun item' hitem' =>
        .inr (harmless_encodedDots item' hitem'), fun item' hitem' => ?_⟩
      refine (ih item' hitem').imp_left ?_
      rintro ⟨item, hmem, hsame⟩
      exact ⟨item, List.mem_cons_of_mem _ (List.mem_cons_of_mem _ hmem), hsame⟩

theorem contained (h : Reworked free names items items')
    (hcontained : ∀ item ∈ items, item.contained) : ∀ item' ∈ items', item'.contained := by
  intro item' hitem'
  rcases h.origin item' hitem' with ⟨item, hitem, hsame⟩ | hnew
  · exact (hsame.contained (hcontained item hitem)).1
  · exact hnew.contained

/-- Within the bodies no names are new. -/
theorem bodyCaptures (h : Reworked free names items items')
    (hcontained : ∀ item ∈ items, item.contained) {name : String} {item' : Item}
    (hitem' : item' ∈ items') (hname : name ∈ item'.bodyCaptures) :
    ∃ item ∈ items, name ∈ item.bodyCaptures := by
  rcases h.origin item' hitem' with ⟨item, hitem, hsame⟩ | hnew
  · rw [(hsame.captures (hcontained item hitem)).2] at hname
    exact ⟨item, hitem, hname⟩
  · rw [hnew.bodyCaptures] at hname
    cases hname

/-- The names that are given are the ones made up and some of the old ones. -/
theorem captures (h : Reworked free names items items')
    (hcontained : ∀ item ∈ items, item.contained) : ∃ kept, kept.Sublist items.captures ∧
      items'.captures.Perm (names.map String.ofList ++ kept) := by
  induction h with
  | nil => exact ⟨[], .refl _, .refl _⟩
  | @keep free names item item' items items' hitem _ ih =>
      obtain ⟨hfirst, hitems⟩ := List.forall_mem_cons.mp hcontained
      obtain ⟨kept, hkept, hperm⟩ := ih hitems
      refine ⟨item.captures ++ kept, (List.Sublist.refl _).append hkept, ?_⟩
      rw [Template.captures_cons, (hitem.captures hfirst).1]
      exact (hperm.append_left _).trans (List.perm_append_comm_assoc _ _ _)
  | bound free name body modifier =>
      refine ⟨[String.ofList name], ?_, ?_⟩
      · exact List.singleton_sublist.mpr List.mem_cons_self
      · exact .of_eq (congrArg (String.ofList name :: ·) (harmless_boundedParam name).bodyCaptures)
  | ending => exact ⟨[], List.nil_sublist _, .of_eq harmless_boundedGroup.bodyCaptures⟩
  | @run names more items items' stars _ _ _ ih =>
      obtain ⟨kept, hkept, hperm⟩ := ih fun item hitem =>
        hcontained item (List.mem_append_right _ hitem)
      refine ⟨kept, by rwa [captures_stars], ?_⟩
      rw [captures_optionalItems, List.map_append, List.append_assoc]
      exact hperm.append_left _
  | dots _ _ ih =>
      obtain ⟨-, hcontained⟩ := List.forall_mem_cons.mp hcontained
      exact ih (List.forall_mem_cons.mp hcontained).2

/-- The names stay different, where the ones made up are new. -/
theorem nodup_captures (h : Reworked free names items items')
    (hcontained : ∀ item ∈ items, item.contained) {around : List String}
    (hnames : (names.map String.ofList).Nodup)
    (hnew : ∀ name ∈ names.map String.ofList, name ∉ around ++ items.captures)
    (hnodup : (around ++ items.captures).Nodup) : (around ++ items'.captures).Nodup := by
  obtain ⟨kept, hkept, hperm⟩ := h.captures hcontained
  have hsublist : (around ++ kept).Sublist (around ++ items.captures) :=
    (List.Sublist.refl around).append hkept
  have hall : (names.map String.ofList ++ (around ++ kept)).Nodup :=
    List.nodup_append'.mpr ⟨hnames, hnodup.sublist hsublist, fun name hname hmem =>
      hnew name hname (hsublist.subset hmem)⟩
  refine ((hperm.append_left around).trans ?_).nodup_iff.mpr hall
  exact List.perm_append_comm_assoc _ _ _

end Reworked

end

end Remedy

end RouteAudit
