import RouteAudit.Proofs.Pattern.Language

/-! # What writes a template

An item is written in one way, also when it has a body, and it means itself where the text goes on
so that nothing of it is cut short. A row of items is written one behind the other.
-/

namespace RouteAudit

namespace Item

open Pattern (isNameStart isNameChar)

/-- Whether a text can stand between the parentheses of a group. -/
def isBody (body : List Char) : Bool :=
  !body.isEmpty && Template.readBody? 0 (body ++ [')']) == some (body, [])

/-- Whether what writes an item means that item where the text goes on like this. -/
def stands (rest : List Char) : Item → Bool
  | param name (some body) modifier =>
    name.head?.any isNameStart && name.all isNameChar && isBody body &&
      Modifier.standsBefore rest modifier
  | group body modifier => isBody body && Modifier.standsBefore rest modifier
  | item => item.standsBefore rest

/-- How many blocks are open behind an item, where so many are open before it. -/
def after (blocks : Nat) : Item → Option Nat
  | blockOpen => some (blocks + 1)
  | blockClose _ =>
    match blocks with
    | 0 => none
    | blocks + 1 => some blocks
  | _ => some blocks

section

variable {name body rest : List Char} {modifier : Option Modifier}

theorem stands_param : (param name (some body) modifier).stands rest ↔
    name.head?.any isNameStart ∧ (∀ c ∈ name, isNameChar c) ∧ isBody body ∧
      Modifier.standsBefore rest modifier := by
  rw [stands, Bool.and_eq_true, Bool.and_eq_true, Bool.and_eq_true, List.all_eq_true, and_assoc,
    and_assoc]

theorem stands_group :
    (group body modifier).stands rest ↔ isBody body ∧ Modifier.standsBefore rest modifier := by
  rw [stands, Bool.and_eq_true]

theorem stands_of_standsBefore {item : Item} (h : item.standsBefore rest) : item.stands rest := by
  unfold stands
  split
  next => cases h
  next => cases h
  next => exact h

/-- How the text goes on matters by its first character only. -/
theorem stands_congr {other : List Char} (h : rest.head? = other.head?) (item : Item) :
    item.stands rest = item.stands other := by
  unfold stands standsBefore Modifier.standsBefore
  rw [h]

theorem spelling_ne_nil (item : Item) : item.spelling ≠ [] := by
  unfold spelling bodySpelling
  split <;> simp

end

end Item

namespace Template

/-- The characters that write a row of items. -/
def spelling (items : Template) : List Char := items.flatMap Item.spelling

/-- Whether each item of a row means itself, where the text goes on like this behind the last. -/
def stands (rest : List Char) : Template → Bool
  | [] => true
  | item :: items => item.stands (spelling items ++ rest) && stands rest items

section

variable {item : Item} {items other : Template} {text rest : List Char}

@[simp]
theorem spelling_nil : spelling [] = [] := rfl

theorem spelling_cons (item : Item) (items : Template) :
    spelling (item :: items) = item.spelling ++ spelling items := rfl

theorem spelling_append (items other : Template) :
    spelling (items ++ other) = spelling items ++ spelling other := List.flatMap_append

theorem stands_cons : stands rest (item :: items) ↔
    item.stands (spelling items ++ rest) ∧ stands rest items := by
  rw [stands, Bool.and_eq_true]

theorem stands_append : stands rest (items ++ other) ↔
    stands (spelling other ++ rest) items ∧ stands rest other := by
  induction items with
  | nil => simp [stands]
  | cons item items ih =>
      rw [List.cons_append, stands_cons, stands_cons, spelling_append, List.append_assoc, ih,
        and_assoc]

theorem stands_congr {behind : List Char} (h : rest.head? = behind.head?) (items : Template) :
    items.stands rest = items.stands behind := by
  induction items with
  | nil => rfl
  | cons item items ih =>
      rw [stands, stands, ih]
      congr 1
      apply Item.stands_congr
      rw [List.head?_append, List.head?_append, h]

theorem exists_stands_of_mem (h : stands rest items) (hitem : item ∈ items) :
    ∃ behind, item.stands behind := by
  induction items with
  | nil => cases hitem
  | cons first items ih =>
      obtain ⟨hfirst, hitems⟩ := stands_cons.mp h
      rcases List.mem_cons.mp hitem with rfl | hitem
      · exact ⟨_, hfirst⟩
      · exact ih hitems hitem

theorem spelling_eq_nil : spelling items = [] ↔ items = [] := by
  cases items with
  | nil => exact ⟨fun _ => rfl, fun _ => rfl⟩
  | cons item items =>
      refine ⟨fun h => ?_, nofun⟩
      exact absurd (List.append_eq_nil_iff.mp h).1 item.spelling_ne_nil

/-- What a text spells is a row of items that write it. -/
theorem Spells.stands (h : Spells items text) : text = spelling items ∧ items.stands [] := by
  induction items generalizing text with
  | nil => exact ⟨h, rfl⟩
  | cons item items ih =>
      obtain ⟨rest, rfl, hitem, hrest⟩ := h
      obtain ⟨rfl, hitems⟩ := ih hrest
      refine ⟨rfl, stands_cons.mpr ⟨?_, hitems⟩⟩
      rw [List.append_nil]
      exact Item.stands_of_standsBefore hitem

end

end Template

end RouteAudit
