import Mathlib.Computability.Language
import RouteAudit.Pattern.Template

/-! # The language of a template

What a template describes, item by item: characters stand for themselves, a parameter for
segments, a wildcard for anything on a line, and a block for rounds of what it holds. Nothing
here knows of regular expressions, and groups, which are made of them, are left out.
-/

namespace RouteAudit

open scoped Computability

/-- As many texts of a language, one behind the other, as a modifier asks for. -/
def Modifier.rounds (L : Language Char) : Option Modifier → Language Char
  | none => L
  | some .optional => 1 + L
  | some .zeroOrMore => L∗
  | some .oneOrMore => L * L∗

/-! ## How items are written -/

namespace Modifier

/-- The characters that write a modifier, if there is one. -/
def spelling : Option Modifier → List Char
  | none => []
  | some modifier => [modifier.char]

/-- Whether a modifier is all that the text has of one: where there is none, the text does not
go on with one. -/
def standsBefore (rest : List Char) (modifier : Option Modifier) : Bool :=
  modifier.isSome || (rest.head?.bind ofChar?).isNone

end Modifier

namespace Item

open Pattern (isNameStart isNameChar)

/-- The characters that write a body, if there is one. -/
def bodySpelling : Option (List Char) → List Char
  | none => []
  | some body => '(' :: body ++ [')']

/-- The characters that write an item. -/
def spelling : Item → List Char
  | char c false => [c]
  | char c true => ['\\', c]
  | param name body modifier => ':' :: name ++ bodySpelling body ++ Modifier.spelling modifier
  | group body modifier => bodySpelling (some body) ++ Modifier.spelling modifier
  | wildcard => ['*']
  | blockOpen => ['\x7b']
  | blockClose modifier => '\x7d' :: Modifier.spelling modifier

/-- Whether what writes an item means that item where the text goes on like this. A character
without a backslash has no other meaning there, and neither a name nor a modifier is cut short.
Items with a body are left out. -/
def standsBefore (rest : List Char) : Item → Bool
  | char _ true => true
  | char c false =>
    !(['\\', '(', ')', '*', '\x7b', '\x7d'].contains c) &&
      !(c == ':' && rest.head?.any isNameStart)
  | param name none modifier =>
    name.head?.any isNameStart && name.all isNameChar &&
      (modifier.isSome || !rest.head?.any fun c => isNameChar c || c == '(') &&
      Modifier.standsBefore rest modifier
  | param _ (some _) _ => false
  | group _ _ => false
  | wildcard => true
  | blockOpen => true
  | blockClose modifier => Modifier.standsBefore rest modifier

end Item

namespace Template

/-- Whether the items are what a text means, read from its start to its end. -/
def Spells : Template → List Char → Prop
  | [], text => text = []
  | item :: items, text =>
    ∃ rest, text = item.spelling ++ rest ∧ item.standsBefore rest ∧ Spells items rest

/-- Whether a parenthesis stands in a text without a backslash before it. -/
def hasBareParenthesis : List Char → Bool
  | '\\' :: _ :: cs => hasBareParenthesis cs
  | c :: cs => c == '(' || c == ')' || hasBareParenthesis cs
  | [] => false

/-! ## Languages -/

/-- A character alone. -/
def charLanguage (c : Char) : Language Char := {[c]}

/-- A text on one line. -/
def wildcardLanguage : Language Char := {text | '\n' ∉ text}

/-- A text that is not empty and has no slash. -/
def segmentLanguage : Language Char := {text | text ≠ [] ∧ '/' ∉ text}

/-- One or more segments with a slash between each two. -/
def segmentsLanguage : Language Char := segmentLanguage * (charLanguage '/' * segmentLanguage)∗

theorem mem_segmentsLanguage {text : List Char} (h : text ∈ segmentLanguage) :
    text ∈ segmentsLanguage := by
  rw [segmentsLanguage, Language.mem_mul]
  exact ⟨text, h, [], Language.nil_mem_kstar _, List.append_nil text⟩

theorem ne_nil_of_mem_segmentsLanguage {text : List Char} (h : text ∈ segmentsLanguage) :
    text ≠ [] := by
  obtain ⟨first, hfirst, rest, -, rfl⟩ := Language.mem_mul.mp h
  exact List.append_ne_nil_of_left_ne_nil hfirst.1 rest

/-- What a parameter describes, with what stands before its segments when there are some. -/
def paramLanguage (before : Language Char) : Option Modifier → Language Char
  | none => before * segmentLanguage
  | some .optional => 1 + before * segmentLanguage
  | some .zeroOrMore => 1 + before * segmentsLanguage
  | some .oneOrMore => before * segmentsLanguage

/-- The items of a block up to its end, the modifier there, and the items behind it, where
`depth` blocks are open inside. -/
def closing? (depth : Nat) : Template → Option (Template × Option Modifier × Template)
  | [] => none
  | .blockOpen :: items =>
    (closing? (depth + 1) items).map fun (inner, behind) => (.blockOpen :: inner, behind)
  | .blockClose modifier :: items =>
    match depth with
    | 0 => some ([], modifier, items)
    | depth + 1 =>
      (closing? depth items).map fun (inner, behind) => (.blockClose modifier :: inner, behind)
  | item :: items => (closing? depth items).map fun (inner, behind) => (item :: inner, behind)

theorem closing?_eq_some {depth : Nat} {items inner rest : Template} {modifier : Option Modifier}
    (h : closing? depth items = some (inner, modifier, rest)) :
    items = inner ++ .blockClose modifier :: rest := by
  fun_induction closing? depth items generalizing inner with
  | case1 => cases h
  | case2 depth items ih =>
      obtain ⟨⟨inner, behind⟩, hclosing, heq⟩ := Option.map_eq_some_iff.mp h
      obtain ⟨rfl, rfl⟩ := Prod.mk.inj heq
      rw [ih hclosing, List.cons_append]
  | case3 =>
      cases h
      rfl
  | case4 modifier items depth ih =>
      obtain ⟨⟨inner, behind⟩, hclosing, heq⟩ := Option.map_eq_some_iff.mp h
      obtain ⟨rfl, rfl⟩ := Prod.mk.inj heq
      rw [ih hclosing, List.cons_append]
  | case5 depth item items _ _ ih =>
      obtain ⟨⟨inner, behind⟩, hclosing, heq⟩ := Option.map_eq_some_iff.mp h
      obtain ⟨rfl, rfl⟩ := Prod.mk.inj heq
      rw [ih hclosing, List.cons_append]

/-- The texts that the items describe. A slash right before a modified parameter belongs to
it. -/
def language : Template → Language Char
  | [] => 1
  | .char '/' _ :: .param _ none (some modifier) :: items =>
    paramLanguage (charLanguage '/') (some modifier) * language items
  | .char c _ :: items => charLanguage c * language items
  | .param _ none modifier :: items => paramLanguage 1 modifier * language items
  | .wildcard :: items => wildcardLanguage * language items
  | .blockOpen :: items =>
    match _ : closing? 0 items with
    | some (inner, modifier, rest) => Modifier.rounds (language inner) modifier * language rest
    | none => 0
  | _ => 0
termination_by items => items.length
decreasing_by
  · exact Nat.lt_succ_of_lt (Nat.lt_succ_self _)
  · exact Nat.lt_succ_self _
  · exact Nat.lt_succ_self _
  · exact Nat.lt_succ_self _
  all_goals
    have hlength := congrArg List.length (closing?_eq_some ‹_›)
    rw [List.length_append, List.length_cons] at hlength
    rw [List.length_cons]
    omega

end Template

end RouteAudit
