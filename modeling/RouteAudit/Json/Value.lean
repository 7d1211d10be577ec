/-! # JSON values

A value as a file holds it. Object entries keep their order, and a key given
twice is there twice: what that means is up to whoever reads the object. Whole
numbers are told apart from numbers with a fraction or an exponent and from a
negative zero, which are kept as written.

A string can be valid JSON and still be no text, when an escaped surrogate in
it has no partner or a byte in it writes no character. It is kept as broken, which
is harmless where it is skipped.
-/

namespace RouteAudit

/-- A JSON value. -/
inductive Json where
  | null
  | bool (value : Bool)
  | int (value : Int)
  | decimal (written : List Char)
  | string (value : String)
  | brokenString
  | array (items : List Json)
  /-- A key is missing where it was broken. -/
  | object (entries : List (Option String × Json))
  deriving Repr, BEq

namespace Json

/-- A natural number. -/
def nat (n : Nat) : Json := int n

/-- An object whose keys are all texts. -/
def record (entries : List (String × Json)) : Json :=
  object (entries.map fun (key, value) => (some key, value))

/-- A list of texts. -/
def strings (items : List String) : Json :=
  array (items.map string)

/-- A value that may be missing, written as null then. -/
def optional {α : Type} (f : α → Json) : Option α → Json
  | some a => f a
  | none => null

/-- The values of all entries with a key, in order. -/
def entriesOf (key : String) (entries : List (Option String × Json)) : List Json :=
  entries.filterMap fun (k, value) => if k = some key then some value else none

/-- The last value that an object gives to a key. -/
def field? (value : Json) (key : String) : Option Json :=
  match value with
  | object entries => (entriesOf key entries).getLast?
  | _ => none

end Json

end RouteAudit
