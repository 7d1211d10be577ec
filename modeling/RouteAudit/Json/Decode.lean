import RouteAudit.Json.Value

/-! # Decoding JSON

How a value of the domain is found in a JSON value. A record is an object, where
unknown keys are skipped and a known key may be given once only, or an array with
exactly its fields in order. A word of a fixed vocabulary is a string, or an
object that gives null to the word. Whole numbers have to be written as such and
to fit. There is one kind of failure.
-/

namespace RouteAudit.Json

/-- A text. -/
def asString? : Json → Option String
  | string value => some value
  | _ => none

/-- A truth value. -/
def asBool? : Json → Option Bool
  | bool value => some value
  | _ => none

/-- A whole number below a bound. -/
def asNatBelow? (bound : Nat) : Json → Option Nat
  | int value => if 0 ≤ value ∧ value < bound then some value.toNat else none
  | _ => none

/-- A whole number of 32 bits without sign. -/
def asUInt32? (value : Json) : Option UInt32 :=
  (asNatBelow? UInt32.size value).map UInt32.ofNat

/-- A whole number of 64 bits without sign. -/
def asUInt64? (value : Json) : Option UInt64 :=
  (asNatBelow? UInt64.size value).map UInt64.ofNat

/-- A whole number of 64 bits with sign. -/
def asInt64? : Json → Option Int64
  | int value => if (Int64.ofInt value).toInt = value then some (Int64.ofInt value) else none
  | _ => none

/-- A list. -/
def asList? {α : Type} (f : Json → Option α) : Json → Option (List α)
  | array items => items.mapM f
  | _ => none

/-- A value or null. -/
def asOption? {α : Type} (f : Json → Option α) : Json → Option (Option α)
  | null => some none
  | value => (f value).map some

/-- A word of a fixed vocabulary. -/
def asWord? {α : Type} (ofWord? : String → Option α) : Json → Option α
  | string word => ofWord? word
  | object [(some word, null)] => ofWord? word
  | _ => none

/-- The values of the fields of a record, missing where an object has none. -/
def asFields? (names : List String) : Json → Option (List (Option Json))
  | array items => if items.length = names.length then some (items.map some) else none
  | object entries =>
    if entries.any (·.1.isNone) then none
    else names.mapM fun name =>
      match entriesOf name entries with
      | [] => some none
      | [value] => some (some value)
      | _ => none
  | _ => none

/-- A field that has to be there. -/
def required? {α : Type} (f : Json → Option α) : Option Json → Option α
  | some value => f value
  | none => none

/-- A field that may be missing or null. -/
def allowed? {α : Type} (f : Json → Option α) : Option Json → Option (Option α)
  | some value => asOption? f value
  | none => some none

/-- A dictionary from texts, in the order written. A key given twice is there
twice. -/
def asDictionary? {α : Type} (f : Json → Option α) : Json → Option (List (String × α))
  | object entries => entries.mapM fun (key, value) => do return (← key, ← f value)
  | _ => none

end RouteAudit.Json
