/-! # Places in a text

A spot lies between two characters of a text, or at one of its ends. It knows
the character before it and everything after it, which is all that an
assertion about a place may ask for.
-/

namespace RouteAudit.Text

/-- A place in a text: how many characters precede it, the one right before it,
and the characters that follow. -/
structure Spot where
  index : Nat
  before : Option Char
  rest : List Char
  deriving Repr, BEq, DecidableEq

namespace Spot

/-- The place before the first character. -/
def start (text : List Char) : Spot :=
  ⟨0, none, text⟩

/-- The character right after the place. -/
def after (spot : Spot) : Option Char :=
  spot.rest.head?

/-- The place behind the next character, with that character. -/
def next? (spot : Spot) : Option (Char × Spot) :=
  match spot.rest with
  | [] => none
  | c :: cs => some (c, ⟨spot.index + 1, some c, cs⟩)

/-- Every place from a given one on, given the characters that follow it. -/
def fromHere (index : Nat) (before : Option Char) : List Char → List Spot
  | [] => [⟨index, before, []⟩]
  | c :: cs => ⟨index, before, c :: cs⟩ :: fromHere (index + 1) (some c) cs

/-- Every place of a text, first to last. There is one more than characters. -/
def all (text : List Char) : List Spot :=
  fromHere 0 none text

end Spot

end RouteAudit.Text
