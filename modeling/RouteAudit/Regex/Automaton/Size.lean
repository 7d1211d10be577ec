import RouteAudit.Regex.Automaton.Shape
import RouteAudit.Regex.Automaton.Sharing
import RouteAudit.Regex.Automaton.Words

/-! # The size of the automata of an expression

An expression is run by an automaton over bytes, from either end of a text. What
each shape adds to an automaton follows here in the order in which its states are
laid out, since the states of a set depend on where it begins. `Expr.fits` says
whether both automata stay within what they may take.
-/

namespace RouteAudit.Regex

open Automaton

namespace Automaton

/-- A part of an automaton that has just been laid out: the tally with it, and whether
a fork is left to be joined to what follows, which takes one more branch. -/
structure Part where
  tally : Tally
  forks : Bool
  deriving Repr, BEq, DecidableEq

namespace Part

/-- The tally when the part has been joined to what follows. -/
def joined (part : Part) : Tally :=
  if part.forks then part.tally.withBranches 1 else part.tally

/-- A part that leaves nothing open. -/
def closed (tally : Tally) : Part := ⟨tally, false⟩

/-- A part once more behind itself and so on, `n` times after the first. A tally that
is too large already does not grow any further. -/
def followed (layOut : Tally → Part) : (n : Nat) → Part → Part
  | 0, part => part
  | n + 1, part =>
    if part.tally.isTooLarge then part else followed layOut n (layOut part.joined)

/-- A number of copies in a row; none of them is one empty state. -/
def copies (layOut : Tally → Part) (n : Nat) (tally : Tally) : Part :=
  match n with
  | 0 => closed (tally.withStates 1)
  | n + 1 => followed layOut n (layOut tally)

/-- A fork before a copy, which may pass over it. -/
def optionally (layOut : Tally → Part) (tally : Tally) : Part :=
  let part := layOut (tally.withStates 1)
  { part with tally := part.tally.withBranches 2 }

/-- Repetitions of a part without an upper limit. `advances` tells that the part takes
up text; otherwise the fork behind it needs one before it. -/
def unbounded (advances : Bool) (layOut : Tally → Part) (least : Nat) (tally : Tally) : Part :=
  match least with
  | 0 =>
    if advances then ⟨(layOut (tally.withStates 1)).joined.withBranches 1, true⟩
    else closed (((layOut tally).joined.withStates 3).withBranches 4)
  | 1 => ⟨((layOut tally).joined.withStates 1).withBranches 1, true⟩
  | least + 1 =>
    let part := layOut (copies layOut least tally).joined
    ⟨(part.joined.withStates 1).withBranches 1, true⟩

/-- Repetitions of a part up to a limit. -/
def bounded (layOut : Tally → Part) (least most : Nat) (tally : Tally) : Part :=
  if least = 0 ∧ most = 1 then closed ((optionally layOut tally).joined.withStates 1)
  else if most ≤ least then copies layOut least tally
  else
    let required := copies layOut least tally
    let start : Part := { required with tally := required.tally.withStates 1 }
    closed (followed (optionally layOut) (most - least) start).joined

end Part

/-- The bytes of a literal, in the order in which they are met. -/
def bytesOf (direction : Direction) (codes : List Nat) : Word :=
  match direction with
  | .forward => codes.flatMap encode
  | .backward => (codes.flatMap encode).reverse

/-- The words of a choice that has nothing but literals. -/
def wordsOf? (direction : Direction) (branches : List Shape) : Option (List Word) :=
  branches.mapM fun
    | .literal codes => some (bytesOf direction codes)
    | _ => none

namespace Shape

mutual

/-- Lays out a shape behind what there is. -/
def layOut (direction : Direction) : Shape → Tally → Part
  | empty, tally | look _, tally => .closed (tally.withStates 1)
  | literal codes, tally => .closed (tally.withStates (byteCount codes))
  | set ranges, tally => .closed (tally.withSet direction ranges)
  | repeated _ least most body, tally =>
    match most with
    | none => Part.unbounded body.advances (layOut direction body) least tally
    | some most => Part.bounded (layOut direction body) least most tally
  | capture body, tally =>
    match direction with
    | .forward =>
      let part := layOut direction body (tally.withStates 1)
      .closed (part.joined.withStates 1)
    | .backward => layOut direction body tally
  | row items, tally => layOutRow direction items tally
  | choice branches, tally =>
    match wordsOf? direction branches with
    | some words => .closed (tally.withWords words)
    | none => .closed (layOutChoice direction 0 branches tally)

/-- Lays out the items of a row in the order in which the automaton meets them. -/
def layOutRow (direction : Direction) : List Shape → Tally → Part
  | [], tally => .closed tally
  | [item], tally => layOut direction item tally
  | item :: items, tally =>
    match direction with
    | .forward => layOutRow direction items (layOut direction item tally).joined
    | .backward => layOut direction item (layOutRow direction items tally).joined

/-- Lays out branches when `done` of them are there already. The fork and the state
where all branches end come behind the second one. -/
def layOutChoice (direction : Direction) (done : Nat) : List Shape → Tally → Tally
  | [], tally => tally
  | branch :: branches, tally =>
    let tally := (layOut direction branch tally).joined.withBranches 1
    layOutChoice direction (done + 1) branches (if done = 1 then tally.withStates 2 else tally)

end

/-- The automaton of a shape: a state to start from, the shape as a capture of its own,
and a state that accepts. -/
def automaton (direction : Direction) (shape : Shape) : Tally :=
  let part := layOut direction (capture shape) (Tally.zero.withStates 1)
  part.joined.withStates 1

end Shape

end Automaton

/-- Whether the automata of an expression take no more than they may. -/
def Expr.fits (e : Expr) : Bool :=
  let shape := Shape.ofExpr e
  !(shape.automaton .forward).isTooLarge && !(shape.automaton .backward).isTooLarge

end RouteAudit.Regex
