import RouteAudit.Regex.Program
import RouteAudit.Regex.Visited

/-! # Searching a text

A search runs a program by depth first, most preferred alternative first, and
never visits the same address at the same place twice: what failed there once
fails again, and a loop that took up no text has nothing new to offer. The
agenda starts with every place of the text in order, so the answer is the
leftmost match, and among those the preferred one.
-/

namespace RouteAudit.Regex

open RouteAudit.Text (Spot)

/-- One end of a capture, found while running. -/
structure Mark where
  name : String
  opens : Bool
  index : Nat
  deriving Repr, BEq, DecidableEq

/-- A run in progress: where it stands in the program and in the text, and the
marks it has passed, latest first. -/
structure Thread where
  addr : Nat
  spot : Spot
  marks : List Mark
  deriving Repr, BEq, DecidableEq

namespace Thread

/-- What a run may do next, preferred choice first. -/
def successors (thread : Thread) : Instr → List Thread
  | .skip next => [{ thread with addr := next }]
  | .read chars next =>
    match thread.spot.next? with
    | some (c, spot) => if chars.holds c then [{ thread with addr := next, spot }] else []
    | none => []
  | .check assertion next =>
    if assertion.holds thread.spot then [{ thread with addr := next }] else []
  | .mark name opens next =>
    [{ thread with addr := next, marks := ⟨name, opens, thread.spot.index⟩ :: thread.marks }]
  | .fork first second => [{ thread with addr := first }, { thread with addr := second }]
  | .accept => []

end Thread

/-- Works through the agenda. `width` is the number of places in the text; a pair
of an address and a place is remembered in `seen` under `addr * width + index`. -/
def search (program : Program) (width : Nat) :
    (fuel : Nat) → (seen : Visited) → (agenda : List Thread) → Option Thread
  | 0, _, _ => none
  | _, _, [] => none
  | fuel + 1, seen, thread :: agenda =>
    let key := thread.addr * width + thread.spot.index
    if seen.contains key then search program width fuel seen agenda
    else
      match program[thread.addr]? with
      | none => search program width fuel (seen.insert key) agenda
      | some .accept => some thread
      | some instr =>
        search program width fuel (seen.insert key) (thread.successors instr ++ agenda)

/-- The preferred run of a program over a text. Every step either drops an agenda
entry or uses up one of the unseen pairs, which pays for two new entries. -/
def Program.run? (program : Program) (text : List Char) : Option Thread :=
  let width := text.length + 1
  search program width (2 * (program.size * width) + width + 1)
    (Visited.empty (program.size * width)) ((Spot.all text).map fun spot => ⟨0, spot, []⟩)

/-- A regular expression made ready to search with. -/
structure Searcher where
  expr : Expr
  program : Program := .ofExpr expr
  deriving Repr, BEq, DecidableEq

namespace Searcher

/-- The expression with its own program. -/
def ofExpr (expr : Expr) : Searcher := { expr }

/-- Whether the expression matches somewhere in the text. -/
def isMatch (searcher : Searcher) (text : List Char) : Bool :=
  (searcher.program.run? text).isSome

/-- The stretch of a text between two indices. -/
def slice (text : List Char) (first last : Nat) : List Char :=
  (text.drop first).take (last - first)

/-- The stretch of a text that a capture took last, if it took part at all. -/
def captured? (text : List Char) (marks : List Mark) (name : String) : Option (List Char) := do
  let opened ← marks.find? fun mark => mark.name == name && mark.opens
  let closed ← marks.find? fun mark => mark.name == name && !mark.opens
  return slice text opened.index closed.index

/-- The marks of the preferred match. -/
def find? (searcher : Searcher) (text : List Char) : Option (List Mark) :=
  (searcher.program.run? text).map (·.marks)

end Searcher

end RouteAudit.Regex
