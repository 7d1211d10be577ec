/-! # The size of an automaton

An automaton is not built here but counted. Every state takes the same room, a
state that reads one of several bytes takes more for each choice, and a fork takes
more for each successor that it names.
-/

namespace RouteAudit.Regex.Automaton

/-- What an automaton has come to: its states, and the bytes that they take beyond
what every state takes. The next state gets the number of states as its own. -/
structure Tally where
  states : Nat
  extra : Nat
  deriving Repr, BEq, DecidableEq

namespace Tally

/-- No states at all. -/
def zero : Tally := ⟨0, 0⟩

/-- The bytes of all states together. -/
def bytes (tally : Tally) : Nat := 32 * tally.states + tally.extra

/-- The bytes that an automaton may take: ten mebibytes. -/
def maxBytes : Nat := 10 * 1024 * 1024

/-- Whether the automaton takes more than it may. -/
def isTooLarge (tally : Tally) : Bool := maxBytes < tally.bytes

/-- More states of no special kind. -/
def withStates (tally : Tally) (n : Nat) : Tally := { tally with states := tally.states + n }

/-- One more state, with a list of byte ranges to choose from. -/
def withChoices (tally : Tally) (n : Nat) : Tally := ⟨tally.states + 1, tally.extra + 8 * n⟩

/-- More successors named by forks. -/
def withBranches (tally : Tally) (n : Nat) : Tally := { tally with extra := tally.extra + 4 * n }

end Tally

/-- Which way an automaton runs over a text. -/
inductive Direction where
  | forward
  | backward
  deriving Repr, BEq, DecidableEq

end RouteAudit.Regex.Automaton
