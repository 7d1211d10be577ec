import RouteAudit.Regex.Automaton.Encoding
import RouteAudit.Regex.Automaton.Tally
import Std.Data.TreeMap.Basic

/-! # The states of a set of characters

A set beyond ASCII is written by many sequences of byte ranges, and states that
lead on alike are laid out once. A forward automaton shares what follows a byte:
the sequences come in ascending order, so a state is complete when the next
sequence leaves its path, and a complete state that is already there is not laid
out again. A backward automaton forks to the ends of all sequences and shares
what precedes a byte. What can be shared again is kept in a limited number of
slots, where a later state drives out an earlier one.
-/

namespace RouteAudit.Regex.Automaton

/-- A hash of numbers in 64 bits: each is mixed in and spread by a multiplication. -/
def hashOf (numbers : List Nat) : UInt64 :=
  numbers.foldl (fun hash n => (hash ^^^ n.toUInt64) * 1099511628211) 14695981039346656037

/-- States by what they are laid out for, one to a slot. -/
abbrev Shared (Key : Type) := Std.TreeMap Nat (Key × Nat)

/-- The state for a key, if its slot still holds it. -/
def Shared.find? {Key : Type} [BEq Key] (shared : Shared Key) (slot : Nat) (key : Key) :
    Option Nat :=
  match shared[slot]? with
  | some (held, state) => if held == key then some state else none
  | none => none

/-! ## Forward -/

/-- A range of bytes and the state that it leads to. -/
structure Arc where
  range : ByteRange
  target : Nat
  deriving Repr, BEq, DecidableEq

/-- A state on the path of the latest sequence: the arcs that are settled, last one
first, and the range that the path takes. -/
structure Pending where
  settled : List Arc
  range : ByteRange
  deriving Repr, BEq, DecidableEq

/-- An automaton that grows by the states of a set. -/
structure Forward where
  tally : Tally
  shared : Shared (List Arc)

namespace Forward

/-- How many complete states can be shared again. -/
def slotCount : Nat := 10000

/-- The slot of a state. -/
def slot (arcs : List Arc) : Nat :=
  let numbers := arcs.flatMap fun arc => [arc.range.first, arc.range.last, arc.target]
  (hashOf numbers).toNat % slotCount

/-- The state with these arcs, laid out unless it can be shared. -/
def intern (growing : Forward) (arcs : List Arc) : Nat × Forward :=
  let slot := slot arcs
  match growing.shared.find? slot arcs with
  | some state => (state, growing)
  | none =>
    let state := growing.tally.states
    (state, ⟨growing.tally.withChoices arcs.length, growing.shared.insert slot (arcs, state)⟩)

/-- Completes the states of a path that ends in `target`, the last one first, and gives
the first one. -/
def complete (growing : Forward) (target : Nat) : List Pending → Nat × Forward
  | [] => (target, growing)
  | state :: path =>
    let (next, growing) := growing.complete target path
    growing.intern (⟨state.range, next⟩ :: state.settled).reverse

/-- Adds a sequence. It follows the path as far as they agree; what the path has
beyond is complete. -/
def add (growing : Forward) (target : Nat) :
    List Pending → List ByteRange → List Pending × Forward
  | state :: path, range :: sequence =>
    if state.range = range then
      let (path, growing) := growing.add target path sequence
      (state :: path, growing)
    else
      let (next, growing) := growing.complete target path
      (⟨⟨state.range, next⟩ :: state.settled, range⟩ :: sequence.map (⟨[], ·⟩), growing)
  | _, sequence => (sequence.map (⟨[], ·⟩), growing)

/-- The tally with the states of a set, all of whose sequences lead to one state. -/
def ofSequences (tally : Tally) (sequences : List (List ByteRange)) : Tally :=
  let target := tally.states
  let (path, growing) := sequences.foldl
    (fun (path, growing) sequence => add growing target path sequence)
    ([], ⟨tally.withStates 1, ∅⟩)
  (growing.complete target path).2.tally

end Forward

/-! ## Backward -/

/-- A state that reads a range of bytes, by what comes before it in the text. -/
structure Behind where
  before : Nat
  range : ByteRange
  deriving Repr, BEq, DecidableEq

/-- An automaton that grows by the states of a set. -/
structure Backward where
  tally : Tally
  shared : Shared Behind

namespace Backward

/-- How many states can be shared again. -/
def slotCount : Nat := 1000

/-- The slot of a state. -/
def slot (key : Behind) : Nat :=
  (hashOf [key.before, key.range.first, key.range.last]).toNat % slotCount

/-- The state that reads a range, laid out unless it can be shared. -/
def intern (growing : Backward) (key : Behind) : Nat × Backward :=
  let slot := slot key
  match growing.shared.find? slot key with
  | some state => (state, growing)
  | none =>
    let state := growing.tally.states
    (state, ⟨growing.tally.withStates 1, growing.shared.insert slot (key, state)⟩)

/-- Adds a sequence that starts at `before`, and the branch that leads to its end. -/
def add (growing : Backward) (before : Nat) (sequence : List ByteRange) : Backward :=
  let (_, growing) := sequence.foldl
    (fun (before, growing) range => intern growing ⟨before, range⟩) (before, growing)
  { growing with tally := growing.tally.withBranches 1 }

/-- The tally with the states of a set: a fork, a state where all sequences start, and
the sequences. -/
def ofSequences (tally : Tally) (sequences : List (List ByteRange)) : Tally :=
  let before := tally.states + 1
  let start : Backward := ⟨tally.withStates 2, ∅⟩
  (sequences.foldl (fun growing sequence => growing.add before sequence) start).tally

end Backward

/-- The tally with the states of a set. One within ASCII takes one state to read it.
What is too large already need not be counted any further. -/
def Tally.withSet (tally : Tally) (direction : Direction) (ranges : List (Nat × Nat)) : Tally :=
  if tally.isTooLarge then tally
  else if ranges.all (·.2 ≤ 0x7F) then (tally.withStates 1).withChoices ranges.length
  else
    match direction with
    | .forward => Forward.ofSequences tally (ranges.flatMap sequences)
    | .backward => Backward.ofSequences tally (ranges.flatMap sequences)

end RouteAudit.Regex.Automaton
