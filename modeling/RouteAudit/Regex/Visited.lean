/-! # What a search has been at

A set of numbers below a bound, kept as bits of an array of words. A search puts in
the places it has been at and asks before it goes anywhere. Main statement: putting a
number in changes nothing for the others (`contains_insert`).
-/

namespace RouteAudit.Regex

/-- A set of numbers below a bound. -/
structure Visited where
  bound : Nat
  words : Array Nat
  deriving Repr, BEq, DecidableEq

namespace Visited

/-- How many numbers share a word. With sixty bits a word stays a small number. -/
def wordSize : Nat := 60

/-- The set without members that has room for the numbers below a bound. -/
def empty (bound : Nat) : Visited :=
  ⟨bound, Array.replicate (bound / wordSize + 1) 0⟩

/-- Whether a number is in the set. One that has no room there counts as a member. -/
def contains (seen : Visited) (key : Nat) : Bool :=
  if key < seen.bound then
    (seen.words[key / wordSize]?).all fun word => word.testBit (key % wordSize)
  else true

/-- The set with one more number, if there is room for it. -/
def insert (seen : Visited) (key : Nat) : Visited :=
  { seen with
    words := seen.words.modify (key / wordSize) fun word => word ||| (1 <<< (key % wordSize)) }

/-- Nothing with room in it is in the empty set. -/
theorem contains_empty {bound key : Nat} (h : key < bound) :
    (empty bound).contains key = false := by
  have hroom : key / wordSize < bound / wordSize + 1 :=
    Nat.lt_succ_of_le (Nat.div_le_div_right (Nat.le_of_lt h))
  simp [contains, empty, h, hroom]

/-- A number put in is a member from then on, and so is all that was one before. -/
theorem contains_insert (seen : Visited) (key other : Nat) :
    (seen.insert key).contains other = (other == key || seen.contains other) := by
  by_cases hroom : other < seen.bound
  case neg => simp [contains, insert, hroom]
  simp only [contains, insert, hroom, if_true, Array.getElem?_modify]
  by_cases hword : key / wordSize = other / wordSize
  case neg =>
    have hne : other ≠ key := fun h => hword (by rw [h])
    simp [hword, hne]
  cases hat : seen.words[other / wordSize]? with
  | none => simp [hword]
  | some word =>
    have hbit : (1 <<< (key % wordSize)).testBit (other % wordSize) = (other == key) := by
      have hparts : key % wordSize = other % wordSize ↔ other = key := by
        unfold wordSize at *
        omega
      rw [Nat.one_shiftLeft, Nat.testBit_two_pow, Bool.eq_iff_iff]
      simp [hparts]
    simp [hword, hbit, Bool.or_comm]

end Visited

end RouteAudit.Regex
