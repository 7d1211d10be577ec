import RouteAudit.Text.Blank
import RouteAudit.Unicode.CaseFold
import RouteAudit.Unicode.Property
import RouteAudit.Unicode.WordClass

/-! # Sets of characters

A set is written as the pattern writes it: ranges, named classes, set
operations, case folding. Membership is decided by reading the description, so
a class of a hundred thousand characters costs no more to hold than its name.
-/

namespace RouteAudit.Regex

open RouteAudit.Unicode (RangeTable)

/-- A description of a set of characters. -/
inductive CharSet where
  | none
  | any
  | oneOf (members : List Char)
  | range (first last : Char)
  | digit
  | blank
  | word
  | property (which : Unicode.Property)
  | compl (set : CharSet)
  | union (left right : CharSet)
  | inter (left right : CharSet)
  | diff (left right : CharSet)
  | symmDiff (left right : CharSet)
  /-- Every character that differs from a member in case only. -/
  | folded (set : CharSet)
  /-- Every character that differs from a member in the case of an ASCII letter only. -/
  | foldedAscii (set : CharSet)
  deriving Repr, BEq, DecidableEq

namespace CharSet

/-- Membership. -/
def holds : CharSet → Char → Bool
  | none, _ => false
  | any, _ => true
  | oneOf members, c => members.contains c
  | range first last, c => first ≤ c && c ≤ last
  | digit, c => Unicode.isDigit c
  | blank, c => Text.isBlank c
  | word, c => Unicode.isWord c
  | property which, c => which.holds c
  | compl set, c => !set.holds c
  | union left right, c => left.holds c || right.holds c
  | inter left right, c => left.holds c && right.holds c
  | diff left right, c => left.holds c && !right.holds c
  | symmDiff left right, c => left.holds c != right.holds c
  | folded set, c => (Unicode.orbit c).any set.holds
  | foldedAscii set, c => set.holds c || set.holds c.toUpper || set.holds c.toLower

instance : Membership Char CharSet := ⟨fun set c => set.holds c = true⟩

theorem mem_def (set : CharSet) (c : Char) : c ∈ set ↔ set.holds c = true := Iff.rfl

instance (set : CharSet) (c : Char) : Decidable (c ∈ set) :=
  decidable_of_iff _ (mem_def set c).symm

/-- The set of one character. -/
def single (c : Char) : CharSet := oneOf [c]

/-- One character in any case. -/
def caseless (c : Char) : CharSet := oneOf (Unicode.orbit c)

/-- The union of a list of sets. -/
def unions : List CharSet → CharSet
  | [] => none
  | [set] => set
  | set :: sets => union set (unions sets)

/-- The members as ranges of code points. A code point that is no character may be
among them. -/
def table : CharSet → RangeTable
  | none => ⟨[]⟩
  | any => ⟨[(0, Unicode.lastCode)]⟩
  | oneOf members => .shortest (members.map fun c => (c.toNat, c.toNat))
  | range first last => ⟨[(first.toNat, last.toNat)]⟩
  | digit => Unicode.Category.decimalNumber.table
  | blank => Unicode.Trait.whiteSpace.table
  | word => Unicode.wordTable
  | property which => which.table
  | compl set => set.table.compl
  | union left right => left.table.union right.table
  | inter left right => left.table.inter right.table
  | diff left right => left.table.diff right.table
  | symmDiff left right => left.table.symmDiff right.table
  | folded set => Unicode.foldedTable set.table
  | foldedAscii set => Unicode.foldedAsciiTable set.table

end CharSet

end RouteAudit.Regex
