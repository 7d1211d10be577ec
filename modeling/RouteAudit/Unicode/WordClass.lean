import RouteAudit.Unicode.Trait

/-! # Digits and word characters

A digit has the general category `Nd`. Word characters are the alphabetic ones,
all marks, digits, connector punctuation and the two joiners. ASCII is written out
in each test.
-/

namespace RouteAudit.Unicode

/-- A decimal digit of any script. -/
def isDigit (c : Char) : Bool :=
  if c.toNat < 128 then c.isDigit else Category.decimalNumber.holds c

/-- The categories whose characters stand inside words without being alphabetic. -/
def wordCategories : List Category :=
  [.nonspacingMark, .spacingMark, .enclosingMark, .decimalNumber, .connectorPunctuation]

/-- A character that can stand inside a word, in any script. -/
def isWord (c : Char) : Bool :=
  if c.toNat < 128 then c.isAlphanum || c == '_'
  else
    Trait.alphabetic.holds c || c == '\u200C' || c == '\u200D' ||
      wordCategories.any (Category.holds · c)

/-- The word characters. -/
def wordTable : RangeTable :=
  .unions (Trait.alphabetic.table :: .ofText "200C-200D" :: wordCategories.map Category.table)

end RouteAudit.Unicode
