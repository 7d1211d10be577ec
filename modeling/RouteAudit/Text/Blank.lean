/-! # Blank characters and trimming

A character is blank when it has the Unicode property `White_Space`. The zero
width space, the byte order mark and the Mongolian vowel separator do not have
it, so they survive trimming. Trimming works on characters, never on bytes.
-/

namespace RouteAudit.Text

/-- The property `White_Space`, which a handful of ranges spell out in full. -/
def isBlank (c : Char) : Bool :=
  ('\u0009' ≤ c && c ≤ '\u000D') || c == ' ' || c == '\u0085' || c == '\u00A0' ||
    c == '\u1680' || ('\u2000' ≤ c && c ≤ '\u200A') || c == '\u2028' || c == '\u2029' ||
    c == '\u202F' || c == '\u205F' || c == '\u3000'

/-- Drops what the predicate accepts from the end of a list. -/
def dropTrailing (drop : Char → Bool) (cs : List Char) : List Char :=
  (cs.reverse.dropWhile drop).reverse

/-- Drops blank characters from both ends and keeps those in between. -/
def trimChars (cs : List Char) : List Char :=
  dropTrailing isBlank (cs.dropWhile isBlank)

/-- The text without the blanks around it. -/
def trim (s : String) : String :=
  String.ofList (trimChars s.toList)

/-- A text that trimming leaves empty. -/
def isBlankText (s : String) : Bool :=
  s.toList.all isBlank

/-- Lower case for ASCII letters only; every other character is kept. -/
def lowerAscii (s : String) : String :=
  String.ofList (s.toList.map Char.toLower)

end RouteAudit.Text
