import RouteAudit.Text.Hex
import RouteAudit.Unicode.Recent

/-! # Quoted paths

How a path is shown inside a message: between double quotes, with double quotes and
backslashes escaped, the common control characters by a letter, and whatever has no
shape of its own by its code point.
-/

namespace RouteAudit.Text

/-- Letters that only fill a place in a Hangul syllable and are not seen. -/
def isFiller (c : Char) : Bool :=
  c == '\u115F' || c == '\u1160' || c == '\u3164' || c == '\uFFA0'

/-- Whether a character has no shape of its own: controls, formats, private use,
separators other than the blank, fillers, marks that join what stands before them, and
what is no character yet. -/
def isShapeless (c : Char) : Bool :=
  if c.toNat < 0x7F then c.toNat < 0x20
  else
    open Unicode.Category in
    [control, format, privateUse, spaceSeparator, lineSeparator, paragraphSeparator].any
        (·.holds c) ||
      isFiller c || Unicode.Recent.isGraphemeExtend c || !Unicode.Recent.isAssigned c

/-- The digits of a number in hexadecimal, without zeros before it. -/
def hexNumber (n : Nat) : List Char :=
  match (hexDigits 8 n).dropWhile (· == '0') with
  | [] => ['0']
  | digits => digits

/-- One character of a quoted path. -/
def quotedChar (c : Char) : List Char :=
  if c = '"' ∨ c = '\\' then ['\\', c]
  else if c = '\n' then ['\\', 'n']
  else if c = '\r' then ['\\', 'r']
  else if c = '\t' then ['\\', 't']
  else if c.toNat = 0 then ['\\', '0']
  else if isShapeless c then ['\\', 'u', '\x7b'] ++ hexNumber c.toNat ++ ['\x7d']
  else [c]

/-- A path with its quotes. -/
def quoted (path : String) : String :=
  String.ofList ('"' :: path.toList.flatMap quotedChar ++ ['"'])

end RouteAudit.Text
