import RouteAudit.Json.Value
import RouteAudit.Text.Hex

/-! # Writing JSON

Two layouts. The compact one has no blanks. In the other one every item and
every entry has a line of its own, indented by two blanks a level, with one
blank after the colon; empty arrays and objects take two characters. There is
no line feed at the end.

In strings, quotes, backslashes and control characters are escaped, five of the
latter by a letter and the others by four lower-case hexadecimal digits.
Everything else stands for itself.
-/

namespace RouteAudit.Json

/-- One character of a string. -/
def escapeChar (c : Char) : List Char :=
  if c = '"' then ['\\', '"']
  else if c = '\\' then ['\\', '\\']
  else if c = '\n' then ['\\', 'n']
  else if c = '\r' then ['\\', 'r']
  else if c = '\t' then ['\\', 't']
  else if c = '\u0008' then ['\\', 'b']
  else if c = '\u000C' then ['\\', 'f']
  else if c.toNat < 32 then ['\\', 'u'] ++ Text.hexDigits 4 c.toNat
  else [c]

/-- A string with its quotes. -/
def quote (s : String) : List Char :=
  '"' :: s.toList.flatMap escapeChar ++ ['"']

/-- The texts in order with a separator between each two. -/
def joinWith (separator : List Char) : List (List Char) → List Char
  | [] => []
  | [text] => text
  | text :: texts => text ++ separator ++ joinWith separator texts

/-- A value that holds no others. A broken string has no text to write. -/
def scalar : Json → List Char
  | null => "null".toList
  | bool true => "true".toList
  | bool false => "false".toList
  | int value => (toString value).toList
  | decimal written => written
  | string value => quote value
  | brokenString => "\"\"".toList
  | array _ => "[]".toList
  | object _ => "\x7b\x7d".toList

/-- The line feed and the indentation of a level. -/
def lineAt (level : Nat) : List Char :=
  '\n' :: List.replicate (2 * level) ' '

mutual

/-- A value laid out over lines, at a level. -/
def prettyAt (level : Nat) : Json → List Char
  | array [] => "[]".toList
  | array (item :: items) =>
    '[' :: lineAt (level + 1) ++ prettyAt (level + 1) item ++ prettyItems level items
  | object [] => "\x7b\x7d".toList
  | object (entry :: entries) =>
    '\x7b' :: lineAt (level + 1) ++ prettyEntry level entry ++ prettyEntries level entries
  | value => scalar value

/-- The items of an array after the first, and its end. -/
def prettyItems (level : Nat) : List Json → List Char
  | [] => lineAt level ++ [']']
  | item :: items =>
    ',' :: lineAt (level + 1) ++ prettyAt (level + 1) item ++ prettyItems level items

/-- One entry of an object. -/
def prettyEntry (level : Nat) : Option String × Json → List Char
  | (key, value) => quote (key.getD "") ++ ": ".toList ++ prettyAt (level + 1) value

/-- The entries of an object after the first, and its end. -/
def prettyEntries (level : Nat) : List (Option String × Json) → List Char
  | [] => lineAt level ++ ['\x7d']
  | entry :: entries =>
    ',' :: lineAt (level + 1) ++ prettyEntry level entry ++ prettyEntries level entries

end

mutual

/-- A value without blanks. -/
def compactChars : Json → List Char
  | array [] => "[]".toList
  | array (item :: items) => '[' :: compactChars item ++ compactItems items
  | object [] => "\x7b\x7d".toList
  | object (entry :: entries) => '\x7b' :: compactEntry entry ++ compactEntries entries
  | value => scalar value

/-- The items of an array after the first, and its end. -/
def compactItems : List Json → List Char
  | [] => [']']
  | item :: items => ',' :: compactChars item ++ compactItems items

/-- An entry of an object. -/
def compactEntry : Option String × Json → List Char
  | (key, value) => quote (key.getD "") ++ ':' :: compactChars value

/-- The entries of an object after the first, and its end. -/
def compactEntries : List (Option String × Json) → List Char
  | [] => ['\x7d']
  | entry :: entries => ',' :: compactEntry entry ++ compactEntries entries

end

/-- The value over several lines. -/
def pretty (value : Json) : String :=
  String.ofList (prettyAt 0 value)

/-- The value on one line. -/
def compact (value : Json) : String :=
  String.ofList (compactChars value)

end RouteAudit.Json
