import RouteAudit.Json.Value
import RouteAudit.Text.Hex

/-! # Reading JSON

The strict grammar: blanks are the space, the tab and the two line ends, numbers
have no leading zeros and no leading plus, strings hold no control characters,
and nothing but blanks follows the value. There is no byte order mark and there
are no comments. How deep values nest does not matter.
-/

namespace RouteAudit.Json

/-- The four blanks. -/
def isSpace (c : Char) : Bool :=
  c == ' ' || c == '\t' || c == '\n' || c == '\r'

/-- The text from its first character that is no blank. -/
def skipSpace (cs : List Char) : List Char :=
  cs.dropWhile isSpace

/-- The code unit that four digits write. -/
def codeUnit? (a b c d : Char) : Option Nat := do
  let a ← Text.hexValue? a
  let b ← Text.hexValue? b
  let c ← Text.hexValue? c
  let d ← Text.hexValue? d
  return ((a * 16 + b) * 16 + c) * 16 + d

/-- One unit of a string as written. -/
inductive Unit16 where
  | char (c : Char)
  /-- A surrogate, escaped. -/
  | surrogate (code : Nat)
  deriving Repr, BEq, DecidableEq

/-- The character that a backslash and a letter write. -/
def letterEscape? : Char → Option Char
  | '"' => some '"'
  | '\\' => some '\\'
  | '/' => some '/'
  | 'b' => some '\u0008'
  | 'f' => some '\u000C'
  | 'n' => some '\n'
  | 'r' => some '\r'
  | 't' => some '\t'
  | _ => none

/-- The unit that a code unit writes. -/
def Unit16.ofCode (code : Nat) : Unit16 :=
  if 0xD800 ≤ code ∧ code < 0xE000 then .surrogate code else .char (Char.ofNat code)

/-- Reads the units of a string up to its closing quote. -/
def readUnits? : List Char → Option (List Unit16 × List Char)
  | [] => none
  | '"' :: cs => some ([], cs)
  | '\\' :: 'u' :: a :: b :: c :: d :: cs => do
    let code ← codeUnit? a b c d
    let (units, rest) ← readUnits? cs
    return (.ofCode code :: units, rest)
  | '\\' :: c :: cs => do
    let c ← letterEscape? c
    let (units, rest) ← readUnits? cs
    return (.char c :: units, rest)
  | c :: cs =>
    if c = '\\' ∨ c.toNat < 32 then none
    else (readUnits? cs).map fun (units, rest) => (.char c :: units, rest)

/-- The characters that units make, unless a surrogate among them has no partner. -/
def charsOfUnits? : List Unit16 → Option (List Char)
  | [] => some []
  | .char c :: units => (charsOfUnits? units).map (c :: ·)
  | .surrogate high :: .surrogate low :: units =>
    if high < 0xDC00 ∧ 0xDC00 ≤ low then
      let c := Char.ofNat (0x10000 + (high - 0xD800) * 0x400 + (low - 0xDC00))
      (charsOfUnits? units).map (c :: ·)
    else none
  | .surrogate _ :: _ => none

/-- Reads a string from after its opening quote. -/
def readString? (cs : List Char) : Option (Option String × List Char) :=
  (readUnits? cs).map fun (units, rest) =>
    ((charsOfUnits? units).map String.ofList, rest)

/-- The number that decimal digits write. -/
def natOfDigits (digits : List Char) : Nat :=
  digits.foldl (fun n d => 10 * n + (d.toNat - '0'.toNat)) 0

/-- Reads the digits before a point: a zero alone, or digits that do not start with
one. -/
def readWhole? (cs : List Char) : Option (List Char × List Char) :=
  match cs.span Char.isDigit with
  | ([], _) => none
  | (['0'], rest) => some (['0'], rest)
  | ('0' :: _, _) => none
  | (digits, rest) => some (digits, rest)

/-- Reads a point and digits, if there is a point. -/
def readFraction? : List Char → Option (List Char × List Char)
  | '.' :: cs =>
    match cs.span Char.isDigit with
    | ([], _) => none
    | (digits, rest) => some ('.' :: digits, rest)
  | cs => some ([], cs)

/-- Reads a sign, if there is one. -/
def readSign : List Char → List Char × List Char
  | '+' :: cs => (['+'], cs)
  | '-' :: cs => (['-'], cs)
  | cs => ([], cs)

/-- Reads an exponent, if there is one. -/
def readExponent? : List Char → Option (List Char × List Char)
  | [] => some ([], [])
  | c :: cs =>
    if c = 'e' ∨ c = 'E' then
      let (sign, rest) := readSign cs
      match rest.span Char.isDigit with
      | ([], _) => none
      | (digits, rest) => some (c :: sign ++ digits, rest)
    else some ([], c :: cs)

/-- Reads a number. -/
def readNumber? (cs : List Char) : Option (Json × List Char) := do
  let (negative, cs) :=
    match cs with
    | '-' :: cs => (true, cs)
    | cs => (false, cs)
  let (whole, rest) ← readWhole? cs
  let (fraction, rest) ← readFraction? rest
  let (exponent, rest) ← readExponent? rest
  let n := natOfDigits whole
  if fraction.isEmpty && exponent.isEmpty && !(negative && n == 0) then
    return (.int (if negative then -n else n), rest)
  else
    return (.decimal ((if negative then ['-'] else []) ++ whole ++ fraction ++ exponent), rest)

/-- Drops a given start of the text. -/
def dropWord? : List Char → List Char → Option (List Char)
  | [], cs => some cs
  | w :: ws, c :: cs => if w = c then dropWord? ws cs else none
  | _ :: _, [] => none

mutual

/-- Reads a value whose first character is not a blank. Values, items and entries
take at least one character each, so the length of the text is fuel enough. -/
def readValue? : (fuel : Nat) → List Char → Option (Json × List Char)
  | 0, _ => none
  | _, [] => none
  | fuel + 1, c :: cs =>
    if c = '"' then
      (readString? cs).map fun (s, rest) =>
        (match s with | some s => .string s | none => .brokenString, rest)
    else if c = '[' then
      match skipSpace cs with
      | ']' :: rest => some (.array [], rest)
      | cs => do
        let (item, rest) ← readValue? fuel cs
        let (items, rest) ← readItems? fuel rest
        return (.array (item :: items), rest)
    else if c = '\x7b' then
      match skipSpace cs with
      | '\x7d' :: rest => some (.object [], rest)
      | cs => do
        let (entry, rest) ← readEntry? fuel cs
        let (entries, rest) ← readEntries? fuel rest
        return (.object (entry :: entries), rest)
    else if c = 't' then (dropWord? "rue".toList cs).map fun rest => (.bool true, rest)
    else if c = 'f' then (dropWord? "alse".toList cs).map fun rest => (.bool false, rest)
    else if c = 'n' then (dropWord? "ull".toList cs).map fun rest => (.null, rest)
    else readNumber? (c :: cs)

/-- Reads the items of an array after the first. -/
def readItems? : (fuel : Nat) → List Char → Option (List Json × List Char)
  | 0, _ => none
  | fuel + 1, cs =>
    match skipSpace cs with
    | ']' :: rest => some ([], rest)
    | ',' :: cs => do
      let (item, rest) ← readValue? fuel (skipSpace cs)
      let (items, rest) ← readItems? fuel rest
      return (item :: items, rest)
    | _ => none

/-- Reads an entry of an object from its key on. -/
def readEntry? : (fuel : Nat) → List Char → Option ((Option String × Json) × List Char)
  | 0, _ => none
  | fuel + 1, '"' :: cs => do
    let (key, rest) ← readString? cs
    match skipSpace rest with
    | ':' :: cs =>
      let (value, rest) ← readValue? fuel (skipSpace cs)
      return ((key, value), rest)
    | _ => none
  | _, _ => none

/-- Reads the entries of an object after the first. -/
def readEntries? : (fuel : Nat) → List Char → Option (List (Option String × Json) × List Char)
  | 0, _ => none
  | fuel + 1, cs =>
    match skipSpace cs with
    | '\x7d' :: rest => some ([], rest)
    | ',' :: cs => do
      let (entry, rest) ← readEntry? fuel (skipSpace cs)
      let (entries, rest) ← readEntries? fuel rest
      return (entry :: entries, rest)
    | _ => none

end

/-- The value that a whole text writes. -/
def parse? (text : String) : Option Json := do
  let cs := text.toList
  let (value, rest) ← readValue? (2 * cs.length + 2) (skipSpace cs)
  if (skipSpace rest).isEmpty then some value else none

end RouteAudit.Json
