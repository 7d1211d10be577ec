import RouteAudit.Regex.Flags
import RouteAudit.Text.Hex

/-! # Escapes

What follows a backslash: a character that would mean something on its own, a
control character, a code point in hexadecimal, a class, or an assertion.
Digits are refused, because a reference back to a capture is not a regular
expression. Where the `loose` flag is set, blanks and comments inside an escape
with arguments do not count.
-/

namespace RouteAudit.Regex

/-- Drops blanks, and comments from `#` to the end of the line. The first
argument tells whether a comment has been entered. -/
def dropLoose (inComment : Bool) : List Char → List Char
  | [] => []
  | c :: cs =>
    if inComment then dropLoose (c != '\n') cs
    else if Text.isBlank c then dropLoose false cs
    else if c = '#' then dropLoose true cs
    else c :: cs

/-- The rest of a pattern from its next character that counts. -/
def Flags.next (flags : Flags) (cs : List Char) : List Char :=
  if flags.loose then dropLoose false cs else cs

/-- Takes characters that count as long as `keep` holds, and returns the rest from
the first one that it does not hold for. -/
def takeCounted (loose : Bool) (keep : Char → Bool) (inComment : Bool) :
    List Char → List Char × List Char
  | [] => ([], [])
  | c :: cs =>
    if inComment then takeCounted loose keep (c != '\n') cs
    else if loose && Text.isBlank c then takeCounted loose keep false cs
    else if loose && c = '#' then takeCounted loose keep true cs
    else if keep c then
      let (taken, rest) := takeCounted loose keep false cs
      (c :: taken, rest)
    else ([], c :: cs)

/-- What an escape stands for. A character given by two hexadecimal digits stands
for a byte where `unicode` is off. -/
inductive Escaped where
  | char (c : Char) (asByte : Bool)
  | set (chars : CharSet)
  | look (assertion : Look)
  deriving Repr, BEq, DecidableEq

/-- The characters with a meaning of their own in a pattern. -/
def isMeta (c : Char) : Bool :=
  "\\.+*?()|[]\x7b\x7d^$#&-~".toList.contains c

/-- The ASCII characters that a backslash leaves as they are. Letters, digits and
angle brackets are kept for other uses. -/
def isEscapable (c : Char) : Bool :=
  isMeta c || (c.toNat < 128 && !c.isAlphanum && c != '<' && c != '>')

/-- The character that hexadecimal digits write. Surrogates are no characters. -/
def charOfHex? (digits : List Char) : Option Char := do
  let code ← if digits.isEmpty then none
    else digits.foldlM (fun n c => (Text.hexValue? c).map (16 * n + ·)) 0
  if h : code.isValidChar then some (Char.ofNatAux code h) else none

/-- Takes exactly `n` hexadecimal digits. -/
def takeHex? (flags : Flags) : (n : Nat) → List Char → Option (List Char × List Char)
  | 0, cs => some ([], cs)
  | n + 1, cs =>
    match flags.next cs with
    | [] => none
    | c :: cs => do
      let _ ← Text.hexValue? c
      let (digits, rest) ← takeHex? flags n cs
      return (c :: digits, rest)

/-- A code point after `\x`, `\u` or `\U`: two, four or eight digits, or any number
of them between braces. -/
def readHex? (flags : Flags) (digits : Nat) (cs : List Char) : Option (Escaped × List Char) :=
  match flags.next cs with
  | '\x7b' :: cs =>
    match takeCounted flags.loose (· ≠ '\x7d') false cs with
    | (inside, '\x7d' :: rest) => (charOfHex? inside).map fun c => (.char c false, flags.next rest)
    | _ => none
  | cs => do
    let (inside, rest) ← takeHex? flags digits cs
    let c ← charOfHex? inside
    return (.char c (digits == 2), flags.next rest)

/-- A property as it is written between braces: a lone name, or a name with the value
that it has or, after an inequality sign, has not. -/
structure WrittenProperty where
  name : List Char
  value : Option (List Char) := none
  unequal : Bool := false
  deriving Repr, BEq, DecidableEq

namespace WrittenProperty

/-- Splits at the first `!=`. -/
def splitAtUnequal : List Char → Option (List Char × List Char)
  | '!' :: '=' :: cs => some ([], cs)
  | c :: cs => (splitAtUnequal cs).map fun (name, value) => (c :: name, value)
  | [] => none

/-- Finds the sign in what stands between the braces. An inequality sign counts before
a colon and a colon before an equality sign, wherever they stand. -/
def ofInside (cs : List Char) : WrittenProperty :=
  match splitAtUnequal cs with
  | some (name, value) => { name, value := some value, unequal := true }
  | none =>
    match cs.span (· ≠ ':'), cs.span (· ≠ '=') with
    | (name, _ :: value), _ => { name, value := some value }
    | (_, []), (name, _ :: value) => { name, value := some value }
    | (_, []), (_, []) => { name := cs }

/-- The property that is named, whether or not it is the complement that is meant. -/
def which? (written : WrittenProperty) : Option Unicode.Property :=
  match written.value with
  | some value => Unicode.Property.ofValue? written.name value
  | none => Unicode.Property.ofName? written.name

end WrittenProperty

/-- The class of a property as written between braces. An inequality sign negates it
once more. -/
def propertyClass? (flags : Flags) (negated : Bool) (cs : List Char) : Option CharSet :=
  if !flags.unicode then none
  else do
    let written := WrittenProperty.ofInside cs
    let which ← written.which?
    flags.close? (negated != written.unequal) (.property which)

/-- A property after `\p` or `\P`: one letter, or a name between braces. -/
def readProperty? (flags : Flags) (negated : Bool) (cs : List Char) :
    Option (Escaped × List Char) :=
  match flags.next cs with
  | [] => none
  | '\x7b' :: cs =>
    match takeCounted flags.loose (· ≠ '\x7d') false cs with
    | (inside, '\x7d' :: rest) =>
      (propertyClass? flags negated inside).map fun set => (.set set, rest)
    | _ => none
  | '\\' :: _ => none
  | c :: cs => (propertyClass? flags negated [c]).map fun set => (.set set, flags.next cs)

/-- The assertions that `\b` takes between braces. -/
def wordLook? (unicode : Bool) (name : List Char) : Option Look :=
  if name = "start".toList then some (.wordStart unicode)
  else if name = "end".toList then some (.wordEnd unicode)
  else if name = "start-half".toList then some (.noWordBefore unicode)
  else if name = "end-half".toList then some (.noWordAfter unicode)
  else none

/-- What follows `\b`: a name between braces, or nothing. Braces that do not start
like a name are left for a repetition. -/
def readWordEdge? (flags : Flags) (cs : List Char) : Option (Escaped × List Char) :=
  let plain : Escaped × List Char := (.look (.wordEdge flags.unicode), cs)
  match cs with
  | '\x7b' :: inside =>
    let isName := fun c : Char => c.isAlpha || c == '-'
    match flags.next inside with
    | [] => none
    | c :: _ =>
      if isName c then
        match takeCounted flags.loose isName false inside with
        | (name, '\x7d' :: rest) =>
          (wordLook? flags.unicode name).map fun look => (.look look, rest)
        | _ => none
      else some plain
  | _ => some plain

/-- Reads what follows a backslash. -/
def readEscape? (flags : Flags) : List Char → Option (Escaped × List Char)
  | [] => none
  | c :: cs =>
    if isEscapable c then some (.char c false, cs)
    else
      match c with
      | 'x' => readHex? flags 2 cs
      | 'u' => readHex? flags 4 cs
      | 'U' => readHex? flags 8 cs
      | 'p' => readProperty? flags false cs
      | 'P' => readProperty? flags true cs
      | 'a' => some (.char '\u0007' false, cs)
      | 'f' => some (.char '\u000C' false, cs)
      | 't' => some (.char '\t' false, cs)
      | 'n' => some (.char '\n' false, cs)
      | 'r' => some (.char '\r' false, cs)
      | 'v' => some (.char '\u000B' false, cs)
      | 'A' => some (.look .textStart, cs)
      | 'z' => some (.look .textEnd, cs)
      | 'b' => readWordEdge? flags cs
      | 'B' => some (.look (.wordInside flags.unicode), cs)
      | '<' => some (.look (.wordStart flags.unicode), cs)
      | '>' => some (.look (.wordEnd flags.unicode), cs)
      | _ => (flags.letterClass? c).map fun set => (.set set, cs)

/-- A literal character where `unicode` may be off: a byte beyond ASCII is refused. -/
def Flags.allows (flags : Flags) (c : Char) (asByte : Bool) : Bool :=
  flags.unicode || !asByte || c.toNat < 128

end RouteAudit.Regex
