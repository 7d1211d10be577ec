import RouteAudit.Regex.Escape

/-! # Classes between brackets

A bracket lists characters, ranges, escapes, named ASCII classes and further
brackets; `&&`, `--` and `~~` join two such lists and group to the left. A
closing bracket that would leave the list empty is a member, and so are the
hyphens right after the opening. Every construct that nests counts toward the
nesting limit of the whole pattern, so a class is read together with its depth.
-/

namespace RouteAudit.Regex

/-- Operations between the lists of a bracket. -/
inductive ClassOp where
  | inter
  | diff
  | symmDiff
  deriving Repr, BEq, DecidableEq

/-- The set that an operation makes. -/
def ClassOp.apply : ClassOp → CharSet → CharSet → CharSet
  | .inter => .inter
  | .diff => .diff
  | .symmDiff => .symmDiff

/-- A class with how deep it nests. -/
structure ClassPart where
  set : CharSet
  depth : Nat
  deriving Repr, BEq, DecidableEq

/-- A bracket that is being read: its items so far, last one first, and the
operation that waits for them as its right side. -/
structure Bracket where
  negated : Bool
  items : List ClassPart
  pending : Option (ClassOp × ClassPart)
  deriving Repr, BEq, DecidableEq

namespace Bracket

/-- The items read so far as one class. Two or more form a union of their own. -/
def union (bracket : Bracket) : ClassPart :=
  match bracket.items with
  | [] => ⟨.none, 0⟩
  | [item] => item
  | items =>
    ⟨.unions (items.reverse.map (·.set)), 1 + (items.map (·.depth)).foldl max 0⟩

/-- The items read so far, joined to what waits for them. -/
def joined (flags : Flags) (bracket : Bracket) : ClassPart :=
  let right := bracket.union
  match bracket.pending with
  | none => right
  | some (op, left) =>
    ⟨op.apply (flags.fold left.set) (flags.fold right.set), 1 + max left.depth right.depth⟩

/-- The class of the bracket at its closing. -/
def close? (flags : Flags) (bracket : Bracket) : Option ClassPart := do
  let inner := bracket.joined flags
  let set ← flags.close? bracket.negated inner.set
  return ⟨set, 1 + inner.depth⟩

/-- Adds an item. -/
def push (bracket : Bracket) (item : ClassPart) : Bracket :=
  { bracket with items := item :: bracket.items }

/-- Starts the right side of an operation. -/
def operate (flags : Flags) (bracket : Bracket) (op : ClassOp) : Bracket :=
  { bracket with items := [], pending := some (op, bracket.joined flags) }

/-- Reads the hyphens right after an opening, as members. -/
def leadingHyphens (flags : Flags) (fuel : Nat) (items : List ClassPart) (cs : List Char) :
    Option (List ClassPart × List Char) :=
  match fuel, cs with
  | _, [] => none
  | fuel + 1, '-' :: cs =>
    leadingHyphens flags fuel (⟨.single '-', 0⟩ :: items) (flags.next cs)
  | _, cs => some (items, cs)

/-- Reads the opening of a bracket, from after it up to its first item proper. -/
def open? (flags : Flags) (cs : List Char) : Option (Bracket × List Char) := do
  let (negated, cs) :=
    match flags.next cs with
    | '^' :: cs => (true, flags.next cs)
    | cs => (false, cs)
  let (items, cs) ← leadingHyphens flags cs.length [] cs
  match items, cs with
  -- A closing bracket that comes first is a member.
  | [], ']' :: cs =>
    match flags.next cs with
    | [] => none
    | cs => some (⟨negated, [⟨.single ']', 0⟩], none⟩, cs)
  | items, cs => some (⟨negated, items, none⟩, cs)

end Bracket

/-- The named ASCII classes. -/
def asciiClass? (name : String) : Option CharSet :=
  let digits := CharSet.range '0' '9'
  let lower := CharSet.range 'a' 'z'
  let upper := CharSet.range 'A' 'Z'
  match name with
  | "alnum" => some (.unions [digits, upper, lower])
  | "alpha" => some (.union upper lower)
  | "ascii" => some (.range '\u0000' '\u007F')
  | "blank" => some (.oneOf ['\t', ' '])
  | "cntrl" => some (.union (.range '\u0000' '\u001F') (.single '\u007F'))
  | "digit" => some digits
  | "graph" => some (.range '!' '~')
  | "lower" => some lower
  | "print" => some (.range ' ' '~')
  | "punct" =>
    some (.unions [.range '!' '/', .range ':' '@', .range '[' '\x60', .range '\x7b' '~'])
  | "space" => some Flags.asciiBlanks
  | "upper" => some upper
  | "word" => some Flags.asciiWord
  | "xdigit" => some (.unions [digits, .range 'A' 'F', .range 'a' 'f'])
  | _ => none

/-- A named ASCII class such as `[:alpha:]` or `[:^alpha:]`, from after its first
bracket. Anything else there is an ordinary bracket. -/
def readAsciiClass? (cs : List Char) : Option (Bool × CharSet × List Char) :=
  match cs with
  | ':' :: cs =>
    let (negated, cs) :=
      match cs with
      | '^' :: cs => (true, cs)
      | cs => (false, cs)
    match cs.span (· ≠ ':') with
    | (name, ':' :: ']' :: rest) =>
      (asciiClass? (String.ofList name)).map fun set => (negated, set, rest)
    | _ => none
  | _ => none

/-- One end of a range, or an item of its own. -/
inductive ClassAtom where
  | char (c : Char)
  | set (chars : CharSet)
  deriving Repr, BEq, DecidableEq

namespace ClassAtom

/-- Reads one atom. An assertion is no member of a class, and without `unicode`
neither is a character beyond ASCII. -/
def read? (flags : Flags) : List Char → Option (ClassAtom × List Char)
  | [] => none
  | '\\' :: cs =>
    match readEscape? flags cs with
    | some (.char c _, rest) =>
      if flags.unicode || c.toNat < 128 then some (.char c, rest) else none
    | some (.set chars, rest) => some (.set chars, rest)
    | some (.look _, _) | none => none
  | c :: cs => if flags.unicode || c.toNat < 128 then some (.char c, cs) else none

/-- The set of one atom. -/
def toSet : ClassAtom → CharSet
  | char c => .single c
  | set chars => chars

end ClassAtom

/-- The first character of a text that is no blank and no number sign that opens a
comment. Nothing closes the comment, so the character may stand inside it. -/
def firstMark? (inComment : Bool) : List Char → Option Char
  | [] => none
  | c :: cs =>
    if Text.isBlank c then firstMark? inComment cs
    else if c = '#' ∧ !inComment then firstMark? true cs
    else some c

/-- The character that decides what a hyphen does, given what follows the hyphen. -/
def afterHyphen? (flags : Flags) (after : List Char) : Option Char :=
  if flags.loose then firstMark? false after <|> after.head? else after.head?

/-- Reads an atom or a range. A hyphen makes a range unless a closing bracket or
another hyphen is seen behind it. The look ahead is short: it does not pass over a
comment, though the reading of the range does. -/
def readRange? (flags : Flags) (cs : List Char) : Option (CharSet × List Char) := do
  let (first, rest) ← ClassAtom.read? flags cs
  match flags.next rest with
  | [] => none
  | '-' :: after =>
    if afterHyphen? flags after = some ']' ∨ afterHyphen? flags after = some '-' then
      some (first.toSet, '-' :: after)
    else
      match first, ← ClassAtom.read? flags (flags.next after) with
      | .char first, (.char last, rest) =>
        if first ≤ last then some (.range first last, rest) else none
      | _, _ => none
  | rest => some (first.toSet, rest)

/-- Reads on inside a bracket until the outermost one closes. Each round takes at
least one character, so the length of the pattern is fuel enough. -/
def readBracket? (flags : Flags) :
    (fuel : Nat) → (outer : List Bracket) → Bracket → List Char → Option (ClassPart × List Char)
  | 0, _, _, _ => none
  | fuel + 1, outer, bracket, cs =>
    match flags.next cs with
    | [] => none
    | '[' :: cs =>
      match readAsciiClass? cs with
      | some (negated, set, rest) => do
        let set ← flags.close? negated set
        readBracket? flags fuel outer (bracket.push ⟨set, 0⟩) rest
      | none => do
        let (inner, rest) ← Bracket.open? flags cs
        readBracket? flags fuel (bracket :: outer) inner rest
    | ']' :: cs => do
      let part ← bracket.close? flags
      match outer with
      | [] => some (part, cs)
      | enclosing :: outer => readBracket? flags fuel outer (enclosing.push part) cs
    | '&' :: '&' :: cs => readBracket? flags fuel outer (bracket.operate flags .inter) cs
    | '-' :: '-' :: cs => readBracket? flags fuel outer (bracket.operate flags .diff) cs
    | '~' :: '~' :: cs => readBracket? flags fuel outer (bracket.operate flags .symmDiff) cs
    | cs => do
      let (set, rest) ← readRange? flags cs
      readBracket? flags fuel outer (bracket.push ⟨set, 0⟩) rest

/-- Reads a whole class, from after its opening bracket. -/
def readClass? (flags : Flags) (cs : List Char) : Option (ClassPart × List Char) := do
  let (bracket, rest) ← Bracket.open? flags cs
  readBracket? flags (cs.length + 1) [] bracket rest

end RouteAudit.Regex
