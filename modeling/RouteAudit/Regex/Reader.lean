import RouteAudit.Regex.Automaton.Size
import RouteAudit.Regex.Bracket
import RouteAudit.Regex.Search
import RouteAudit.Unicode.Recent

/-! # Reading a pattern

The reader goes through the text of a pattern once, keeping the groups that are
still open, and builds the expression as it goes: the flags in force decide the
meaning of each atom where it stands. A pattern is refused as a whole when any
part of it is malformed, when it asks for what is no regular expression (a look
around, a reference back), when two captures share a name, and when it nests too
deep or its automata grow too large. Nothing tells these cases apart afterwards.
-/

namespace RouteAudit.Regex

/-- A piece of a pattern: its expression and how deep it nests. A flag setting has
no expression, and nothing may repeat it. -/
structure Piece where
  expr : Option Expr
  depth : Nat
  deriving Repr, BEq, DecidableEq

namespace Piece

/-- How deep constructs may nest. -/
def maxDepth : Nat := 250

/-- A set of characters at a given depth. -/
def ofSet (set : CharSet) (depth : Nat) : Piece := ⟨some (.set set), depth⟩

/-- A single character. -/
def char (flags : Flags) (c : Char) : Piece := ofSet (flags.literal c) 0

/-- An assertion. -/
def ofLook (assertion : Look) : Piece := ⟨some (.look assertion), 0⟩

/-- A flag setting. -/
def setting : Piece := ⟨none, 0⟩

/-- The expression of a piece; a flag setting matches the empty text. -/
def toExpr (piece : Piece) : Expr := piece.expr.getD .empty

/-- The depth of a construct around some pieces. -/
def depthAround (pieces : List Piece) : Nat := 1 + (pieces.map (·.depth)).foldl max 0

/-- Pieces in a row, given last one first. -/
def row : List Piece → Piece
  | [] => ⟨some .empty, 0⟩
  | [piece] => ⟨some piece.toExpr, piece.depth⟩
  | pieces => ⟨some (.seq (pieces.reverse.map toExpr)), depthAround pieces⟩

/-- Branches to choose from, given last one first. -/
def choice : List Piece → Piece
  | [branch] => branch
  | branches => ⟨some (.oneOf (branches.reverse.map toExpr)), depthAround branches⟩

/-- A piece between parentheses. -/
def group (kind : Group) (piece : Piece) : Piece :=
  ⟨some (.group kind piece.toExpr), depthAround [piece]⟩

/-- A repeated piece, if there is something to repeat. -/
def repeat? (greedy : Bool) (least : Nat) (most : Option Nat) (piece : Piece) : Option Piece :=
  piece.expr.map fun body => ⟨some (.repeated greedy least most body), depthAround [piece]⟩

end Piece

/-- What is known of the innermost open group: its finished branches and the
pieces of the branch being read, last ones first. -/
structure Level where
  branches : List Piece
  pieces : List Piece
  deriving Repr, BEq, DecidableEq

namespace Level

/-- A group that has just been opened. -/
def fresh : Level := ⟨[], []⟩

/-- Everything on the level as one piece. -/
def close (level : Level) : Piece :=
  .choice (.row level.pieces :: level.branches)

end Level

/-- An open group: the level around it, its kind, and the flags to go back to. -/
structure OpenGroup where
  around : Level
  kind : Group
  flags : Flags
  deriving Repr, BEq, DecidableEq

/-- Where the reader stands. -/
structure Reader where
  flags : Flags := {}
  level : Level := .fresh
  groups : List OpenGroup := []
  names : List String := []
  deriving Repr, BEq, DecidableEq

namespace Reader

/-- Adds a piece to the branch being read. -/
def push (r : Reader) (piece : Piece) : Reader :=
  { r with level := { r.level with pieces := piece :: r.level.pieces } }

/-- Repeats the piece read last. -/
def repeatLast? (r : Reader) (greedy : Bool) (least : Nat) (most : Option Nat) :
    Option Reader :=
  match r.level.pieces with
  | [] => none
  | piece :: pieces => do
    let piece ← piece.repeat? (greedy != r.flags.lazyFirst) least most
    return { r with level := { r.level with pieces := piece :: pieces } }

/-- Reads the mark that makes a repetition lazy. -/
def readGreed : List Char → Bool × List Char
  | '?' :: cs => (false, cs)
  | cs => (true, cs)

/-- A repetition count. Blanks around its digits never count. -/
def readCount? (flags : Flags) (cs : List Char) : Option (Nat × List Char) :=
  let (digits, rest) := takeCounted flags.loose Char.isDigit false (cs.dropWhile Text.isBlank)
  if digits.isEmpty then none
  else
    let n := digits.foldl (fun n d => 10 * n + (d.toNat - '0'.toNat)) 0
    if n < UInt32.size then some (n, flags.next (rest.dropWhile Text.isBlank)) else none

/-- The bounds of a counted repetition, from after its opening brace up to and
including the closing one. -/
def readBounds? (flags : Flags) (cs : List Char) :
    Option (Nat × Option Nat × List Char) := do
  let (least, rest) ← readCount? flags (flags.next cs)
  match rest with
  | '\x7d' :: rest => some (least, some least, rest)
  | ',' :: rest =>
    match flags.next rest with
    | '\x7d' :: rest => some (least, none, rest)
    | rest =>
      match ← readCount? flags rest with
      | (most, '\x7d' :: rest) => if least ≤ most then some (least, some most, rest) else none
      | _ => none
  | _ => none

/-- Whether a character may stand in the name of a capture. -/
def isNameChar (isFirst : Bool) (c : Char) : Bool :=
  if isFirst then c == '_' || Unicode.Recent.isAlphabetic c
  else c == '_' || c == '.' || c == '[' || c == ']' || Unicode.Recent.isAlphanumeric c

/-- The name of a capture, up to its closing angle bracket. -/
def readName? (cs : List Char) : Option (String × List Char) :=
  match cs.span (· ≠ '>') with
  | (first :: others, _ :: rest) =>
    if isNameChar true first && others.all (isNameChar false) then
      some (String.ofList (first :: others), rest)
    else none
  | _ => none

/-- The switches of a flag setting, up to the character that ends it: a colon before
the contents of a group, or a closing parenthesis. -/
def readSwitches? (seen : List Flags.Switch) :
    List Char → Option (List Flags.Switch × Char × List Char)
  | [] => none
  | c :: cs =>
    if c = ':' ∨ c = ')' then
      if seen.head? = some .hyphen then none else some (seen.reverse, c, cs)
    else do
      let switch ← if c = '-' then some .hyphen else (Flag.ofLetter? c).map .flag
      if seen.contains switch then none else readSwitches? (switch :: seen) cs

/-- Opens a group, whose contents follow. -/
def openGroup (r : Reader) (kind : Group) (flags : Flags) : Reader :=
  { r with flags, level := .fresh, groups := ⟨r.level, kind, r.flags⟩ :: r.groups }

/-- Opens a group with a name, unless the name is taken. -/
def openNamed? (r : Reader) (cs : List Char) : Option (Reader × List Char) := do
  let (name, rest) ← readName? cs
  if r.names.contains name then none
  else some ({ r.openGroup (.named name) r.flags with names := name :: r.names }, rest)

/-- Reads what follows an opening parenthesis: a look around is refused, a name or
flags are taken, and a flag setting may stand alone. -/
def openParen? (r : Reader) (cs : List Char) : Option (Reader × List Char) :=
  match r.flags.next cs with
  | '?' :: 'P' :: '<' :: cs => openNamed? r cs
  | '?' :: '<' :: '=' :: _ | '?' :: '<' :: '!' :: _ | '?' :: '=' :: _ | '?' :: '!' :: _ => none
  | '?' :: '<' :: cs => openNamed? r cs
  | '?' :: cs => do
    let (switches, stop, rest) ← readSwitches? [] cs
    let flags := r.flags.apply true switches
    if stop = ':' then some (r.openGroup .plain flags, rest)
    else if switches.isEmpty then none
    else some ({ r.push .setting with flags }, rest)
  | cs => some (r.openGroup .numbered r.flags, cs)

/-- Closes the innermost group. -/
def closeParen? (r : Reader) : Option Reader :=
  match r.groups with
  | [] => none
  | group :: groups =>
    let piece := Piece.group group.kind r.level.close
    some { r with
      flags := group.flags
      level := { group.around with pieces := piece :: group.around.pieces }
      groups }

/-- Adds what an escape stands for. -/
def pushEscaped? (r : Reader) : Escaped → Option Reader
  | .char c asByte => if r.flags.allows c asByte then some (r.push (.char r.flags c)) else none
  | .set chars => some (r.push (.ofSet chars 0))
  | .look assertion => some (r.push (.ofLook assertion))

/-- Reads one construct, whose first character is given apart. -/
def step? (r : Reader) (c : Char) (cs : List Char) : Option (Reader × List Char) :=
  match c with
  | '(' => r.openParen? cs
  | ')' => r.closeParen?.map (·, cs)
  | '|' =>
    let branches := Piece.row r.level.pieces :: r.level.branches
    some ({ r with level := ⟨branches, []⟩ }, cs)
  | '[' => do
    let (part, rest) ← readClass? r.flags cs
    return (r.push (.ofSet part.set part.depth), rest)
  | '?' =>
    let (greedy, rest) := readGreed cs
    (r.repeatLast? greedy 0 (some 1)).map (·, rest)
  | '*' =>
    let (greedy, rest) := readGreed cs
    (r.repeatLast? greedy 0 none).map (·, rest)
  | '+' =>
    let (greedy, rest) := readGreed cs
    (r.repeatLast? greedy 1 none).map (·, rest)
  | '\x7b' => do
    let (least, most, rest) ← readBounds? r.flags cs
    let (greedy, rest) := readGreed (r.flags.next rest)
    (r.repeatLast? greedy least most).map (·, rest)
  | '\\' => do
    let (escaped, rest) ← readEscape? r.flags cs
    let r ← r.pushEscaped? escaped
    return (r, rest)
  | '.' => r.flags.dot?.map fun set => (r.push (.ofSet set 0), cs)
  | '^' => some (r.push (.ofLook r.flags.caret), cs)
  | '$' => some (r.push (.ofLook r.flags.dollar), cs)
  | c => some (r.push (.char r.flags c), cs)

/-- The expression of a pattern that has been read to its end. -/
def finish? (r : Reader) : Option Expr :=
  let piece := r.level.close
  let e := piece.toExpr
  if r.groups.isEmpty && piece.depth ≤ Piece.maxDepth && e.fits then some e else none

/-- Reads on to the end. Each round takes at least one character. -/
def run? : (fuel : Nat) → Reader → List Char → Option Expr
  | 0, _, _ => none
  | fuel + 1, r, cs =>
    match r.flags.next cs with
    | [] => r.finish?
    | c :: cs => do
      let (r, rest) ← r.step? c cs
      run? fuel r rest

end Reader

/-- The expression that a pattern writes, if it writes one. -/
def Expr.ofPattern? (pattern : List Char) : Option Expr :=
  Reader.run? (pattern.length + 1) {} pattern

/-- The regular expression that a pattern writes, if it writes one. -/
def Searcher.ofPattern? (pattern : List Char) : Option Searcher :=
  (Expr.ofPattern? pattern).map Searcher.ofExpr

end RouteAudit.Regex
