import RouteAudit.Pattern.Facts

/-! # Repairing risky patterns

Four ways of changing the text of a pattern, each a function of the text alone,
and the search for segments that lead to internal surfaces. None of them asks
whether the result is better; that is decided where they are applied.
-/

namespace RouteAudit.Remedy

open Pattern (isNameStart isNameChar)

/-- The group that stands in for the values an operator has to fill in. -/
def boundedUnion : List Char := "(allowed1|allowed2|allowed3)".toList

/-! ## Pipes in groups -/

/-- Whether a backslash stands right before a pipe somewhere. -/
def hasEscapedPipe : List Char → Bool
  | '\\' :: '|' :: _ => true
  | _ :: cs => hasEscapedPipe cs
  | [] => false

/-- Puts a backslash before every pipe inside a group that does not have one, and
counts them. `depth` is the number of open groups; a closing parenthesis outside
of all groups closes nothing. -/
def escapePipes (depth : Nat) : List Char → List Char × Nat
  | [] => ([], 0)
  | ['\\'] => (['\\'], 0)
  | '\\' :: c :: cs =>
    let (rest, n) := escapePipes depth cs
    ('\\' :: c :: rest, n)
  | c :: cs =>
    if c = '|' ∧ depth > 0 then
      let (rest, n) := escapePipes depth cs
      ('\\' :: '|' :: rest, n + 1)
    else
      let depth := if c = '(' then depth + 1 else if c = ')' then depth - 1 else depth
      let (rest, n) := escapePipes depth cs
      (c :: rest, n)

/-! ## A wildcard at the end -/

/-- A group without parentheses inside, if the text starts with one: what follows
it. -/
def skipFlatGroup? : List Char → Option (List Char)
  | '(' :: cs =>
    match cs.dropWhile fun c => c ≠ '(' && c ≠ ')' with
    | ')' :: rest => some rest
    | _ => none
  | _ => none

/-- The name of the parameter that the text after a colon consists of, when it ends
in a modifier for several segments. -/
def repeatedName? (cs : List Char) : Option (List Char) :=
  let (name, rest) := cs.span isNameChar
  let rest := (skipFlatGroup? rest).getD rest
  if name.head?.any isNameStart && (rest == ['*'] || rest == ['+']) then some name else none

/-- Splits a pattern before the first parameter that takes several segments and
ends it; the parameter is given by its name. -/
def splitRepeatedParam? : List Char → Option (List Char × List Char)
  | [] => none
  | c :: cs =>
    match if c = ':' then repeatedName? cs else none with
    | some name => some ([], name)
    | none => (splitRepeatedParam? cs).map fun (head, name) => (c :: head, name)

/-- The pattern without the star that ends it, when a slash stands before that. -/
def withoutFinalStar? : List Char → Option (List Char)
  | ['/', '*'] => some ['/']
  | c :: cs => (withoutFinalStar? cs).map (c :: ·)
  | [] => none

/-! ## Double wildcards -/

/-- A pattern cut at its double wildcards: runs of two or more stars, outside of
groups, that fill a whole segment. -/
inductive Chunk where
  | char (c : Char)
  | run
  deriving Repr, BEq, DecidableEq

/-- What some stars stand for, given whether a segment starts before them and ends
behind them. -/
def Chunk.ofStars (stars : Nat) (opens closes : Bool) : List Chunk :=
  if stars ≥ 2 && opens && closes then [.run] else List.replicate stars (.char '*')

/-- Whether a segment ends before the character. -/
def endsSegment (c : Char) : Bool := c == '/' || c == '?' || c == '#'

/-- Cuts the remaining text. `opens` tells whether a segment starts here, apart from
the stars read last. -/
def cut (depth : Nat) (opens : Bool) (stars : Nat) : List Char → List Chunk
  | [] => Chunk.ofStars stars opens true
  | ['\\'] => Chunk.ofStars stars opens false ++ [.char '\\']
  | '\\' :: c :: cs =>
    Chunk.ofStars stars opens false ++ .char '\\' :: .char c :: cut depth (c == '/') 0 cs
  | c :: cs =>
    -- Stars inside a group belong to its body.
    if c = '*' ∧ depth = 0 then cut depth opens (stars + 1) cs
    else
      let depth := if c = '(' then depth + 1 else if c = ')' then depth - 1 else depth
      Chunk.ofStars stars opens (endsSegment c) ++ .char c :: cut depth (c == '/') 0 cs

/-- The chunks of a pattern. -/
def chunks (pattern : List Char) : List Chunk := cut 0 true 0 pattern

/-- How many double wildcards a pattern has. -/
def runCount (pattern : List Char) : Nat := (chunks pattern).count .run

/-- The names behind the colons of a pattern, with those that start with a digit. -/
def takenNames : List Char → List (List Char)
  | [] => []
  | c :: cs =>
    let names := takenNames cs
    if c = ':' then
      let name := cs.takeWhile isNameChar
      if name.isEmpty then names else name :: names
    else names

/-- The first `n` names in the order `seg1`, `seg2`, … that are not taken. -/
def freshNames (taken : List (List Char)) (n : Nat) : List (List Char) :=
  let candidates := (List.range (n + taken.length)).map fun i =>
    "seg".toList ++ (toString (i + 1)).toList
  (candidates.filter fun name => !taken.contains name).take n

/-- How many optional segments replace a double wildcard. -/
def segmentsPerRun : Nat := 3

/-- Optional parameters with the given names, with slashes between them. -/
def optionalSegments : List (List Char) → List Char
  | [] => []
  | [name] => ':' :: name ++ ['?']
  | name :: names => ':' :: name ++ '?' :: '/' :: optionalSegments names

/-- Writes chunks, taking the names for each double wildcard from the front. -/
def fillRuns (names : List (List Char)) : List Chunk → List Char
  | [] => []
  | .char c :: rest => c :: fillRuns names rest
  | .run :: rest =>
    optionalSegments (names.take segmentsPerRun) ++ fillRuns (names.drop segmentsPerRun) rest

/-- The pattern with every double wildcard replaced. -/
def expandRuns (pattern : List Char) : List Char :=
  let cuts := chunks pattern
  fillRuns (freshNames (takenNames pattern) (segmentsPerRun * cuts.count .run)) cuts

/-! ## Traversal -/

/-- Whether a segment starts behind the character, or at the start of the text. -/
def startsSegment (before : Option Char) : Bool :=
  before.all fun c => c == '/' || c == '\\'

/-- Whether no name goes on with the character, or at the end of the text. -/
def endsName (after : Option Char) : Bool :=
  after.all fun c => !(c.isAlphanum || c == '_' || c == '.' || c == '-')

/-- Whether two dots that end a name stand at the start of the text. -/
def startsWithDots : List Char → Bool
  | '.' :: '.' :: cs => endsName cs.head?
  | _ => false

/-- Percent-encodes the two dots of every segment that consists of them. `second`
tells that the next character is the second of two that have been encoded. -/
def encodeFrom (second : Bool) (before : Option Char) : List Char → List Char
  | [] => []
  | c :: cs =>
    if second then encodeFrom false (some c) cs
    else if startsSegment before && startsWithDots (c :: cs) then
      "%2E%2E".toList ++ encodeFrom true (some c) cs
    else c :: encodeFrom false (some c) cs

/-- The pattern with its traversal sequences encoded. -/
def encodeTraversal (pattern : List Char) : List Char :=
  encodeFrom false none pattern

/-! ## Internal surfaces -/

/-- The names of segments that lead to internal surfaces. -/
def sensitiveNames : List String :=
  ["admin", "internal", "debug", "management", "actuator", "private"]

/-- The path of a pattern: what follows the host, if a scheme is named. -/
def pathPart (pattern : List Char) : List Char :=
  go pattern
where
  go : List Char → List Char
    | ':' :: '/' :: '/' :: cs => cs.dropWhile (· ≠ '/')
    | _ :: cs => go cs
    | [] => pattern

/-- The segments of a path, in order. Empty ones are left out. -/
def segments (current : List Char) : List Char → List (List Char)
  | [] => if current.isEmpty then [] else [current.reverse]
  | c :: cs =>
    if endsSegment c then
      if current.isEmpty then segments [] cs else current.reverse :: segments [] cs
    else segments (c :: current) cs

/-- The sensitive segments of a pattern in lower case, each as often as it occurs. -/
def sensitiveSegments (pattern : List Char) : List String :=
  ((segments [] (pathPart pattern)).map fun segment =>
    String.ofList (segment.map Char.toLower)).filter sensitiveNames.contains

end RouteAudit.Remedy
