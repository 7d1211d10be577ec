import RouteAudit.Pattern.Facts

/-! # Templates

A template is a row of items: characters, parameters, groups, wildcards and the
two ends of a block. `Template.read` takes a text apart or tells what is wrong
with it and where, counting characters; what it reads first decides, except that
an unclosed block shows at the end only. `Template.regexText` writes the pattern
of a regular expression that matches what the template describes.

The body of a group is copied as it stands. Reading it counts parentheses and
skips escapes and has no other opinion on it.
-/

namespace RouteAudit

/-- How often a parameter, a group or a block may occur. -/
inductive Modifier where
  | optional
  | zeroOrMore
  | oneOrMore
  deriving Repr, BEq, DecidableEq

namespace Modifier

/-- The modifier that a character writes. -/
def ofChar? : Char → Option Modifier
  | '?' => some .optional
  | '*' => some .zeroOrMore
  | '+' => some .oneOrMore
  | _ => none

/-- The character that writes a modifier. -/
def char : Modifier → Char
  | optional => '?'
  | zeroOrMore => '*'
  | oneOrMore => '+'

/-- Takes the modifier at the start of a text, if there is one. -/
def read : List Char → Option Modifier × List Char
  | [] => (none, [])
  | c :: cs =>
    match ofChar? c with
    | some m => (some m, cs)
    | none => (none, c :: cs)

end Modifier

/-- What can be wrong with a template. -/
inductive TemplateFault where
  | danglingEscape
  | emptyGroup
  | unbalancedGroup
  | strayParenthesis
  | strayBrace
  | unclosedBrace
  deriving Repr, BEq, DecidableEq

/-- The words for what is wrong. -/
def TemplateFault.reason : TemplateFault → String
  | danglingEscape => "dangling escape"
  | emptyGroup => "empty regex group"
  | unbalancedGroup => "unbalanced regex group"
  | strayParenthesis => "unmatched ')'"
  | strayBrace => "unmatched '\x7d'"
  | unclosedBrace => "unclosed '\x7b'"

/-- What is wrong with a template, and before which character. -/
structure TemplateError where
  offset : Nat
  fault : TemplateFault
  deriving Repr, BEq, DecidableEq

/-- One item of a template. -/
inductive Item where
  /-- A character that stands for itself, written plainly or behind a backslash. -/
  | char (c : Char) (escaped : Bool)
  /-- A parameter; without a body of its own it takes one segment. -/
  | param (name : List Char) (body : Option (List Char)) (modifier : Option Modifier)
  | group (body : List Char) (modifier : Option Modifier)
  | wildcard
  | blockOpen
  | blockClose (modifier : Option Modifier)
  deriving Repr, BEq, DecidableEq

/-- A template that has been read. -/
abbrev Template := List Item

namespace Template

open Pattern (isNameStart isNameChar)

/-- Reads the body of a group from after its opening parenthesis to behind its
closing one. `depth` counts the parentheses open inside it. -/
def readBody? (depth : Nat) : List Char → Option (List Char × List Char)
  | [] => none
  | ['\\'] => none
  | '\\' :: c :: cs => (readBody? depth cs).map fun (body, rest) => ('\\' :: c :: body, rest)
  | '(' :: cs => (readBody? (depth + 1) cs).map fun (body, rest) => ('(' :: body, rest)
  | ')' :: cs =>
    match depth with
    | 0 => some ([], cs)
    | depth + 1 => (readBody? depth cs).map fun (body, rest) => (')' :: body, rest)
  | c :: cs => (readBody? depth cs).map fun (body, rest) => (c :: body, rest)

/-- Reads a group from after its opening parenthesis. Its body may not be empty. -/
def readGroup (cs : List Char) : Except TemplateFault (List Char × List Char) :=
  match readBody? 0 cs with
  | none => .error .unbalancedGroup
  | some ([], _) => .error .emptyGroup
  | some (body, rest) => .ok (body, rest)

/-- Reads a parameter from after its colon. A fault lies at the parenthesis that
opens its group, as many characters on as the name is long. -/
def readParam (cs : List Char) : Except (Nat × TemplateFault) (Item × List Char) := do
  let (name, rest) := cs.span isNameChar
  match rest with
  | '(' :: rest =>
    match readGroup rest with
    | .error fault => .error (name.length, fault)
    | .ok (body, rest) =>
      let (modifier, rest) := Modifier.read rest
      .ok (.param name (some body) modifier, rest)
  | rest =>
    let (modifier, rest) := Modifier.read rest
    .ok (.param name none modifier, rest)

/-- Reads one item, whose first character is given apart, where `blocks` blocks are
open. A fault is given with its distance from that character. -/
def readItem (blocks : Nat) (c : Char) (cs : List Char) :
    Except (Nat × TemplateFault) (Item × Nat × List Char) :=
  match c with
  | '\\' =>
    match cs with
    | [] => .error (0, .danglingEscape)
    | next :: cs => .ok (.char next true, blocks, cs)
  | '(' =>
    match readGroup cs with
    | .error fault => .error (0, fault)
    | .ok (body, rest) =>
      let (modifier, rest) := Modifier.read rest
      .ok (.group body modifier, blocks, rest)
  | ')' => .error (0, .strayParenthesis)
  | '*' => .ok (.wildcard, blocks, cs)
  | '\x7b' => .ok (.blockOpen, blocks + 1, cs)
  | '\x7d' =>
    match blocks with
    | 0 => .error (0, .strayBrace)
    | blocks + 1 =>
      let (modifier, rest) := Modifier.read cs
      .ok (.blockClose modifier, blocks, rest)
  | ':' =>
    if cs.head?.any isNameStart then
      match readParam cs with
      | .error (distance, fault) => .error (distance + 1, fault)
      | .ok (item, rest) => .ok (item, blocks, rest)
    else .ok (.char ':' false, blocks, cs)
  | c => .ok (.char c false, blocks, cs)

/-- Reads the remaining items of a template of `length` characters. Each item takes
at least one of them, so their number is fuel enough. -/
def readItems (length : Nat) :
    (fuel : Nat) → (blocks : Nat) → List Char → Except TemplateError Template
  | _, blocks, [] => if blocks = 0 then .ok [] else .error ⟨length, .unclosedBrace⟩
  | 0, _, _ :: _ => .ok []
  | fuel + 1, blocks, c :: cs =>
    match readItem blocks c cs with
    | .error (distance, fault) => .error ⟨length - (cs.length + 1) + distance, fault⟩
    | .ok (item, blocks, rest) => (readItems length fuel blocks rest).map (item :: ·)

/-- Reads a template. -/
def read (text : List Char) : Except TemplateError Template :=
  readItems text.length text.length 0 text

/-- The names of the parameters, in order. -/
def paramNames (template : Template) : List (List Char) :=
  template.filterMap fun
    | .param name _ _ => some name
    | _ => none

/-- What a parameter without a body of its own matches: one segment. -/
def segment : List Char := "[^/]+".toList

/-- The characters that mean something in a pattern. -/
def isPatternMeta (c : Char) : Bool :=
  "\\.+*?()|[]\x7b\x7d^$#&-~".toList.contains c

/-- A character as a pattern writes it when it stands for itself. -/
def escapeChar (c : Char) : List Char :=
  if isPatternMeta c then ['\\', c] else [c]

/-- A group that keeps what the body matches, under the name if there is one. -/
def captureText (name : Option (List Char)) (body : List Char) : List Char :=
  match name with
  | some name => "(?P<".toList ++ name ++ '>' :: body ++ [')']
  | none => '(' :: body ++ [')']

/-- One or more times the body, with a slash between each two. -/
def listText (body : List Char) : List Char :=
  "(?:".toList ++ body ++ ")(?:/(?:".toList ++ body ++ "))*".toList

/-- A parameter or a group with a modifier. The slash before it, if there is one,
comes and goes with it when it may be missing. -/
def modifiedText (slash : List Char) (name : Option (List Char)) (body : List Char) :
    Modifier → List Char
  | .optional => "(?:".toList ++ slash ++ captureText name body ++ ")?".toList
  | .zeroOrMore => "(?:".toList ++ slash ++ captureText name (listText body) ++ ")?".toList
  | .oneOrMore => slash ++ captureText name (listText body)

/-- The pattern text of the items. -/
def itemsText : Template → List Char
  | [] => []
  -- A slash right before a modified item is written with it, not on its own.
  | .char '/' _ :: .param name body (some m) :: items =>
    modifiedText ['/'] (some name) (body.getD segment) m ++ itemsText items
  | .char '/' _ :: .group body (some m) :: items =>
    modifiedText ['/'] none body m ++ itemsText items
  | .char c _ :: items => escapeChar c ++ itemsText items
  | .param name body none :: items =>
    captureText (some name) (body.getD segment) ++ itemsText items
  | .param name body (some m) :: items =>
    modifiedText [] (some name) (body.getD segment) m ++ itemsText items
  | .group body none :: items => captureText none body ++ itemsText items
  | .group body (some m) :: items => modifiedText [] none body m ++ itemsText items
  | .wildcard :: items => "(.*)".toList ++ itemsText items
  | .blockOpen :: items => "(?:".toList ++ itemsText items
  | .blockClose none :: items => ')' :: itemsText items
  | .blockClose (some m) :: items => ')' :: m.char :: itemsText items

/-- The pattern of a regular expression that matches whole texts only. -/
def regexText (template : Template) : List Char :=
  '^' :: itemsText template ++ ['$']

end Template

end RouteAudit
