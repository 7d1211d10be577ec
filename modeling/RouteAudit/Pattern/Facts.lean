/-! # What a pattern shows without being compiled

Two facts about a pattern feed the risk rules: whether it opens a group, and how
many wildcards it has. They are read off the characters in one pass that knows
escapes and groups and nothing else, so they exist for every text, also for one
that no compiler accepts. Inside a group nothing counts.
-/

namespace RouteAudit

/-- What the risk rules know of a pattern besides its text. -/
structure Facts where
  hasGroups : Bool := false
  wildcards : Nat := 0
  deriving Repr, BEq, DecidableEq

namespace Pattern

/-- A character that can start the name of a parameter. -/
def isNameStart (c : Char) : Bool := c.isAlpha || c == '_'

/-- A character that can continue the name of a parameter. -/
def isNameChar (c : Char) : Bool := c.isAlphanum || c == '_'

end Pattern

namespace Facts

open Pattern (isNameStart isNameChar)

/-- What stands right before the next character: a plain character, the name of a
parameter, or the group that belongs to one. A quantifier counts after the
latter two. -/
inductive Preceding where
  | plain
  | name
  | parameterGroup
  deriving Repr, BEq, DecidableEq

/-- One more wildcard. -/
def addWildcard (facts : Facts) : Facts :=
  { facts with wildcards := facts.wildcards + 1 }

mutual

/-- Reads outside of groups. -/
def scanOutside (facts : Facts) (preceding : Preceding) : List Char → Facts
  | [] => facts
  | ['\\'] => facts
  | '\\' :: _ :: cs => scanOutside facts .plain cs
  | '(' :: cs => scanInside { facts with hasGroups := true } (preceding == .name) 0 cs
  | '*' :: cs => scanOutside facts.addWildcard .plain cs
  | '+' :: cs =>
    scanOutside (if preceding == .plain then facts else facts.addWildcard) .plain cs
  | ':' :: cs =>
    scanOutside facts (if cs.head?.any isNameStart then .name else .plain) cs
  | c :: cs =>
    scanOutside facts (if preceding == .name && isNameChar c then .name else .plain) cs

/-- Reads inside a group, where only its end is looked for. `depth` counts the
groups opened inside it. -/
def scanInside (facts : Facts) (onParameter : Bool) (depth : Nat) : List Char → Facts
  | [] => facts
  | ['\\'] => facts
  | '\\' :: _ :: cs => scanInside facts onParameter depth cs
  | '(' :: cs => scanInside facts onParameter (depth + 1) cs
  | ')' :: cs =>
    match depth with
    | 0 => scanOutside facts (if onParameter then .parameterGroup else .plain) cs
    | depth + 1 => scanInside facts onParameter depth cs
  | _ :: cs => scanInside facts onParameter depth cs

end

/-- The facts of a pattern. -/
def scan (pattern : String) : Facts :=
  scanOutside {} .plain pattern.toList

end Facts

end RouteAudit
