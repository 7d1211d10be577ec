import RouteAudit.Regex.CharSet
import RouteAudit.Text.Spot

/-! # Regular expressions and the texts they match

An expression describes stretches of a text, from one spot to another. The
relation `Expr.Matches` says which, and nothing about preference among several:
whether a repetition is greedy matters to a search only. Assertions look at the
two characters around a spot and take up no text.
-/

namespace RouteAudit.Regex

open RouteAudit.Text (Spot)

/-- Assertions about a place. A word character is one of any script when
`unicode` is set, an ASCII letter, digit or underscore otherwise. -/
inductive Look where
  | textStart
  | textEnd
  | lineStart
  | lineEnd
  /-- The start of a line, where carriage return, line feed and both together end one. -/
  | anyLineStart
  | anyLineEnd
  | wordEdge (unicode : Bool)
  | wordInside (unicode : Bool)
  | wordStart (unicode : Bool)
  | wordEnd (unicode : Bool)
  | noWordBefore (unicode : Bool)
  | noWordAfter (unicode : Bool)
  deriving Repr, BEq, DecidableEq

namespace Look

/-- Whether there is a word character on one side. -/
def wordAt (unicode : Bool) (c : Option Char) : Bool :=
  c.any fun c => if unicode then Unicode.isWord c else c.isAlphanum || c == '_'

/-- Whether the assertion holds between two neighbours. -/
def holdsBetween (before after : Option Char) : Look → Bool
  | textStart => before.isNone
  | textEnd => after.isNone
  | lineStart => before.isNone || before == some '\n'
  | lineEnd => after.isNone || after == some '\n'
  | anyLineStart =>
    before.isNone || before == some '\n' || (before == some '\r' && after != some '\n')
  | anyLineEnd =>
    after.isNone || after == some '\r' || (after == some '\n' && before != some '\r')
  | wordEdge u => wordAt u before != wordAt u after
  | wordInside u => wordAt u before == wordAt u after
  | wordStart u => !wordAt u before && wordAt u after
  | wordEnd u => wordAt u before && !wordAt u after
  | noWordBefore u => !wordAt u before
  | noWordAfter u => !wordAt u after

/-- Whether the assertion holds at a spot. -/
def holds (look : Look) (spot : Spot) : Bool :=
  look.holdsBetween spot.before spot.after

end Look

/-- What a pair of parentheses is for. -/
inductive Group where
  /-- It only holds together. -/
  | plain
  /-- What it matched is kept under a number, which nobody asks for. -/
  | numbered
  | named (name : String)
  deriving Repr, BEq, DecidableEq

/-- A regular expression with named captures. -/
inductive Expr where
  | empty
  | set (chars : CharSet)
  | look (assertion : Look)
  | cat (first second : Expr)
  | alt (first second : Expr)
  /-- At least `least` repetitions and at most `most`, or without an upper limit. -/
  | repeated (greedy : Bool) (least : Nat) (most : Option Nat) (body : Expr)
  | group (kind : Group) (body : Expr)
  deriving Repr, BEq, DecidableEq

namespace Expr

/-- The expression matches the text between two spots. -/
inductive Matches : Expr → Spot → Spot → Prop where
  | empty (s : Spot) : Matches .empty s s
  | set {chars : CharSet} {c : Char} {s t : Spot} :
      s.next? = some (c, t) → c ∈ chars → Matches (.set chars) s t
  | look {assertion : Look} {s : Spot} :
      assertion.holds s = true → Matches (.look assertion) s s
  | cat {first second : Expr} {s t u : Spot} :
      Matches first s t → Matches second t u → Matches (.cat first second) s u
  | altFirst {first second : Expr} {s t : Spot} :
      Matches first s t → Matches (.alt first second) s t
  | altSecond {first second : Expr} {s t : Spot} :
      Matches second s t → Matches (.alt first second) s t
  | stop {greedy : Bool} {most : Option Nat} {body : Expr} (s : Spot) :
      Matches (.repeated greedy 0 most body) s s
  | more {greedy : Bool} {least : Nat} {most : Option Nat} {body : Expr} {s t u : Spot} :
      most ≠ some 0 → Matches body s t →
      Matches (.repeated greedy (least - 1) (most.map (· - 1)) body) t u →
      Matches (.repeated greedy least most body) s u
  | group {kind : Group} {body : Expr} {s t : Spot} :
      Matches body s t → Matches (.group kind body) s t

/-- Whether every match takes up at least one character. A set counts as taking
one even when it has no member, since then it has no match. -/
def consumes : Expr → Bool
  | empty | look _ => false
  | set _ => true
  | cat first second => first.consumes || second.consumes
  | alt first second => first.consumes && second.consumes
  | repeated _ least _ body => 0 < least && body.consumes
  | group _ body => body.consumes

/-- Whether no match takes up a character. -/
def isWidthless : Expr → Bool
  | empty | look _ => true
  | set _ => false
  | cat first second | alt first second => first.isWidthless && second.isWidthless
  | repeated _ _ most body => most == some 0 || body.isWidthless
  | group _ body => body.isWidthless

/-- The bounds of a repetition as far as they matter: a body that takes up no text is
never worth a second round. -/
def bounds (body : Expr) (least : Nat) (most : Option Nat) : Nat × Option Nat :=
  if body.isWidthless then (min least 1, some (min (most.getD 1) 1)) else (least, most)

/-- The expression or nothing. -/
def opt (greedy : Bool) (body : Expr) : Expr := repeated greedy 0 (some 1) body

/-- Any number of repetitions. -/
def star (greedy : Bool) (body : Expr) : Expr := repeated greedy 0 none body

/-- At least one repetition. -/
def plus (greedy : Bool) (body : Expr) : Expr := repeated greedy 1 none body

/-- One expression after another. -/
def seq : List Expr → Expr
  | [] => empty
  | [e] => e
  | e :: es => cat e (seq es)

/-- One expression or another, the earlier one preferred. There is no expression
to choose from an empty list, so it matches nothing. -/
def oneOf : List Expr → Expr
  | [] => set .none
  | [e] => e
  | e :: es => alt e (oneOf es)

/-- The characters of a text in order. -/
def text (s : String) : Expr :=
  seq (s.toList.map fun c => set (.single c))

/-- The characters of a text in order, each in any case. -/
def caseless (s : String) : Expr :=
  seq (s.toList.map fun c => set (.caseless c))

end Expr

end RouteAudit.Regex
