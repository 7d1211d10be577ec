import RouteAudit.Pattern.Base
import RouteAudit.Pattern.Template
import RouteAudit.Regex.Reader

/-! # Matchers

A matcher is a pattern joined to its base and made ready to match. Where
compilation failed a sentinel takes its place: it matches nothing and captures
nothing, but it carries the same facts, so the risk of a pattern does not depend
on whether it compiles.
-/

namespace RouteAudit

/-- Why a pattern has no matcher. What a regular expression lacks, and why a
compilation stopped, is said in the words of others, where they are known. -/
inductive CompileError where
  | invalidSyntax (error : TemplateError)
  /-- The bodies of the groups do not add up to a regular expression. -/
  | invalidRegex {reason : Option String}
  /-- The compilation ended without an outcome of its own. -/
  | aborted {reason : Option String}
  deriving Repr, BEq, DecidableEq

/-- The words of others, set off from what stands before them. -/
def quoted (reason : Option String) : String := reason.elim "" (" " ++ ·)

/-- The words for a failed compilation. -/
def CompileError.message : CompileError → String
  | invalidSyntax ⟨offset, fault⟩ =>
    "invalid pattern syntax at offset " ++ toString offset ++ ": " ++ fault.reason
  | @invalidRegex reason => "invalid regular expression:" ++ quoted reason
  | @aborted reason => "compilation aborted:" ++ quoted reason

/-- A pattern ready to match; a sentinel has no regular expression. -/
structure Matcher where
  pattern : String
  base : String
  template : String
  regex : Option Regex.Searcher
  params : List String
  facts : Facts
  deriving Repr, BEq, DecidableEq

namespace Matcher

/-- The matcher that stands in for a failed compilation. -/
def sentinel (pattern base : String) : Matcher where
  pattern
  base
  template := Pattern.join pattern base
  regex := none
  params := []
  facts := .scan pattern

/-- Compiles a pattern on a base. What is wrong with a regular expression is said by
`diagnose`. -/
def compile (pattern base : String)
    (diagnose : (regex : List Char) → Option String := fun _ => none) :
    Except CompileError Matcher := do
  let template := Pattern.join pattern base
  let items ← (Template.read template.toList).mapError .invalidSyntax
  match Regex.Searcher.ofPattern? (Template.regexText items) with
  | none => .error (@CompileError.invalidRegex (diagnose (Template.regexText items)))
  | some regex =>
    return {
      pattern, base, template
      regex := some regex
      params := (Template.paramNames items).map String.ofList
      facts := .scan pattern }

/-- Whether the matcher stands in for a failed compilation. -/
def isSentinel (m : Matcher) : Bool := m.regex.isNone

/-- Whether the candidate matches. -/
def isMatch (m : Matcher) (candidate : String) : Bool :=
  m.regex.any (·.isMatch candidate.toList)

/-- What the parameters captured from the candidate, in their order, or `none` when
it does not match. A parameter that took no part is left out. -/
def captures? (m : Matcher) (candidate : String) : Option (List (String × String)) := do
  let regex ← m.regex
  let text := candidate.toList
  let marks ← regex.find? text
  return m.params.filterMap fun name =>
    (Regex.Searcher.captured? text marks name).map fun value => (name, String.ofList value)

end Matcher

end RouteAudit
