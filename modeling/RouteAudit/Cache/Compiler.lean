import RouteAudit.Pattern.Matcher

/-! # Compilers

A compiler says for every base and pattern how long the compilation takes and how
it ends: with a matcher, with an error, or in a crash that leaves no result but
some words. The standard one takes no time and never crashes.
-/

namespace RouteAudit

/-- How a compilation ends. -/
inductive Ending where
  | result (result : Except CompileError Matcher)
  | crash (reason : Option String := none)

/-- What compilations do. -/
structure Compiler where
  delayMs : (base pattern : String) → Nat
  ending : (base pattern : String) → Ending

/-- The compiler that patterns are compiled with. -/
def Compiler.standard (diagnose : (regex : List Char) → Option String := fun _ => none) :
    Compiler where
  delayMs _ _ := 0
  ending base pattern := .result (Matcher.compile pattern base diagnose)

/-- A pattern compiled on a base. -/
structure Compiled where
  pattern : String
  base : String
  matcher : Matcher
  deriving Repr, BEq, DecidableEq

/-- What those who wait for a compilation are told. A crash counts as aborted. -/
inductive Outcome where
  | compiled (entry : Compiled)
  | failed (error : CompileError)
  deriving Repr, BEq, DecidableEq

namespace Outcome

/-- Whether there is a matcher. -/
def isCompiled : Outcome → Bool
  | compiled _ => true
  | failed _ => false

/-- The matcher, or the sentinel in its place. -/
def matcher (outcome : Outcome) (base pattern : String) : Matcher :=
  match outcome with
  | compiled entry => entry.matcher
  | failed _ => .sentinel pattern base

end Outcome

end RouteAudit
