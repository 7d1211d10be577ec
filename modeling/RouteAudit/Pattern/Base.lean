/-! # Joining a pattern to a base

A pattern that names a scheme stands alone. Any other one is appended to the
base, with exactly one slash where they meet when the pattern brings none or
one; slashes that end the base are dropped, those that start the pattern stay.
-/

namespace RouteAudit.Pattern

/-- Whether the text names a scheme somewhere: it contains `://`. -/
def namesScheme : List Char → Bool
  | ':' :: '/' :: '/' :: _ => true
  | _ :: cs => namesScheme cs
  | [] => false

/-- The base without the slashes that end it. -/
def withoutEndSlashes (base : List Char) : List Char :=
  (base.reverse.dropWhile (· == '/')).reverse

/-- The pattern appended to the base. -/
def joinChars (pattern base : List Char) : List Char :=
  if base.isEmpty || namesScheme pattern then pattern
  else
    match pattern with
    | '/' :: _ => withoutEndSlashes base ++ pattern
    | _ => withoutEndSlashes base ++ '/' :: pattern

/-- The pattern appended to the base. -/
def join (pattern base : String) : String :=
  String.ofList (joinChars pattern.toList base.toList)

end RouteAudit.Pattern
