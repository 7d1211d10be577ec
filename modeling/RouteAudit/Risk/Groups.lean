/-! # Emptying groups

The pipes of a group such as `(items|products)` separate alternatives and are
no shell pipes. Before shell characters are looked for, every group that closes
is emptied, its parentheses left in place. Escapes are kept outside of groups
and skipped inside them. From a group that never closes, everything is kept.
-/

namespace RouteAudit.Risk

mutual

/-- Reads outside of groups. -/
def emptyOutside : List Char → List Char
  | [] => []
  | ['\\'] => ['\\']
  | '\\' :: c :: cs => '\\' :: c :: emptyOutside cs
  | '(' :: cs => emptyInside cs 0 cs
  | c :: cs => c :: emptyOutside cs

/-- Reads inside a group whose contents, with all that follows, are `opened`.
`depth` counts the groups opened inside it. -/
def emptyInside (opened : List Char) (depth : Nat) : List Char → List Char
  | [] => '(' :: opened
  | ['\\'] => '(' :: opened
  | '\\' :: _ :: cs => emptyInside opened depth cs
  | '(' :: cs => emptyInside opened (depth + 1) cs
  | ')' :: cs =>
    match depth with
    | 0 => '(' :: ')' :: emptyOutside cs
    | depth + 1 => emptyInside opened depth cs
  | _ :: cs => emptyInside opened depth cs

end

/-- The pattern with its closed groups emptied. -/
def emptyGroups (pattern : String) : String :=
  String.ofList (emptyOutside pattern.toList)

end RouteAudit.Risk
