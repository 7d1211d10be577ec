import RouteAudit.Remedy.Result

/-! # Listing remediated patterns

A listing is itself a list of patterns. Before each one stand, as comments, the
notes, the changes, and what it was when it is another one now.
-/

namespace RouteAudit.Remedy

/-- The lines for one result. -/
def Result.lines (result : Result) : List String :=
  (result.notes.map fun note => "# " ++ note) ++
  (result.changes.map fun change => "# " ++ change) ++
  (if result.changed then
    ["# was: " ++ result.pattern ++ " (score " ++ toString result.scoreBefore.toNat ++ " -> " ++
      toString result.scoreAfter.toNat ++ ")"]
  else []) ++
  [result.fixed]

/-- The listing, where every line ends in a line feed. -/
def listing (results : List Result) : String :=
  String.join ((results.flatMap Result.lines).map (· ++ "\n"))

/-- The file that a listing goes to unless another one is named: beside the file
of the patterns. -/
def defaultPath (input : String) : String := input ++ ".fixed.txt"

end RouteAudit.Remedy
