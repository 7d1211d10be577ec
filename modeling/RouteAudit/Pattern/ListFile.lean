import RouteAudit.Storage.Files
import RouteAudit.Text.Blank
import RouteAudit.Text.Line

/-! # Lists of patterns

A list holds one pattern a line. Blanks around a pattern do not belong to it;
a line that is then empty, or starts with `#` or `//`, is not a pattern. Order
and repetitions are kept.
-/

namespace RouteAudit.Pattern

/-- Whether a trimmed line holds a pattern. -/
def isPatternLine : List Char → Bool
  | [] => false
  | '#' :: _ => false
  | '/' :: '/' :: _ => false
  | _ => true

/-- The patterns of a list. -/
def parseList (text : String) : List String :=
  (((Text.lines text.toList).map Text.trimChars).filter isPatternLine).map String.ofList

/-- A file of patterns that cannot be read as text. -/
structure UnreadableList where
  path : String
  fault : Storage.ReadFault
  deriving Repr, BEq, DecidableEq

/-- The words for a file that cannot be read, without the cause. -/
def UnreadableList.message (error : UnreadableList) : String :=
  "cannot read pattern file " ++ error.path

/-- The patterns of the file at a path. -/
def loadList (files : Storage.Files) (path : String) : Except UnreadableList (List String) :=
  match files.readText (.ofText path) with
  | .ok text => .ok (parseList text)
  | .error fault => .error ⟨path, fault⟩

end RouteAudit.Pattern
