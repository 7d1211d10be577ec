/-! # Paths

A path is a text whose parts are parted by slashes. It is kept as it was given
and shown as it is kept. As directions it leads from the working directory, or
from the root, one step at a time, and a step back means the directory around the
one that has been reached.
-/

namespace RouteAudit.Storage

/-- The path of something inside a directory. -/
def inside (directory name : String) : String :=
  if directory = "" ∨ directory.endsWith "/" then directory ++ name
  else directory ++ "/" ++ name

/-- One step of a path. -/
inductive Step where
  | here
  | up
  | name (text : String)
  deriving Repr, BEq, DecidableEq

/-- The step that a part of a path writes. -/
def Step.ofText : String → Step
  | "." => here
  | ".." => up
  | text => name text

/-- A path as directions. -/
structure Path where
  absolute : Bool
  steps : List Step
  /-- A slash at the end asks for a directory. -/
  asksDirectory : Bool
  deriving Repr, BEq, DecidableEq

/-- Where something stands: the names on the way from the working directory, or from
the root, which is then the first name. Directories around the working directory
have no names but the steps that lead up to them. -/
abbrev Place := List String

namespace Place

/-- The working directory and the directories around it. -/
def isAround (place : Place) : Bool := place.all (· == "..")

/-- The directory around a place. The root has none and stands for it. -/
def around (place : Place) : Place :=
  if place = ["/"] then place
  else if place.isAround then place ++ [".."]
  else place.dropLast

/-- The place that a step leads to when everything on the way is a directory. -/
def after (place : Place) : Step → Place
  | .here => place
  | .up => place.around
  | .name text => place ++ [text]

end Place

namespace Path

/-- The directions that a path gives. Slashes in a row part as much as one does. -/
def ofText (text : String) : Path where
  absolute := text.startsWith "/"
  steps := ((text.splitOn "/").filter (· ≠ "")).map .ofText
  asksDirectory := text.endsWith "/"

/-- Where the directions start. -/
def start (path : Path) : Place := if path.absolute then ["/"] else []

/-- Whether there are no directions at all. -/
def isEmpty (path : Path) : Bool := !path.absolute && path.steps.isEmpty

/-- Whether a file can be made where the path leads: it ends in a name. -/
def endsInName (path : Path) : Bool :=
  !path.asksDirectory &&
    match path.steps.getLast? with
    | some (.name _) => true
    | _ => false

/-- The steps to the directory that a file is put into, where staying is no step. -/
def directorySteps (path : Path) : List Step :=
  (path.steps.filter (· ≠ .here)).dropLast

/-- All places that the steps lead to when everything on the way is a directory. -/
def places (path : Path) : List Place :=
  go path.start path.steps
where
  go (place : Place) : List Step → List Place
    | [] => []
    | step :: steps => place.after step :: go (place.after step) steps

end Path

end RouteAudit.Storage
