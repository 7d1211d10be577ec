import RouteAudit.Storage.Path

/-! # Files

What the files around a run hold, as a value: a finite map from places to plain
files and directories. The working directory, those around it and the root always
stand. Reading and writing follow a path step by step, and every step starts at a
directory: a plain file on the way stops them, and so does what is missing, also
before a step back.

There are two ways to write. A plain write needs the directory to stand. A
replacement makes the directory, puts the content into a temporary file there,
and renames that, so that a reader finds the old content or the new one.
-/

namespace RouteAudit.Storage

/-- What stands at a place. -/
inductive Node where
  | file (content : ByteArray)
  | directory
  deriving BEq

/-- Why a file could not be read. -/
inductive ReadFault where
  | missing
  /-- Something on the way is a plain file. -/
  | notDirectory
  | isDirectory
  | nameTooLong
  /-- A name has the character that ends a name. -/
  | nameEndsEarly
  /-- The content is no text. -/
  | notText
  deriving Repr, BEq, DecidableEq

/-- The words for a failed reading. -/
def ReadFault.message : ReadFault → String
  | missing => "No such file or directory (os error 2)"
  | notDirectory => "Not a directory (os error 20)"
  | isDirectory => "Is a directory (os error 21)"
  | nameTooLong => "File name too long (os error 36)"
  | nameEndsEarly => "file name contained an unexpected NUL byte"
  | notText => "stream did not contain valid UTF-8"

/-- The step at which a replacement failed. -/
inductive WriteFault where
  | directory
  | temporary
  | rename
  deriving Repr, BEq, DecidableEq

/-- The text in UTF-8 that bytes hold. -/
def textOf? (content : ByteArray) : Except ReadFault String :=
  match String.fromUTF8? content with
  | some text => .ok text
  | none => .error .notText

/-- The bytes that a name may have. -/
def maxNameBytes : Nat := 255

/-- What is wrong with the name of a step, if anything. -/
def Step.fault? : Step → Option ReadFault
  | .name text =>
    if text.toList.contains '\x00' then some .nameEndsEarly
    else if maxNameBytes < text.utf8ByteSize then some .nameTooLong
    else none
  | _ => none

/-- All that stands somewhere. -/
structure Files where
  nodes : List (Place × Node) := []
  deriving BEq

namespace Files

/-- What stands at a place. -/
def node? (files : Files) (place : Place) : Option Node :=
  if place.isAround ∨ place = ["/"] then some .directory else files.nodes.lookup place

/-- The files after something was put at a place. -/
def put (files : Files) (place : Place) (node : Node) : Files :=
  ⟨(place, node) :: files.nodes.filter (·.1 != place)⟩

/-- The files without what stood at a place. -/
def remove (files : Files) (place : Place) : Files :=
  ⟨files.nodes.filter (·.1 != place)⟩

/-! ## Following a path -/

/-- Goes one step from a place, which must be a directory. Nothing needs to stand
where the step leads. -/
def enter (files : Files) (place : Place) (step : Step) : Except ReadFault Place :=
  match files.node? place, step.fault? with
  | none, _ => .error .missing
  | some (.file _), _ => .error .notDirectory
  | some .directory, some fault => .error fault
  | some .directory, none => .ok (place.after step)

/-- The place that a path leads to. -/
def locate (files : Files) (path : Path) : Except ReadFault Place :=
  if path.isEmpty then .error .missing else path.steps.foldlM files.enter path.start

/-! ## Reading -/

/-- The content of a file. -/
def read (files : Files) (path : Path) : Except ReadFault ByteArray := do
  match files.node? (← files.locate path) with
  | none => .error .missing
  | some .directory => .error .isDirectory
  | some (.file content) => if path.asksDirectory then .error .notDirectory else .ok content

/-- The text of a file. -/
def readText (files : Files) (path : Path) : Except ReadFault String := do
  textOf? (← files.read path)

/-! ## Writing -/

/-- Makes the directories that the steps from a place on lead to and that do not stand
yet. Tells whether all of them stand then; what was made before a failure stays. -/
def makeDirectories (files : Files) (place : Place) : List Step → Files × Bool
  | [] => (files, true)
  | step :: steps =>
    match files.enter place step with
    | .error _ => (files, false)
    | .ok next =>
      match files.node? next with
      | some .directory => makeDirectories files next steps
      | some (.file _) => (files, false)
      | none => makeDirectories (files.put next .directory) next steps

/-- Writes a file whose directory stands, unless a directory is in its place. -/
def write (files : Files) (path : Path) (content : ByteArray) : Option Files := do
  let place ← (files.locate path).toOption
  if path.endsInName && files.node? place != some .directory then
    some (files.put place (.file content))
  else none

/-- Replaces a file, with the directories on its way. Gives the files as they are left
and the step that failed, if one did. -/
def replace (files : Files) (path : Path) (content : ByteArray) : Files × Option WriteFault :=
  match files.makeDirectories path.start path.directorySteps with
  | (files, false) => (files, some .directory)
  | (files, true) =>
    match files.write path content with
    | some files => (files, none)
    | none => (files, some .rename)

end Files

end RouteAudit.Storage
