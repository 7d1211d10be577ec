import RouteAudit.Gate.Baseline
import RouteAudit.Json.Printer
import RouteAudit.Json.Reader
import RouteAudit.Storage.Files

/-! # Baseline files

A baseline is kept as one record in a file of its own. Writing replaces the file,
reading is strict, and what was written reads back as it was.
-/

namespace RouteAudit.Gate

open Storage (Files ReadFault WriteFault)

/-- Why there is no baseline to compare with, or none was kept. -/
inductive BaselineError where
  | notFound (path : String)
  | malformed (path : String)
  | unreadable (fault : ReadFault)
  | unwritable (fault : WriteFault)
  deriving Repr, BEq, DecidableEq

/-- The words for a baseline that is not there. What a malformed file lacks is not
told. -/
def BaselineError.message : BaselineError → String
  | notFound path => "baseline not found: " ++ path
  | malformed path => "malformed baseline " ++ path
  | unreadable fault => "io error: " ++ fault.message
  | unwritable _ => "io error:"

namespace Snapshot

/-- The content of the file that keeps a snapshot. -/
def fileText (snapshot : Snapshot) : String := snapshot.toJson.pretty

/-- The snapshot that a file keeps. -/
def ofFileText? (text : String) : Option Snapshot := Json.parse? text >>= ofJson?

/-- The snapshot kept at a path, where the answer of reading it is given. -/
def ofReading (path : String) : Except ReadFault String → Except BaselineError Snapshot
  | .ok text =>
    match ofFileText? text with
    | some snapshot => .ok snapshot
    | none => .error (.malformed path)
  | .error .missing => .error (.notFound path)
  | .error fault => .error (.unreadable fault)

/-- Loads the baseline at a path. -/
def load (files : Files) (path : String) : Except BaselineError Snapshot :=
  ofReading path (files.readText (.ofText path))

/-- Keeps a snapshot at a path. Gives the files as they are left, and what went wrong
if something did. -/
def save (snapshot : Snapshot) (files : Files) (path : String) : Files × Option BaselineError :=
  let (files, fault) := files.replace (.ofText path) snapshot.fileText.toUTF8
  (files, fault.map .unwritable)

end Snapshot

end RouteAudit.Gate
