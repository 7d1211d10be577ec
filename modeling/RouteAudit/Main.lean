import RouteAudit.Command.Run
import RouteAudit.Text.Uuid
import Std.Time.DateTime.Timestamp

/-! # The program

The outermost layer: it looks at the files that the request is about, runs it, and
puts on the disk and on the terminal what the run leaves behind.
-/

namespace RouteAudit.Main

open Storage (Files Node Path Place)

/-- The path of a place. -/
def pathOf : Place → String
  | "/" :: names => "/" ++ "/".intercalate names
  | names => "/".intercalate names

/-- The number of the error of reading a directory as a file. -/
def isDirectoryCode : UInt32 := 21

/-- Looks at what stands at a place. There is nothing behind a plain file, and what
cannot be read for another reason stands in the way like a directory. -/
def look (files : Files) (place : Place) : IO Files := do
  if (files.node? place).isSome then return files
  try
    let content ← IO.FS.readBinFile (pathOf place)
    return files.put place (.file content)
  catch
    | .noFileOrDirectory .. => return files
    | .inappropriateType _ code _ =>
      return if code = isDirectoryCode then files.put place .directory else files
    | _ => return files.put place .directory

/-- Puts a file or a directory on the disk. A file appears at once with all of its
content. -/
def putNode : Place × Node → IO Unit
  | (place, .directory) => IO.FS.createDirAll (pathOf place)
  | (place, .file content) => do
    let path := pathOf place
    IO.FS.writeBinFile (path ++ ".new") content
    IO.FS.rename (path ++ ".new") path

/-- Puts on the disk what is not as it was. -/
def putFiles (before after : Files) : IO Unit :=
  for (place, node) in after.nodes.reverse do
    if before.nodes.lookup place != some node then putNode (place, node)

/-- Runs a command line. -/
def runWords (words : List String) : IO UInt32 := do
  let values ← Config.variableNames.mapM fun name => do return (name, ← IO.getEnv name)
  let setting (name : String) : Option String := (values.lookup name).join
  let paths := ((Command.Request.parse? setting words).map
    (Command.pathsOf setting)).getD []
  let mut files : Files := {}
  for path in paths do
    files ← (Path.ofText path).places.foldlM look files
  let now ← Std.Time.Timestamp.now
  let bytes ← IO.getRandomBytes 16
  let result := Command.run
    { setting, files
      epochMs := now.toMillisecondsSinceUnixEpoch.val.toNat
      runId := Text.uuid bytes.toList } words
  putFiles files result.files
  IO.print result.out
  if result.code = 2 then IO.eprint (Command.Topic.text setting .program)
  if let some error := result.error then IO.eprintln ("Error: " ++ error)
  return result.code

end RouteAudit.Main

/-- Runs the command line that the program was called with. -/
def main (words : List String) : IO UInt32 := RouteAudit.Main.runWords words
