import RouteAudit.Storage.Files

/-! # Where a store keeps its file

The site of a store is what the outside world shows it: what a reading of its file
would give, and the step at which a replacement would fail, if at one. Nothing
else of the file system can tell two stores apart.
-/

namespace RouteAudit.Store

open Storage (Files Path WriteFault)

/-- The name of the file in the directory of the store. -/
def fileName : String := "manifest.json"

/-- What a reading gives. -/
inductive Stored where
  | absent
  | unreadable
  | content (bytes : ByteArray)
  deriving BEq

/-- What a store finds where it keeps its file. -/
structure Site where
  stored : Stored := .absent
  fault : Option WriteFault := none
  deriving BEq

namespace Site

/-- Replaces the file. A replacement that fails leaves it alone. -/
def replace (site : Site) (bytes : ByteArray) : Except WriteFault Site :=
  match site.fault with
  | some fault => .error fault
  | none => .ok { site with stored := .content bytes }

/-- The path of the file of the store in a directory. -/
def path (directory : String) : Path := .ofText (Storage.inside directory fileName)

/-- The site of the store in a directory. -/
def ofFiles (files : Files) (directory : String) : Site where
  stored :=
    match files.read (path directory) with
    | .ok bytes => .content bytes
    | .error .missing => .absent
    | .error _ => .unreadable
  fault := (files.replace (path directory) .empty).2

/-- The files with what the site holds in a directory. -/
def toFiles (site : Site) (files : Files) (directory : String) : Files :=
  match site.stored with
  | .content bytes => (files.replace (path directory) bytes).1
  | _ => files

end Site

end RouteAudit.Store
