import RouteAudit.Store.Basic

/-! # Overviews of a store

What a store holds at a glance: how many entries, about how many bytes, and how
long ago the first and the last of them were compiled. An entry from the future
is no time old.
-/

namespace RouteAudit.Store

/-- A store at a glance. Ages are milliseconds, missing where there is no entry. -/
structure Overview where
  path : String
  entries : Nat
  approxBytes : Nat
  oldestAgeMs : Option Int64
  newestAgeMs : Option Int64
  deriving Repr, BEq, DecidableEq

/-- About how many bytes an entry takes: its texts, the hash as key and as field, and
the words around them. -/
def Entry.approxBytes (entry : Entry) : Nat :=
  entry.pattern.utf8ByteSize + entry.base.utf8ByteSize + 2 * entry.hash.utf8ByteSize + 96

/-- The value that a choice between two keeps of all. -/
def chosen? (choose : Int64 → Int64 → Int64) : List Int64 → Option Int64
  | [] => none
  | time :: times => some (times.foldl choose time)

/-- How long ago a time was. -/
def age (now time : Int64) : Int64 :=
  let elapsed := now - time
  if elapsed < 0 then 0 else elapsed

/-- The store in a directory at a glance. -/
def overview (store : Store) (directory : String) (now : Int64) : Overview :=
  let times := store.manifest.entries.values.map (·.compiledAt)
  { path := Storage.inside directory fileName
    entries := store.size
    approxBytes := store.manifest.entries.values.foldr (·.approxBytes + ·) 0
    oldestAgeMs := (chosen? (fun a b => if b < a then b else a) times).map (age now)
    newestAgeMs := (chosen? (fun a b => if a < b then b else a) times).map (age now) }

/-- An overview as a record. -/
def Overview.toJson (overview : Overview) : Json :=
  .record [
    ("path", .string overview.path),
    ("entries", .nat overview.entries),
    ("approx_bytes", .nat overview.approxBytes),
    ("oldest_age_ms", .optional (fun age => .int age.toInt) overview.oldestAgeMs),
    ("newest_age_ms", .optional (fun age => .int age.toInt) overview.newestAgeMs)]

end RouteAudit.Store
