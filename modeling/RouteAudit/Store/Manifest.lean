import RouteAudit.Cache.Key
import RouteAudit.Digest.Sha256
import RouteAudit.Json.Bytes
import RouteAudit.Json.Decode
import RouteAudit.Json.Printer
import RouteAudit.Storage.Dictionary
import RouteAudit.Text.Hex

/-! # Manifests

A manifest records which patterns earlier runs compiled, on which base, when, and
how long it took. An entry is found by a hash of base and pattern. Eviction drops
the entries that were compiled first, and among those of one time the ones with
the smaller keys; what an entry says of its own hash does not matter for that.
-/

namespace RouteAudit.Store

open Storage (Dictionary)

/-- The hash that an entry is found by: the first quarter of the digest of its cache
key, in sixteen digits. -/
def entryHash (base pattern : String) : String :=
  let digest := Digest.Sha256.digest (cacheKey base pattern).toUTF8.toList
  String.ofList (Text.hexDigits 8 digest.a.toNat ++ Text.hexDigits 8 digest.b.toNat)

/-- One compilation. Times are milliseconds since 1970. -/
structure Entry where
  pattern : String
  base : String
  compiledAt : Int64
  durationNs : UInt64
  hash : String
  deriving Repr, BEq, DecidableEq

/-- The version of manifests that is written and read. -/
def manifestVersion : UInt32 := 1

/-- The compilations of earlier runs. -/
structure Manifest where
  version : UInt32
  created : Int64
  updated : Int64
  entries : Dictionary Entry
  deriving Repr, DecidableEq

namespace Manifest

/-- A manifest with no entries. -/
def fresh (now : Int64) : Manifest := ⟨manifestVersion, now, now, .empty⟩

/-- How many entries there are. -/
def size (manifest : Manifest) : Nat := manifest.entries.size

/-- The manifest with an entry under a key. -/
def insert (manifest : Manifest) (key : String) (entry : Entry) : Manifest :=
  { manifest with entries := manifest.entries.insert key entry }

/-- Whether an entry goes before another when entries are dropped: by time, then by
key. -/
def goesFirst (a b : String × Entry) : Bool :=
  a.2.compiledAt < b.2.compiledAt ||
    (a.2.compiledAt == b.2.compiledAt && decide (a.1 ≤ b.1))

/-- The keys in the order in which they are dropped. -/
def byAge (manifest : Manifest) : List String :=
  (manifest.entries.entries.mergeSort goesFirst).map (·.1)

/-- The keys to drop so that at most so many entries stay, the oldest first. -/
def excess (manifest : Manifest) (limit : Nat) : List String :=
  if manifest.size ≤ limit then [] else manifest.byAge.take (manifest.size - limit)

/-- Drops the oldest entries until at most so many stay, and tells their keys. -/
def evict (manifest : Manifest) (limit : Nat) : List String × Manifest :=
  let keys := manifest.excess limit
  (keys, { manifest with entries := manifest.entries.without keys })

end Manifest

/-! ## Records -/

/-- An entry as a record. -/
def Entry.toJson (entry : Entry) : Json :=
  .record [
    ("pattern", .string entry.pattern),
    ("baseUrl", .string entry.base),
    ("compiledAt", .int entry.compiledAt.toInt),
    ("compileTimeNs", .nat entry.durationNs.toNat),
    ("hash", .string entry.hash)]

/-- Reads an entry. -/
def Entry.ofJson? (value : Json) : Option Entry := do
  match ← value.asFields? ["pattern", "baseUrl", "compiledAt", "compileTimeNs", "hash"] with
  | [pattern, base, compiledAt, durationNs, hash] => do
    return {
      pattern := ← Json.required? Json.asString? pattern
      base := ← Json.required? Json.asString? base
      compiledAt := ← Json.required? Json.asInt64? compiledAt
      durationNs := ← Json.required? Json.asUInt64? durationNs
      hash := ← Json.required? Json.asString? hash }
  | _ => none

namespace Manifest

/-- A manifest as a record. -/
def toJson (manifest : Manifest) : Json :=
  .record [
    ("version", .nat manifest.version.toNat),
    ("created", .int manifest.created.toInt),
    ("updated", .int manifest.updated.toInt),
    ("entries", .record (manifest.entries.entries.map fun (key, entry) => (key, entry.toJson)))]

/-- Reads a manifest. -/
def ofJson? (value : Json) : Option Manifest := do
  match ← value.asFields? ["version", "created", "updated", "entries"] with
  | [version, created, updated, entries] => do
    return {
      version := ← Json.required? Json.asUInt32? version
      created := ← Json.required? Json.asInt64? created
      updated := ← Json.required? Json.asInt64? updated
      entries := .ofList (← Json.required? (Json.asDictionary? Entry.ofJson?) entries) }
  | _ => none

/-- The content of the file that keeps a manifest. -/
def fileText (manifest : Manifest) : String := manifest.toJson.pretty

/-- The manifest that a file keeps. -/
def ofFileText? (text : String) : Option Manifest := Json.parse? text >>= ofJson?

/-- The manifest that a file of bytes keeps. -/
def ofFileBytes? (bytes : ByteArray) : Option Manifest :=
  Json.parseBytes? bytes >>= ofJson?

end Manifest

end RouteAudit.Store
