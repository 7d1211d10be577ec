import RouteAudit.Json.Decode

/-! # Counters of a cache

Every lookup is a hit or a miss, and every hit was answered at once or has to be
waited for. The hits that have to be waited for are not counted on their own: a
snapshot of the counters tells them as what is left of the hits. Counts have 64 bits.
-/

namespace RouteAudit

/-- The counters that a cache keeps. -/
structure Counters where
  hits : UInt64 := 0
  misses : UInt64 := 0
  syncHits : UInt64 := 0
  errors : UInt64 := 0
  deriving Repr, BEq, DecidableEq

/-- The counters of a cache at one moment, as they are told. -/
structure CacheStats where
  hits : UInt64 := 0
  misses : UInt64 := 0
  syncHits : UInt64 := 0
  asyncHits : UInt64 := 0
  errors : UInt64 := 0
  deriving Repr, BEq, DecidableEq

/-- How a lookup was answered: at once, by a job under way, or by a new job. -/
inductive LookupMode where
  | sync
  | async
  | miss
  deriving Repr, BEq, DecidableEq

namespace Counters

/-- One more lookup. -/
def count (counters : Counters) : LookupMode → Counters
  | .sync =>
    { counters with hits := counters.hits + 1, syncHits := counters.syncHits + 1 }
  | .async => { counters with hits := counters.hits + 1 }
  | .miss => { counters with misses := counters.misses + 1 }

/-- What is told of the counters. There are no fewer hits than hits at once. -/
def snapshot (counters : Counters) : CacheStats :=
  let hits := max counters.hits counters.syncHits
  { hits
    misses := counters.misses
    syncHits := counters.syncHits
    asyncHits := hits - counters.syncHits
    errors := counters.errors }

end Counters

namespace CacheStats

/-- The part of the lookups that did not start a compilation, zero when there were
none. -/
def hitRate (stats : CacheStats) : Float :=
  let lookups := stats.hits + stats.misses
  if lookups = 0 then 0.0 else stats.hits.toFloat / lookups.toFloat

/-- The counters as a record. -/
def toJson (stats : CacheStats) : Json :=
  .record [
    ("hits", .nat stats.hits.toNat),
    ("misses", .nat stats.misses.toNat),
    ("sync_hits", .nat stats.syncHits.toNat),
    ("async_hits", .nat stats.asyncHits.toNat),
    ("errors", .nat stats.errors.toNat)]

/-- Reads counters. -/
def ofJson? (value : Json) : Option CacheStats := do
  match ← value.asFields? ["hits", "misses", "sync_hits", "async_hits", "errors"] with
  | [hits, misses, syncHits, asyncHits, errors] => do
    return {
      hits := ← Json.required? Json.asUInt64? hits
      misses := ← Json.required? Json.asUInt64? misses
      syncHits := ← Json.required? Json.asUInt64? syncHits
      asyncHits := ← Json.required? Json.asUInt64? asyncHits
      errors := ← Json.required? Json.asUInt64? errors }
  | _ => none

end CacheStats

end RouteAudit
