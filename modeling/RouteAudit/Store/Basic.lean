import RouteAudit.Event
import RouteAudit.Store.Manifest
import RouteAudit.Store.Site

/-! # The store of compilations

A store holds a manifest in memory and keeps a copy of it in a file, as well as it
can: where the file cannot be read it starts afresh, and where it cannot be
written the store goes on in memory and says so. New entries are written after so
many of them, or when somebody asks.

Eviction comes before writing, so the limit holds in memory whether the write
succeeds or not. Stores on one file do not know of each other: the last write
stays.
-/

namespace RouteAudit

open Storage (WriteFault)
open Store (Manifest Entry Site Stored)

/-- The limits of a store. -/
structure StoreOptions where
  maxEntries : Nat := 10000
  /-- How many new entries make the store write itself; zero for never. -/
  flushEvery : Nat := 50
  deriving Repr, BEq, DecidableEq

/-- The compilations known so far. -/
structure Store where
  manifest : Manifest
  options : StoreOptions
  /-- The entries recorded since the last write or reading. -/
  unsaved : Nat
  deriving Repr, DecidableEq

namespace Store

/-- Why a file was given up. -/
inductive ResetReason where
  | unreadable
  | malformed
  | version (found : UInt32)
  deriving Repr, BEq, DecidableEq

/-- The words for a file that was given up, without the cause. -/
def ResetReason.message : ResetReason → String
  | unreadable => "read failed"
  | malformed => "parse failed"
  | version found =>
    "version " ++ toString found.toNat ++ " != " ++ toString manifestVersion.toNat

/-- What a reading of the file came to. -/
inductive LoadStatus where
  | loaded (entries : Nat)
  | missing
  | reset (reason : ResetReason)
  deriving Repr, BEq, DecidableEq

/-- What a write came to: how many entries were written, and how many were dropped
before. -/
structure Saved where
  written : Nat
  evicted : Nat
  deriving Repr, BEq, DecidableEq

/-- What an operation leaves behind, tells and answers. -/
structure Done (α : Type) where
  store : Store
  site : Site
  events : List Event
  answer : α

/-- A store with nothing in it. -/
def new (options : StoreOptions) (now : Int64) : Store := ⟨.fresh now, options, 0⟩

/-- The manifest that a reading leads to, and what it came to. -/
def manifestOf (stored : Stored) (now : Int64) : Manifest × LoadStatus :=
  match stored with
  | .absent => (.fresh now, .missing)
  | .unreadable => (.fresh now, .reset .unreadable)
  | .content bytes =>
    match Manifest.ofFileBytes? bytes with
    | none => (.fresh now, .reset .malformed)
    | some manifest =>
      if manifest.version = manifestVersion then (manifest, .loaded manifest.size)
      else (.fresh now, .reset (.version manifest.version))

/-- Takes the manifest from the file. What was in memory is gone. -/
def load (store : Store) (site : Site) (now : Int64) : Store × LoadStatus :=
  let (manifest, status) := manifestOf site.stored now
  ({ store with manifest, unsaved := 0 }, status)

/-- A store with what its file holds. -/
def openAt (site : Site) (options : StoreOptions) (now : Int64) : Store :=
  ((new options now).load site now).1

/-- How many entries there are. -/
def size (store : Store) : Nat := store.manifest.size

/-- The entry of a pattern on a base. -/
def get? (store : Store) (base pattern : String) : Option Entry :=
  store.manifest.entries.get? (entryHash base pattern)

/-- Whether there is an entry of a pattern on a base. -/
def contains (store : Store) (base pattern : String) : Bool :=
  store.manifest.entries.contains (entryHash base pattern)

/-- Drops entries beyond the limit and replaces the file. -/
def save (store : Store) (site : Site) (now : Int64) : Done (Except WriteFault Saved) :=
  -- Eviction comes first, so that the limit holds even where the write fails.
  let (evicted, manifest) := store.manifest.evict store.options.maxEntries
  let store := { store with manifest := { manifest with updated := now } }
  match site.replace store.manifest.fileText.toUTF8 with
  | .error fault => ⟨store, site, [], .error fault⟩
  | .ok site => ⟨{ store with unsaved := 0 }, site, [], .ok ⟨store.size, evicted.length⟩⟩

/-- Writes, and tells of a failure under the name of what was going on. -/
def saveFor (operation : String) (store : Store) (site : Site) (now : Int64) :
    Done (Option Saved) :=
  let done := store.save site now
  match done.answer with
  | .ok saved => { done with answer := some saved }
  | .error _ => { done with answer := none, events := [.persistError operation] }

/-- The store with an entry put in, before any writing. -/
def put (store : Store) (entry : Entry) : Store :=
  { store with
    manifest := store.manifest.insert entry.hash entry
    unsaved := store.unsaved + 1 }

/-- Whether it is time to write. -/
def isDue (store : Store) : Bool :=
  0 < store.options.flushEvery && store.options.flushEvery ≤ store.unsaved

/-- Records a compilation in place of an earlier one of the same pattern and base. -/
def record (store : Store) (site : Site) (now : Int64) (base pattern : String)
    (durationNs : UInt64) : Done Unit :=
  let store := store.put ⟨pattern, base, now, durationNs, entryHash base pattern⟩
  if store.isDue then
    let done := store.saveFor "flush" site now
    { done with answer := () }
  else ⟨store, site, [], ()⟩

/-- Writes if something was recorded since the last time. -/
def flushIfDirty (store : Store) (site : Site) (now : Int64) : Done (Option Saved) :=
  if store.unsaved = 0 then ⟨store, site, [], none⟩ else store.saveFor "flush" site now

/-- Drops all entries, writes, and tells how many there were. -/
def clear (store : Store) (site : Site) (now : Int64) : Done Nat :=
  -- The count is taken before, and is told whether the write succeeds or not.
  let done := { store with manifest := .fresh now }.saveFor "clear" site now
  { done with answer := store.size }

end Store

end RouteAudit
