import RouteAudit.Store.Basic

/-! # Runs of a store

A run is a row of turns: in each one the store is asked for something at some time, and the
world lets a write succeed or makes it fail at some step. Whatever the world does, memory
changes in the same way; it decides only what is in the file and what counts as unsaved.
-/

namespace RouteAudit.Store

open Storage (Dictionary WriteFault)

/-- What a store can be asked for that may change it. -/
inductive Operation where
  | record (base pattern : String) (durationNs : UInt64)
  | save
  | flushIfDirty
  | clear
  | load
  deriving Repr, BEq, DecidableEq

/-- An operation, its time, and the step at which a write would fail then. -/
structure Turn where
  operation : Operation
  now : Int64
  fault : Option WriteFault := none
  deriving Repr, BEq, DecidableEq

/-- A store and what it finds where it keeps its file. -/
structure Kept where
  store : Store
  site : Site

/-- The entry that a recording makes. -/
def entryOf (now : Int64) (base pattern : String) (durationNs : UInt64) : Entry :=
  ⟨pattern, base, now, durationNs, entryHash base pattern⟩

namespace Kept

/-- What an operation leaves behind. -/
def ofDone {α : Type} (done : Done α) : Kept := ⟨done.store, done.site⟩

/-- One turn. -/
def turn (kept : Kept) (turn : Turn) : Kept :=
  let site := { kept.site with fault := turn.fault }
  match turn.operation with
  | .record base pattern durationNs =>
    ofDone (kept.store.record site turn.now base pattern durationNs)
  | .save => ofDone (kept.store.save site turn.now)
  | .flushIfDirty => ofDone (kept.store.flushIfDirty site turn.now)
  | .clear => ofDone (kept.store.clear site turn.now)
  | .load => ⟨(kept.store.load site turn.now).1, site⟩

/-- Turns in a row. -/
def run (kept : Kept) (turns : List Turn) : Kept := turns.foldl Kept.turn kept

theorem run_concat (kept : Kept) (turns : List Turn) (last : Turn) :
    kept.run (turns ++ [last]) = (kept.run turns).turn last := by
  rw [run, run, List.foldl_append]
  rfl

end Kept

section

variable (store : Store) (site : Site) (now : Int64)

/-! ## What a write does to memory -/

theorem save_manifest : (store.save site now).store.manifest =
    { (store.manifest.evict store.options.maxEntries).2 with updated := now } := by
  unfold save
  dsimp only
  split <;> rfl

theorem save_options : (store.save site now).store.options = store.options := by
  unfold save
  dsimp only
  split <;> rfl

theorem saveFor_store (operation : String) :
    (store.saveFor operation site now).store = (store.save site now).store := by
  unfold saveFor
  dsimp only
  split <;> rfl

theorem saveFor_site (operation : String) :
    (store.saveFor operation site now).site = (store.save site now).site := by
  unfold saveFor
  dsimp only
  split <;> rfl

/-- A recording puts its entry in, and writes when it is time to. -/
theorem record_store (base pattern : String) (durationNs : UInt64) :
    (store.record site now base pattern durationNs).store =
      let added := store.put (entryOf now base pattern durationNs)
      if added.isDue then (added.save site now).store else added := by
  unfold record
  dsimp only [entryOf]
  split
  next => exact saveFor_store _ site now "flush"
  next => rfl

theorem record_site (base pattern : String) (durationNs : UInt64) :
    (store.record site now base pattern durationNs).site =
      let added := store.put (entryOf now base pattern durationNs)
      if added.isDue then (added.save site now).site else site := by
  unfold record
  dsimp only [entryOf]
  split
  next => exact saveFor_site _ site now "flush"
  next => rfl

theorem record_options (base pattern : String) (durationNs : UInt64) :
    (store.record site now base pattern durationNs).store.options = store.options := by
  rw [record_store]
  dsimp only
  split
  next => exact save_options _ site now
  next => rfl

end

end RouteAudit.Store
