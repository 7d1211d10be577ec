import Mathlib.Data.List.Perm.Subperm
import RouteAudit.Proofs.Store.Pending

/-! # Stores with room

A store that has room for all that is recorded never drops an entry: however often it writes on the
way, memory holds the recordings in the end as if it had not written at all (`run_entries`).
-/

namespace RouteAudit

namespace Storage.Dictionary

variable {α : Type} {dictionary : Dictionary α} {key : String}

theorem nodup_keys (dictionary : Dictionary α) : dictionary.keys.Nodup :=
  nodup_of_sorted dictionary.sorted

theorem mem_keys_insert {other : String} {value : α} :
    other ∈ (dictionary.insert key value).keys ↔ other = key ∨ other ∈ dictionary.keys := by
  have hperm := (perm_insert dictionary key value).map (·.1)
  rw [keys, hperm.mem_iff]
  by_cases hkey : other = key <;> simp [keys, hkey]

theorem contains_iff : dictionary.contains key ↔ key ∈ dictionary.keys := by
  rw [contains, Option.isSome_iff_exists]
  simp [get?_eq_some_iff, keys]

/-- As many entries as fit into a list of keys. -/
theorem size_le {room : List String} (h : ∀ key ∈ dictionary.keys, key ∈ room) :
    dictionary.size ≤ room.length := by
  have hlength := (List.subperm_of_subset dictionary.nodup_keys h).length_le
  simpa [keys, size] using hlength

end Storage.Dictionary

namespace Store

open Storage (Dictionary)

/-- Recordings, and writes of what was recorded, take nothing back. -/
def Turn.Adds (turn : Turn) : Prop :=
  match turn.operation with
  | .record .. | .flushIfDirty => True
  | .save | .clear | .load => False

variable {kept : Kept} {turn : Turn} {turns : List Turn} {entries : Dictionary Entry}
  {added : List Entry} {room : List String} {key : String}

theorem mem_keys_insertAll :
    key ∈ (insertAll entries added).keys ↔ key ∈ entries.keys ∨ key ∈ added.map (·.hash) := by
  induction added generalizing entries with
  | nil => simp [insertAll]
  | cons entry added ih =>
      have hinsert : insertAll entries (entry :: added) =
          insertAll (entries.insert entry.hash entry) added := rfl
      rw [hinsert, ih, Dictionary.mem_keys_insert, List.map_cons, List.mem_cons, or_assoc,
        or_left_comm]

/-- Below the limit there is nothing to evict. -/
theorem evict_of_size_le {manifest : Manifest} {limit : Nat} (h : manifest.size ≤ limit) :
    (manifest.evict limit).2 = manifest := by
  have hnone : manifest.excess limit = [] := if_pos h
  have hall : manifest.entries.without [] = manifest.entries :=
    Dictionary.eq_of_entries (by simp [Dictionary.without])
  simp [Manifest.evict, hnone, hall]

theorem save_entries {store : Store} {site : Site} {now : Int64}
    (h : store.size ≤ store.options.maxEntries) :
    (store.save site now).store.manifest.entries = store.manifest.entries := by
  rw [save_manifest, evict_of_size_le h]

/-- With room for what a turn records, memory is what it was with that put in. -/
theorem turn_entries (hadds : turn.Adds)
    (hroom : (insertAll kept.store.manifest.entries turn.recorded).size ≤
      kept.store.options.maxEntries) :
    (kept.turn turn).store.manifest.entries =
        insertAll kept.store.manifest.entries turn.recorded ∧
      (kept.turn turn).store.options = kept.store.options := by
  obtain ⟨operation, now, fault⟩ := turn
  cases operation with
  | record base pattern durationNs =>
      refine ⟨?_, record_options ..⟩
      simp only [Kept.turn, Kept.ofDone, record_store]
      split
      · exact save_entries hroom
      · rfl
  | flushIfDirty =>
      simp only [Kept.turn, Kept.ofDone, flushIfDirty]
      split
      · exact ⟨rfl, rfl⟩
      · rw [saveFor_store]
        exact ⟨save_entries hroom, save_options ..⟩
  | save | clear | load => exact hadds.elim

/-- A run that records no more keys than a store has room for leaves all of them in memory. -/
theorem run_entries (hadds : ∀ turn ∈ turns, turn.Adds)
    (hheld : ∀ key ∈ kept.store.manifest.entries.keys, key ∈ room)
    (hkeys : ∀ entry ∈ turns.flatMap Turn.recorded, entry.hash ∈ room)
    (hroom : room.length ≤ kept.store.options.maxEntries) :
    (kept.run turns).store.manifest.entries =
      insertAll kept.store.manifest.entries (turns.flatMap Turn.recorded) := by
  induction turns generalizing kept with
  | nil => rfl
  | cons turn turns ih =>
      obtain ⟨hturn, hturns⟩ := List.forall_mem_cons.mp hadds
      rw [List.flatMap_cons, List.forall_mem_append] at hkeys
      obtain ⟨hfirst, hrest⟩ := hkeys
      have hnext : ∀ key ∈ (insertAll kept.store.manifest.entries turn.recorded).keys,
          key ∈ room := by
        intro key hkey
        rcases mem_keys_insertAll.mp hkey with hold | hnew
        · exact hheld key hold
        · obtain ⟨entry, hentry, rfl⟩ := List.mem_map.mp hnew
          exact hfirst entry hentry
      obtain ⟨hentries, hoptions⟩ := turn_entries hturn ((Dictionary.size_le hnext).trans hroom)
      rw [← hentries] at hnext
      rw [← hoptions] at hroom
      rw [List.flatMap_cons, insertAll_append, ← hentries]
      exact ih hturns hnext hrest hroom

end Store

end RouteAudit
