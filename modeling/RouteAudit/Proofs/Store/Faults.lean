import RouteAudit.Proofs.Store.Oldest

/-! # Writes that fail

A store trims its manifest before it writes, so memory is the same whether the write succeeds or
not, and within the limit. A write that fails leaves the file and the count of what is unsaved as
they were. So a recording that made the store write leaves it due, and it stays due, whatever
it is asked for and however often that fails, until a write succeeds or the file is read again
(`isDue_run`).
-/

namespace RouteAudit.Store

open Storage (WriteFault)

/-- What a store has in memory while it writes. -/
def trimmed (store : Store) (now : Int64) : Manifest :=
  { (store.manifest.evict store.options.maxEntries).2 with updated := now }

section

variable {store : Store} {site : Site} {now : Int64} {fault : WriteFault}

theorem size_trimmed (store : Store) (now : Int64) :
    (store.trimmed now).size = min store.size store.options.maxEntries :=
  Manifest.size_evict store.manifest store.options.maxEntries

theorem length_evicted (store : Store) (now : Int64) :
    (store.manifest.evict store.options.maxEntries).1.length =
      store.size - (store.trimmed now).size := by
  rw [Manifest.keys_evict, List.length_map, List.length_take, Manifest.length_inOrder,
    size_trimmed, size]
  omega

/-! ## One write -/

theorem save_of_fault (h : site.fault = some fault) : store.save site now =
    ⟨{ store with manifest := store.trimmed now }, site, [], .error fault⟩ := by
  unfold save
  dsimp only
  rw [Site.replace, h]
  rfl

theorem save_of_no_fault (h : site.fault = none) : store.save site now =
    ⟨{ store with manifest := store.trimmed now, unsaved := 0 },
      { site with stored := .content (store.trimmed now).fileText.toUTF8 }, [],
      .ok ⟨(store.trimmed now).size, store.size - (store.trimmed now).size⟩⟩ := by
  unfold save
  dsimp only
  rw [Site.replace, h, length_evicted store now]
  rfl

theorem saveFor_of_fault {operation : String} (h : site.fault = some fault) :
    store.saveFor operation site now =
      ⟨{ store with manifest := store.trimmed now }, site, [.persistError operation], none⟩ := by
  rw [saveFor, save_of_fault h]

theorem saveFor_of_no_fault {operation : String} (h : site.fault = none) :
    store.saveFor operation site now =
      ⟨{ store with manifest := store.trimmed now, unsaved := 0 },
        { site with stored := .content (store.trimmed now).fileText.toUTF8 }, [],
        some ⟨(store.trimmed now).size, store.size - (store.trimmed now).size⟩⟩ := by
  rw [saveFor, save_of_no_fault h]

/-! ## A store that is due -/

variable {base pattern : String} {durationNs : UInt64}

theorem record_of_due (h : (store.put (entryOf now base pattern durationNs)).isDue) :
    store.record site now base pattern durationNs =
      { (store.put (entryOf now base pattern durationNs)).saveFor "flush" site now with
        answer := () } :=
  if_pos h

theorem record_of_not_due (h : ¬ (store.put (entryOf now base pattern durationNs)).isDue) :
    store.record site now base pattern durationNs =
      ⟨store.put (entryOf now base pattern durationNs), site, [], ()⟩ :=
  if_neg h

theorem isDue_iff : store.isDue ↔
    0 < store.options.flushEvery ∧ store.options.flushEvery ≤ store.unsaved := by
  simp [isDue]

/-- A store stays due when the options are what they were and no less is unsaved. -/
theorem isDue_of_le {later : Store} (h : store.isDue) (hoptions : later.options = store.options)
    (hunsaved : store.unsaved ≤ later.unsaved) : later.isDue := by
  rw [isDue_iff] at h ⊢
  rw [hoptions]
  exact ⟨h.1, h.2.trans hunsaved⟩

theorem isDue_put (h : store.isDue) (entry : Entry) : (store.put entry).isDue :=
  isDue_of_le h rfl (Nat.le_succ store.unsaved)

theorem isDue_save (h : store.isDue) (hfault : site.fault = some fault) :
    (store.save site now).store.isDue := by
  rw [save_of_fault hfault]
  exact isDue_of_le h rfl (le_refl store.unsaved)

/-- A store that is due stays so in a turn that neither writes nor reads its file. -/
theorem isDue_turn {kept : Kept} {turn : Turn} (h : kept.store.isDue)
    (hfault : turn.fault ≠ none) (hload : turn.operation ≠ .load) :
    (kept.turn turn).store.isDue := by
  obtain ⟨operation, now, fault⟩ := turn
  obtain ⟨fault, rfl⟩ := Option.ne_none_iff_exists'.mp hfault
  cases operation with
  | record base pattern durationNs =>
      have hdue := isDue_put h (entryOf now base pattern durationNs)
      simp only [Kept.turn, Kept.ofDone, record_store, if_pos hdue]
      exact isDue_save hdue rfl
  | save => exact isDue_save h rfl
  | flushIfDirty =>
      simp only [Kept.turn, Kept.ofDone, flushIfDirty]
      split
      · exact h
      · rw [saveFor_store]
        exact isDue_save h rfl
  | clear =>
      have hdue : ({ kept.store with manifest := .fresh now } : Store).isDue := h
      simp only [Kept.turn, Kept.ofDone, clear, saveFor_store]
      exact isDue_save hdue rfl
  | load => exact absurd rfl hload

theorem isDue_run {kept : Kept} {turns : List Turn} (h : kept.store.isDue)
    (hturns : ∀ turn ∈ turns, turn.fault ≠ none ∧ turn.operation ≠ .load) :
    (kept.run turns).store.isDue := by
  induction turns generalizing kept with
  | nil => exact h
  | cons turn turns ih =>
      obtain ⟨hturn, hturns⟩ := List.forall_mem_cons.mp hturns
      exact ih (isDue_turn h hturn.1 hturn.2) hturns

/-- Clearing trims nothing, since there is nothing. -/
theorem trimmed_fresh (store : Store) (now : Int64) :
    ({ store with manifest := .fresh now } : Store).trimmed now = .fresh now := by
  have hsize : (Manifest.fresh now).size ≤ store.options.maxEntries := Nat.zero_le _
  rw [trimmed, evict_of_size_le hsize]
  rfl

theorem clear_of_fault (h : site.fault = some fault) : store.clear site now =
    ⟨{ store with manifest := .fresh now }, site, [.persistError "clear"], store.size⟩ := by
  rw [clear, saveFor_of_fault h, trimmed_fresh]

theorem clear_of_no_fault (h : site.fault = none) : store.clear site now =
    ⟨{ store with manifest := .fresh now, unsaved := 0 },
      { site with stored := .content (Manifest.fresh now).fileText.toUTF8 }, [], store.size⟩ := by
  rw [clear, saveFor_of_no_fault h, trimmed_fresh]

theorem flushIfDirty_of_fault (h : site.fault = some fault) :
    (store.flushIfDirty site now).answer = none := by
  unfold flushIfDirty
  split
  · rfl
  · rw [saveFor_of_fault h]

end

/-- Every write, whether it fails, and at which step, or not, leaves the manifest trimmed to the
limit in memory. If it fails it tells so and changes neither the count of what is unsaved nor the
file. If not, nothing is unsaved, the file is read as what is in memory, and the answer counts the
entries written and those dropped.

So a recording leaves the same manifest either way. A failed write that it makes is told as an event
and leaves the store due: whatever is asked for then, as long as it fails and the file is not read
again, the next recording makes the store write as well. A failed clearing still empties memory and
tells how many entries there were, and a failed flush answers nothing. -/
theorem failed_write_leaves_memory_trimmed (store : Store) (site : Site) (now : Int64)
    (fault : WriteFault) :
    let failing : Site := { site with fault := some fault }
    let working : Site := { site with fault := none }
    let trimmed := store.trimmed now
    (trimmed.entries = (store.manifest.evict store.options.maxEntries).2.entries ∧
        trimmed.size ≤ store.options.maxEntries ∧
        (store.save failing now).answer = .error fault ∧
        (store.save failing now).store = { store with manifest := trimmed } ∧
        (store.save failing now).site = failing) ∧
      (∃ evicted bytes, store.size = trimmed.size + evicted ∧
        Manifest.ofFileBytes? bytes = some trimmed ∧
        store.save working now =
          ⟨{ store with manifest := trimmed, unsaved := 0 },
            { working with stored := .content bytes }, [], .ok ⟨trimmed.size, evicted⟩⟩) ∧
      (∀ base pattern durationNs,
        let added := store.put (entryOf now base pattern durationNs)
        let failed := store.record failing now base pattern durationNs
        let fine := store.record working now base pattern durationNs
        (added.isDue → failed.store = { fine.store with unsaved := store.unsaved + 1 } ∧
          failed.site = failing ∧ failed.events = [.persistError "flush"] ∧
          fine.store.unsaved = 0 ∧ fine.events = [] ∧
          ∃ bytes, fine.site = { working with stored := .content bytes } ∧
            Manifest.ofFileBytes? bytes = some fine.store.manifest) ∧
        (¬ added.isDue → failed = ⟨added, failing, [], ()⟩ ∧ fine = ⟨added, working, [], ()⟩) ∧
        (added.isDue → ∀ turns : List Turn,
          (∀ turn ∈ turns, turn.fault ≠ none ∧ turn.operation ≠ .load) →
            let reached := Kept.run ⟨failed.store, failed.site⟩ turns
            ∀ (next : Site) later base pattern durationNs,
              let retried := reached.store.record next later base pattern durationNs
              (next.fault ≠ none → retried.events = [.persistError "flush"]) ∧
                (next.fault = none → retried.store.unsaved = 0 ∧
                  ∃ bytes, retried.site.stored = .content bytes ∧
                    Manifest.ofFileBytes? bytes = some retried.store.manifest))) ∧
      store.clear failing now =
        ⟨{ store with manifest := .fresh now }, failing, [.persistError "clear"], store.size⟩ ∧
      (store.clear working now).answer = store.size ∧
      (store.flushIfDirty failing now).answer = none := by
  intro failing working trimmed
  have hfailing : failing.fault = some fault := rfl
  have hworking : working.fault = none := rfl
  refine ⟨⟨rfl, ?_, ?_⟩, ⟨store.size - trimmed.size, _, ?_, trimmed.ofFileBytes?_fileText, ?_⟩, ?_,
    clear_of_fault hfailing, ?_, flushIfDirty_of_fault hfailing⟩
  · exact (size_trimmed store now).trans_le (Nat.min_le_right _ _)
  · rw [save_of_fault hfailing]
    exact ⟨rfl, rfl, rfl⟩
  · have hsize : trimmed.size ≤ store.size :=
      (size_trimmed store now).trans_le (Nat.min_le_left _ _)
    omega
  · exact save_of_no_fault hworking
  · intro base pattern durationNs added failed fine
    refine ⟨fun hdue => ?_, fun hnot => ⟨record_of_not_due hnot, record_of_not_due hnot⟩, ?_⟩
    · have hfailed : failed = { added.saveFor "flush" failing now with answer := () } :=
        record_of_due hdue
      have hfine : fine = { added.saveFor "flush" working now with answer := () } :=
        record_of_due hdue
      rw [hfailed, hfine, saveFor_of_fault hfailing, saveFor_of_no_fault hworking]
      exact ⟨rfl, rfl, rfl, rfl, rfl, _, rfl, Manifest.ofFileBytes?_fileText _⟩
    · intro hdue turns hturns reached next later base pattern durationNs retried
      have hfailed : failed.store.isDue := by
        have hstore : failed.store = (added.save failing now).store :=
          (record_store ..).trans (if_pos hdue)
        rw [hstore]
        exact isDue_save hdue hfailing
      have hreached : reached.store.isDue := isDue_run hfailed hturns
      have hagain := isDue_put hreached (entryOf later base pattern durationNs)
      have hretried : retried = { Store.saveFor "flush" _ next later with answer := () } :=
        record_of_due hagain
      refine ⟨fun hfault => ?_, fun hfault => ?_⟩
      · obtain ⟨fault, hfault⟩ := Option.ne_none_iff_exists'.mp hfault
        rw [hretried, saveFor_of_fault hfault]
      · rw [hretried, saveFor_of_no_fault hfault]
        exact ⟨rfl, _, rfl, Manifest.ofFileBytes?_fileText _⟩
  · rw [clear_of_no_fault hworking]

/-- The second recording is due and its write fails, so do a write and a clearing, and the next
recording tries again: it fails as well or it leaves nothing unsaved. -/
theorem recording_retries_after_failures :
    let store : Store := ⟨.fresh 0, ⟨1, 2⟩, 1⟩
    let failing : Site := { stored := .unreadable, fault := some .rename }
    let failed := store.record failing 2 "" "/b" 1
    let turns : List Turn := [⟨.save, 3, some .directory⟩, ⟨.clear, 4, some .temporary⟩]
    let reached := Kept.run ⟨failed.store, failed.site⟩ turns
    (∀ turn ∈ turns, turn.fault ≠ none ∧ turn.operation ≠ .load) ∧
      failed.events = [.persistError "flush"] ∧ failed.site.stored == .unreadable ∧
      (reached.store.record failing 5 "" "/c" 1).events = [.persistError "flush"] ∧
      (reached.store.record {} 5 "" "/c" 1).store.unsaved = 0 ∧
      ((new ⟨1, 2⟩ 0).record failing 1 "" "/a" 1).events = [] := by
  intro store failing failed turns reached
  have hdue : (store.put (entryOf 2 "" "/b" 1)).isDue := rfl
  have hturns : ∀ turn ∈ turns, turn.fault ≠ none ∧ turn.operation ≠ .load := by decide
  have hnot : ¬ ((new ⟨1, 2⟩ 0).put (entryOf 1 "" "/a" 1)).isDue := Bool.false_ne_true
  obtain ⟨-, -, hrecord, -⟩ := failed_write_leaves_memory_trimmed store failing 2 .rename
  obtain ⟨-, -, hfirst, -⟩ := failed_write_leaves_memory_trimmed (new ⟨1, 2⟩ 0) failing 1 .rename
  obtain ⟨hdone, -, hretry⟩ := hrecord "" "/b" 1
  obtain ⟨-, hsite, hevents, -⟩ := hdone hdue
  obtain ⟨-, hnone, -⟩ := hfirst "" "/a" 1
  refine ⟨hturns, hevents, ?_, ?_, ?_, ?_⟩
  · exact congrArg (fun site : Site => site.stored == .unreadable) hsite
  · exact (hretry hdue turns hturns failing 5 "" "/c" 1).1 nofun
  · exact ((hretry hdue turns hturns {} 5 "" "/c" 1).2 rfl).1
  · exact congrArg Done.events (hnone hnot).1

end RouteAudit.Store
