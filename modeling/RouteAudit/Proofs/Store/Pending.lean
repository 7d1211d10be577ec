import RouteAudit.Proofs.Store.File
import RouteAudit.Proofs.Store.Runs

/-! # Memory and file

As long as every write succeeds, memory is what a store that opens the file would find there,
with the recordings since the last write or reading put in (`Synced`). The store counts
these recordings, and a store that writes itself never has as many of them as make it write.
-/

namespace RouteAudit.Store

open Storage (Dictionary)

/-- The entry that a turn records, if it records one. -/
def Turn.recorded (turn : Turn) : List Entry :=
  match turn.operation with
  | .record base pattern durationNs => [entryOf turn.now base pattern durationNs]
  | _ => []

namespace Kept

/-- Whether a turn writes: it leaves a file where there was none. -/
def writes (kept : Kept) (turn : Turn) : Bool :=
  match (Kept.turn ⟨kept.store, { kept.site with stored := .absent }⟩ turn).site.stored with
  | .absent => false
  | _ => true

/-- The entries recorded since the last turn that wrote or read the file, when some were
before the turns. -/
def pending (kept : Kept) (before : List Entry) : List Turn → List Entry
  | [] => before
  | turn :: turns =>
    let since :=
      if kept.writes turn ∨ turn.operation = .load then [] else before ++ turn.recorded
    (kept.turn turn).pending since turns

end Kept

/-- Entries put in one after another. -/
def insertAll (entries : Dictionary Entry) (added : List Entry) : Dictionary Entry :=
  added.foldl (fun entries entry => entries.insert entry.hash entry) entries

section

variable {store : Store} {site : Site} {now : Int64}

/-! ## What a reading finds -/

/-- The entries that a reading finds do not depend on its time. -/
theorem entries_manifestOf (stored : Stored) (first second : Int64) :
    (manifestOf stored first).1.entries = (manifestOf stored second).1.entries := by
  unfold manifestOf
  split
  · rfl
  · rfl
  · split
    · rfl
    · split <;> rfl

theorem version_manifestOf (stored : Stored) (now : Int64) :
    (manifestOf stored now).1.version = manifestVersion := by
  unfold manifestOf
  split
  · rfl
  · rfl
  · split
    · rfl
    · split
      next h => exact h
      next => rfl

/-- The entries that a store finds when it is opened. -/
def onFile (site : Site) : Dictionary Entry := (manifestOf site.stored 0).1.entries

theorem entries_openAt (site : Site) (options : StoreOptions) (now : Int64) :
    (openAt site options now).manifest.entries = onFile site :=
  entries_manifestOf site.stored now 0

/-! ## What a write does -/

theorem save_site (hfault : site.fault = none) : (store.save site now).site =
    { site with stored := .content (store.save site now).store.manifest.fileText.toUTF8 } := by
  unfold save
  dsimp only
  rw [Site.replace, hfault]

theorem save_unsaved (hfault : site.fault = none) : (store.save site now).store.unsaved = 0 := by
  unfold save
  dsimp only
  rw [Site.replace, hfault]

theorem save_version : (store.save site now).store.manifest.version = store.manifest.version := by
  rw [save_manifest]
  rfl

/-- What was written is what is found. -/
theorem onFile_save (hfault : site.fault = none)
    (hversion : store.manifest.version = manifestVersion) :
    onFile (store.save site now).site = (store.save site now).store.manifest.entries := by
  have hread := Manifest.ofFileBytes?_fileText (store.save site now).store.manifest
  rw [onFile, save_site hfault, manifestOf, hread]
  dsimp only
  rw [if_pos (save_version.trans hversion)]

end

/-! ## What a turn can do -/

namespace Kept

/-- The site of a turn. -/
def siteOf (kept : Kept) (turn : Turn) : Site := { kept.site with fault := turn.fault }

/-- A turn writes some store, or it reads the file, or it touches memory alone. -/
inductive Outcome (kept : Kept) (turn : Turn) : Prop where
  | saved (store : Store) (hoptions : store.options = kept.store.options)
      (hversion : kept.store.manifest.version = manifestVersion →
        store.manifest.version = manifestVersion)
      (hstore : (kept.turn turn).store = (store.save (kept.siteOf turn) turn.now).store)
      (hsite : (kept.turn turn).site = (store.save (kept.siteOf turn) turn.now).site)
      (hwrites : kept.writes turn = true)
  | loaded (hload : turn.operation = .load)
      (hturn : kept.turn turn =
        ⟨(kept.store.load (kept.siteOf turn) turn.now).1, kept.siteOf turn⟩)
  | noted (hload : turn.operation ≠ .load) (hwrites : kept.writes turn = false)
      (hturn : kept.turn turn = ⟨turn.recorded.foldl put kept.store, kept.siteOf turn⟩)
      (hdue : 0 < kept.store.options.flushEvery →
        kept.store.unsaved < kept.store.options.flushEvery →
          kept.store.unsaved + turn.recorded.length < kept.store.options.flushEvery)

section

variable {kept : Kept} {turn : Turn}

theorem writes_of_save (store : Store)
    (h : (Kept.turn ⟨kept.store, { kept.site with stored := .absent }⟩ turn).site =
      (store.save { stored := .absent, fault := turn.fault } turn.now).site) :
    kept.writes turn ↔ turn.fault = none := by
  rw [writes, h]
  cases hfault : turn.fault with
  | none => simp [save_site]
  | some fault => simp [save, Site.replace]

theorem not_writes (h : (Kept.turn ⟨kept.store, { kept.site with stored := .absent }⟩ turn).site =
    { stored := .absent, fault := turn.fault }) : kept.writes turn = false := by
  rw [writes, h]

theorem outcome_saved (store : Store) (hfault : turn.fault = none)
    (hoptions : store.options = kept.store.options)
    (hversion : kept.store.manifest.version = manifestVersion →
      store.manifest.version = manifestVersion)
    (hturn : ∀ stored, Kept.turn ⟨kept.store, { kept.site with stored }⟩ turn =
      ofDone (store.save { stored, fault := turn.fault } turn.now)) : Outcome kept turn := by
  have hkept := hturn kept.site.stored
  have hnew := congrArg Kept.site (hturn .absent)
  exact .saved store hoptions hversion (congrArg Kept.store hkept) (congrArg Kept.site hkept)
    ((writes_of_save store hnew).mpr hfault)

theorem outcome (kept : Kept) (hfault : turn.fault = none) : Outcome kept turn := by
  obtain ⟨operation, now, fault⟩ := turn
  cases operation with
  | record base pattern durationNs =>
      have hturn (stored : Stored) :=
        congrArg₂ Kept.mk
          (record_store kept.store { stored, fault } now base pattern durationNs)
          (record_site kept.store { stored, fault } now base pattern durationNs)
      dsimp only at hturn
      by_cases hdue : (kept.store.put (entryOf now base pattern durationNs)).isDue
      · simp only [if_pos hdue] at hturn
        exact outcome_saved (kept.store.put (entryOf now base pattern durationNs)) hfault rfl id
          hturn
      · simp only [if_neg hdue] at hturn
        refine .noted nofun (not_writes (congrArg Kept.site (hturn .absent)))
          (hturn kept.site.stored) ?_
        intro hpos _
        rw [isDue, Bool.and_eq_true, decide_eq_true_eq, decide_eq_true_eq, not_and] at hdue
        exact Nat.lt_of_not_le (hdue hpos)
  | save => exact outcome_saved kept.store hfault rfl id fun _ => rfl
  | flushIfDirty =>
      by_cases hclean : kept.store.unsaved = 0
      · have hturn (stored : Stored) : kept.store.flushIfDirty { stored, fault } now =
            ⟨kept.store, { stored, fault }, [], none⟩ := if_pos hclean
        have hnew := congrArg Done.site (hturn .absent)
        refine .noted nofun (not_writes hnew) (congrArg ofDone (hturn kept.site.stored)) ?_
        exact fun _ hbelow => hbelow
      · have hturn (stored : Stored) : kept.store.flushIfDirty { stored, fault } now =
            kept.store.saveFor "flush" { stored, fault } now := if_neg hclean
        refine outcome_saved kept.store hfault rfl id ?_
        intro stored
        exact (congrArg ofDone (hturn stored)).trans
          (congrArg₂ Kept.mk (saveFor_store ..) (saveFor_site ..))
  | clear =>
      refine outcome_saved { kept.store with manifest := .fresh now } hfault rfl
        (fun _ => rfl) ?_
      intro stored
      exact congrArg₂ Kept.mk (saveFor_store ..) (saveFor_site ..)
  | load => exact .loaded rfl rfl

/-- A turn writes if writing does not fail and it is asked to: a save and a clearing always are, a
flush is where something is unsaved, a recording where it makes the store write itself, and a
reading never is. -/
theorem writes_iff (kept : Kept) (turn : Turn) : kept.writes turn ↔ turn.fault = none ∧
    match turn.operation with
    | .record base pattern durationNs =>
      (kept.store.put (entryOf turn.now base pattern durationNs)).isDue = true
    | .save | .clear => True
    | .flushIfDirty => kept.store.unsaved ≠ 0
    | .load => False := by
  obtain ⟨operation, now, fault⟩ := turn
  cases operation with
  | record base pattern durationNs =>
      have hsite := record_site kept.store { stored := .absent, fault } now base pattern durationNs
      by_cases hdue : (kept.store.put (entryOf now base pattern durationNs)).isDue
      · rw [if_pos hdue] at hsite
        have hwrites : kept.writes ⟨.record base pattern durationNs, now, fault⟩ ↔ fault = none :=
          writes_of_save (kept.store.put (entryOf now base pattern durationNs)) hsite
        simpa [hdue] using hwrites
      · rw [if_neg hdue] at hsite
        have hwrites : kept.writes ⟨.record base pattern durationNs, now, fault⟩ = false :=
          not_writes hsite
        simpa [hdue] using hwrites
  | save =>
      have hwrites : kept.writes ⟨.save, now, fault⟩ ↔ fault = none :=
        writes_of_save kept.store rfl
      simpa using hwrites
  | flushIfDirty =>
      by_cases hclean : kept.store.unsaved = 0
      · have hdone : kept.store.flushIfDirty { stored := .absent, fault } now =
            ⟨kept.store, { stored := .absent, fault }, [], none⟩ := if_pos hclean
        have hwrites : kept.writes ⟨.flushIfDirty, now, fault⟩ = false :=
          not_writes (congrArg Done.site hdone)
        simpa [hclean] using hwrites
      · have hdone : kept.store.flushIfDirty { stored := .absent, fault } now =
            kept.store.saveFor "flush" { stored := .absent, fault } now := if_neg hclean
        have hwrites : kept.writes ⟨.flushIfDirty, now, fault⟩ ↔ fault = none :=
          writes_of_save kept.store ((congrArg Done.site hdone).trans (saveFor_site ..))
        simpa [hclean] using hwrites
  | clear =>
      have hwrites : kept.writes ⟨.clear, now, fault⟩ ↔ fault = none :=
        writes_of_save { kept.store with manifest := .fresh now } (saveFor_site ..)
      simpa using hwrites
  | load =>
      have hwrites : kept.writes ⟨.load, now, fault⟩ = false := not_writes rfl
      simpa using hwrites

end

end Kept

/-! ## Runs -/

theorem insertAll_append (entries : Dictionary Entry) (first second : List Entry) :
    insertAll entries (first ++ second) = insertAll (insertAll entries first) second :=
  List.foldl_append

theorem put_all (added : List Entry) (store : Store) :
    added.foldl put store = { store with
      manifest := { store.manifest with entries := insertAll store.manifest.entries added }
      unsaved := store.unsaved + added.length } := by
  induction added generalizing store with
  | nil => rfl
  | cons entry added ih =>
      rw [List.foldl_cons, ih]
      simp [put, insertAll, Manifest.insert, Nat.add_right_comm, Nat.add_assoc]

/-- Memory is what is on file with some entries put in, and these are counted. -/
structure Synced (kept : Kept) (added : List Entry) : Prop where
  entries : kept.store.manifest.entries = insertAll (onFile kept.site) added
  unsaved : kept.store.unsaved = added.length
  below : 0 < kept.store.options.flushEvery →
    kept.store.unsaved < kept.store.options.flushEvery
  version : kept.store.manifest.version = manifestVersion

namespace Synced

variable {kept : Kept} {turn : Turn} {added : List Entry}

theorem load (store : Store) (site : Site) (now : Int64) :
    Synced ⟨(store.load site now).1, site⟩ [] :=
  ⟨entries_manifestOf site.stored now 0, rfl, id, version_manifestOf site.stored now⟩

theorem step (h : Synced kept added) (turn : Turn) (hfault : turn.fault = none) :
    Synced (kept.turn turn)
      (if kept.writes turn ∨ turn.operation = .load then [] else added ++ turn.recorded) := by
  have hsite : (kept.siteOf turn).fault = none := hfault
  cases kept.outcome hfault with
  | saved store hoptions hversion hstore hsaved hwrites =>
      -- Eviction happens before the file is written, so both are without what it dropped.
      rw [if_pos (.inl hwrites)]
      refine ⟨?_, ?_, ?_, ?_⟩
      · rw [hstore, hsaved]
        exact (onFile_save hsite (hversion h.version)).symm
      · rw [hstore]
        exact save_unsaved hsite
      · rw [hstore, save_unsaved hsite]
        exact id
      · rw [hstore]
        exact save_version.trans (hversion h.version)
  | loaded hload hturn =>
      rw [if_pos (.inr hload), hturn]
      exact load kept.store _ turn.now
  | noted hload hwrites hturn hdue =>
      have hnot : ¬ (kept.writes turn = true ∨ turn.operation = .load) := by
        rw [hwrites]
        simpa using hload
      rw [if_neg hnot, hturn, put_all]
      refine ⟨?_, ?_, fun hpos => hdue hpos (h.below hpos), h.version⟩
      · rw [insertAll_append]
        exact congrArg (insertAll · turn.recorded) h.entries
      · rw [List.length_append]
        exact congrArg (· + turn.recorded.length) h.unsaved

theorem options (kept : Kept) (turn : Turn) (hfault : turn.fault = none) :
    (kept.turn turn).store.options = kept.store.options := by
  cases kept.outcome hfault with
  | saved store hoptions _ hstore _ _ => rw [hstore, save_options, hoptions]
  | loaded _ hturn => rw [hturn]; rfl
  | noted _ _ hturn _ => rw [hturn, put_all]

theorem run (h : Synced kept added) {turns : List Turn}
    (hfaults : ∀ turn ∈ turns, turn.fault = none) :
    Synced (kept.run turns) (kept.pending added turns) ∧
      (kept.run turns).store.options = kept.store.options := by
  induction turns generalizing kept added with
  | nil => exact ⟨h, rfl⟩
  | cons turn turns ih =>
      obtain ⟨hfault, hfaults⟩ := List.forall_mem_cons.mp hfaults
      obtain ⟨hsynced, hoptions⟩ := ih (h.step turn hfault) hfaults
      exact ⟨hsynced, hoptions.trans (options kept turn hfault)⟩

end Synced

/-- A store that was opened on whatever its file held, and whose writes all succeed, holds at
any time what a store opened then would find, with the recordings since the last write or
reading put in one after another. It counts these, and where it writes itself they are
fewer than make it write. With none of them memory and file agree. -/
theorem no_update_lost (site : Site) (options : StoreOptions) (now : Int64) {turns : List Turn}
    (hfaults : ∀ turn ∈ turns, turn.fault = none) :
    let opened : Kept := ⟨openAt site options now, site⟩
    let reached := opened.run turns
    let pending := opened.pending [] turns
    (∀ others later, reached.store.manifest.entries =
        insertAll (openAt reached.site others later).manifest.entries pending) ∧
      reached.store.unsaved = pending.length ∧
      (0 < options.flushEvery → reached.store.unsaved < options.flushEvery) ∧
      (reached.store.unsaved = 0 → ∀ others later,
        reached.store.manifest.entries = (openAt reached.site others later).manifest.entries) := by
  intro opened reached pending
  have hopened : Synced opened [] := Synced.load (new options now) site now
  obtain ⟨hsynced, hoptions⟩ := hopened.run hfaults
  have hentries : ∀ others later, reached.store.manifest.entries =
      insertAll (openAt reached.site others later).manifest.entries pending := by
    intro others later
    rw [entries_openAt]
    exact hsynced.entries
  refine ⟨hentries, hsynced.unsaved, ?_, ?_⟩
  · intro hpos
    have hbelow := hsynced.below
    rw [hoptions] at hbelow
    exact hbelow hpos
  · intro hclean others later
    have hnone : pending = [] := List.length_eq_zero_iff.mp (hsynced.unsaved.symm.trans hclean)
    rw [hentries others later, hnone]
    rfl

/-- A recording that a reading of an unreadable file drops is not among those to come. -/
theorem reading_drops_pending :
    let site : Site := { stored := .unreadable }
    let opened : Kept := ⟨openAt site ⟨1, 2⟩ 0, site⟩
    let turns : List Turn :=
      [⟨.record "" "/a" 1, 1, none⟩, ⟨.load, 2, none⟩, ⟨.record "" "/b" 1, 3, none⟩]
    (∀ turn ∈ turns, turn.fault = none) ∧
      opened.pending [] turns = [entryOf 3 "" "/b" 1] ∧
        (opened.run turns).store.unsaved = 1 := by
  intro site opened turns
  have hfaults : ∀ turn ∈ turns, turn.fault = none := by decide
  have hpending : opened.pending [] turns = [entryOf 3 "" "/b" 1] := rfl
  obtain ⟨-, hunsaved, -⟩ := no_update_lost site ⟨1, 2⟩ 0 hfaults
  exact ⟨hfaults, hpending, hunsaved.trans (congrArg List.length hpending)⟩

end RouteAudit.Store
