import RouteAudit.Proofs.Store.Pending

/-! # What a reading leaves in memory

A store that reads its file holds exactly the manifest that was written there, whatever texts and
numbers its entries have. Anything else in place of the file is told apart by how far it can be
read (`Stored.Lost`), and leaves a fresh manifest. What was in memory before never matters.
-/

namespace RouteAudit.Store

/-- The bytes of a file write a manifest of the version that is read. -/
def Stored.Holds (stored : Stored) (manifest : Manifest) : Prop :=
  manifest.version = manifestVersion ∧
    ∃ bytes, stored = .content bytes ∧ Manifest.ofFileBytes? bytes = some manifest

/-- There is no manifest of the version that is read, and that is how it shows. -/
inductive Stored.Lost : Stored → LoadStatus → Prop where
  | absent : Lost .absent .missing
  | unreadable : Lost .unreadable (.reset .unreadable)
  | malformed {bytes : ByteArray} :
      Manifest.ofFileBytes? bytes = none → Lost (.content bytes) (.reset .malformed)
  | version {bytes : ByteArray} {manifest : Manifest} :
      Manifest.ofFileBytes? bytes = some manifest → manifest.version ≠ manifestVersion →
        Lost (.content bytes) (.reset (.version manifest.version))

section

variable {store : Store} {site : Site} {now : Int64} {manifest : Manifest}

theorem holds_or_lost (stored : Stored) :
    (∃ manifest, stored.Holds manifest) ∨ ∃ status, stored.Lost status := by
  cases stored with
  | absent => exact .inr ⟨_, .absent⟩
  | unreadable => exact .inr ⟨_, .unreadable⟩
  | content bytes =>
      cases hread : Manifest.ofFileBytes? bytes with
      | none => exact .inr ⟨_, .malformed hread⟩
      | some manifest =>
          by_cases hversion : manifest.version = manifestVersion
          · exact .inl ⟨manifest, hversion, bytes, rfl, hread⟩
          · exact .inr ⟨_, .version hread hversion⟩

/-- The file of a manifest holds that manifest. -/
theorem holds_fileText (hversion : manifest.version = manifestVersion) :
    (Stored.content manifest.fileText.toUTF8).Holds manifest :=
  ⟨hversion, _, rfl, manifest.ofFileBytes?_fileText⟩

/-- A write that succeeds leaves a file that holds what is in memory then. -/
theorem holds_save (hfault : site.fault = none)
    (hversion : store.manifest.version = manifestVersion) :
    (store.save site now).site.stored.Holds (store.save site now).store.manifest := by
  rw [save_site hfault]
  exact holds_fileText (save_version.trans hversion)

theorem load_of_holds (h : site.stored.Holds manifest) :
    store.load site now = ({ store with manifest, unsaved := 0 }, .loaded manifest.size) := by
  obtain ⟨hversion, bytes, hstored, hread⟩ := h
  have hfound : manifestOf site.stored now = (manifest, .loaded manifest.size) := by
    rw [hstored, manifestOf, hread]
    exact if_pos hversion
  rw [load, hfound]

theorem load_of_lost {status : LoadStatus} (h : site.stored.Lost status) :
    store.load site now = ({ store with manifest := .fresh now, unsaved := 0 }, status) := by
  have hfound : manifestOf site.stored now = (.fresh now, status) := by
    generalize site.stored = stored at h
    cases h with
    | absent | unreadable => rfl
    | malformed hread => rw [manifestOf, hread]
    | version hread hversion =>
        rw [manifestOf, hread]
        exact if_neg hversion
  rw [load, hfound]

/-- What is in memory after a reading is in the file. -/
theorem mem_file_of_load {key : String} {entry : Entry}
    (h : (store.load site now).1.manifest.entries.get? key = some entry) :
    ∃ manifest, site.stored.Holds manifest ∧ manifest.entries.get? key = some entry := by
  rcases holds_or_lost site.stored with ⟨manifest, hholds⟩ | ⟨status, hlost⟩
  · rw [load_of_holds hholds] at h
    exact ⟨manifest, hholds, h⟩
  · rw [load_of_lost hlost] at h
    cases h

end

/-- Every manifest of the version in use is read back from the file that is written of it, and
so is what a store has in memory after a write that succeeds. Where the file is anything
else, a reading leaves a fresh manifest without entries and says what it found. Either way
nothing counts as unsaved, and no entry is held that is not in the file. -/
theorem written_read_back_else_reset (store : Store) (site : Site) (now : Int64) :
    (∀ manifest : Manifest, manifest.version = manifestVersion →
        site.stored = .content manifest.fileText.toUTF8 →
          store.load site now =
            ({ store with manifest, unsaved := 0 }, .loaded manifest.size)) ∧
      (∀ (writer : Store) (before : Site) (savedAt : Int64), before.fault = none →
        writer.manifest.version = manifestVersion →
          site = (writer.save before savedAt).site →
            store.load site now =
              ({ store with manifest := (writer.save before savedAt).store.manifest, unsaved := 0 },
                .loaded (writer.save before savedAt).store.size)) ∧
      ((∃ manifest, site.stored.Holds manifest) ∨ ∃ status, site.stored.Lost status) ∧
      (∀ status, site.stored.Lost status →
        store.load site now =
          ({ store with manifest := ⟨manifestVersion, now, now, .empty⟩, unsaved := 0 }, status)) ∧
      (store.load site now).1.unsaved = 0 ∧
      (∀ key entry, (store.load site now).1.manifest.entries.get? key = some entry →
        ∃ manifest, site.stored.Holds manifest ∧ manifest.entries.get? key = some entry) := by
  refine ⟨?_, ?_, holds_or_lost site.stored, fun _ => load_of_lost, rfl,
    fun _ _ => mem_file_of_load⟩
  · intro manifest hversion hstored
    apply load_of_holds
    rw [hstored]
    exact holds_fileText hversion
  · rintro writer before savedAt hfault hversion rfl
    exact load_of_holds (holds_save hfault hversion)

/-- A manifest with a key of a control character, a quote and a letter beyond ASCII, and with
the ends of all ranges of numbers, takes the place of what a store held, and so does what a
store with another entry writes. After a write by another version the store is empty. -/
theorem odd_entry_read_back :
    let entry : Entry := ⟨"\\/\"", "\u0000\u007F", Int64.minValue, 0xFFFFFFFFFFFFFFFF, "é"⟩
    let manifest : Manifest :=
      ⟨manifestVersion, Int64.maxValue, -1, .insert .empty "\u0001\"é" entry⟩
    let later : Manifest := { manifest with version := 2 }
    let store : Store := ⟨.insert (.fresh 0) "held" entry, ⟨1, 2⟩, 1⟩
    manifest.version = manifestVersion ∧
      store.load { stored := .content manifest.fileText.toUTF8 } 5 =
        (⟨manifest, ⟨1, 2⟩, 0⟩, .loaded 1) ∧
      ({} : Site).fault = none ∧ store.manifest.version = manifestVersion ∧
      (new ⟨1, 2⟩ 4).load (store.save {} 3).site 5 =
        (⟨(store.save {} 3).store.manifest, ⟨1, 2⟩, 0⟩, .loaded (store.save {} 3).store.size) ∧
      (Stored.content later.fileText.toUTF8).Lost (.reset (.version 2)) ∧
      store.load { stored := .content later.fileText.toUTF8 } 5 =
        (⟨.fresh 5, ⟨1, 2⟩, 0⟩, .reset (.version 2)) := by
  intro entry manifest later store
  have hlost : (Stored.content later.fileText.toUTF8).Lost (.reset (.version 2)) :=
    .version later.ofFileBytes?_fileText (by decide)
  obtain ⟨hread, -⟩ :=
    written_read_back_else_reset store { stored := .content manifest.fileText.toUTF8 } 5
  obtain ⟨-, -, -, hreset, -⟩ :=
    written_read_back_else_reset store { stored := .content later.fileText.toUTF8 } 5
  obtain ⟨-, hsaved, -⟩ := written_read_back_else_reset (new ⟨1, 2⟩ 4) (store.save {} 3).site 5
  exact ⟨rfl, hread manifest rfl rfl, rfl, rfl, hsaved store {} 3 rfl rfl rfl, hlost,
    hreset _ hlost⟩

end RouteAudit.Store
