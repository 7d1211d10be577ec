import Mathlib.Data.Finset.Card
import Mathlib.Data.List.Induction
import RouteAudit.Proofs.Store.Eviction
import RouteAudit.Proofs.Store.Runs

/-! # The entries that stay

Recordings that come one after another in time leave the latest entries in memory: a write in
between may drop old entries early, but none that a later one would keep. What is in memory is
always a first stretch of the entries in the order of their last recordings, and it is long
enough for the limit (`Memory`). So after a last write memory is what one eviction
at the end would have kept, wherever else it was written (`save_keeps_latest`).
-/

namespace RouteAudit.Store

open Storage (Dictionary WriteFault)

/-- A recording and what the world does to a write that comes with it. -/
structure Recording where
  base : String
  pattern : String
  durationNs : UInt64
  now : Int64
  fault : Option WriteFault
  deriving Repr, BEq, DecidableEq

namespace Recording

/-- The key that the entry of a recording stands under. -/
def key (recording : Recording) : String := entryHash recording.base recording.pattern

/-- The entry that a recording makes. -/
def entry (recording : Recording) : Entry :=
  entryOf recording.now recording.base recording.pattern recording.durationNs

/-- The entry under its key. -/
def keyed (recording : Recording) : String × Entry := (recording.key, recording.entry)

theorem keyed_key (recording : Recording) : recording.keyed.1 = recording.key := rfl

theorem keyed_time (recording : Recording) : recording.keyed.2.compiledAt = recording.now := rfl

/-- The recording as a turn of a run. -/
def turn (recording : Recording) : Turn :=
  ⟨.record recording.base recording.pattern recording.durationNs, recording.now, recording.fault⟩

end Recording

/-- The last recording of each key, the latest first. -/
def latest (recordings : List Recording) : List Recording :=
  recordings.foldl (fun front recording =>
    recording :: front.filter fun other => other.key ≠ recording.key) []

section

variable {recordings earlier later : List Recording} {recording : Recording}

theorem latest_concat (recordings : List Recording) (recording : Recording) :
    latest (recordings ++ [recording]) =
      recording :: (latest recordings).filter fun other => other.key ≠ recording.key := by
  rw [latest, latest, List.foldl_append]
  rfl

/-- Later recordings come first, and of the earlier ones those stay whose key does not come
again. -/
theorem latest_append (earlier later : List Recording) :
    latest (earlier ++ later) =
      latest later ++ (latest earlier).filter fun other => other.key ∉ later.map (·.key) := by
  induction later using List.reverseRecOn with
  | nil => simp [latest]
  | append_singleton later recording ih =>
      have hagain : ∀ other ∈ latest earlier,
          (decide (other.key ≠ recording.key) && decide (other.key ∉ later.map (·.key))) =
            decide (other.key ∉ (later ++ [recording]).map (·.key)) := by
        intro other _
        simp [and_comm]
      rw [← List.append_assoc, latest_concat, ih, latest_concat, List.filter_append,
        List.filter_filter, List.filter_congr hagain, List.cons_append]

/-- A recording among the latest is the last one of its key. -/
theorem split_of_mem_latest (h : recording ∈ latest recordings) : ∃ earlier later,
    recordings = earlier ++ recording :: later ∧ recording.key ∉ later.map (·.key) := by
  induction recordings using List.reverseRecOn with
  | nil => cases h
  | append_singleton recordings last ih =>
      rw [latest_concat] at h
      rcases List.mem_cons.mp h with rfl | h
      · exact ⟨recordings, [], rfl, List.not_mem_nil⟩
      · obtain ⟨hmem, hne⟩ := List.mem_filter.mp h
        rw [decide_eq_true_eq] at hne
        obtain ⟨earlier, later, rfl, hlast⟩ := ih hmem
        refine ⟨earlier, later ++ [last], by rw [List.append_assoc]; rfl, ?_⟩
        rw [List.map_append, List.mem_append, List.map_singleton, List.mem_singleton, not_or]
        exact ⟨hlast, hne⟩

theorem mem_of_mem_latest (h : recording ∈ latest recordings) : recording ∈ recordings := by
  obtain ⟨earlier, later, rfl, -⟩ := split_of_mem_latest h
  exact List.mem_append_right _ List.mem_cons_self

theorem mem_keys_latest {key : String} :
    key ∈ (latest recordings).map (·.key) ↔ key ∈ recordings.map (·.key) := by
  induction recordings using List.reverseRecOn with
  | nil => exact Iff.rfl
  | append_singleton recordings last ih =>
      rw [latest_concat, List.map_append, List.mem_append, ← ih, List.map_cons, List.mem_cons,
        List.map_singleton, List.mem_singleton, or_comm]
      by_cases hlast : key = last.key
      · simp [hlast]
      · simp only [hlast, or_false, List.mem_map, List.mem_filter, decide_eq_true_eq]
        constructor
        · rintro ⟨other, ⟨hother, -⟩, hkey⟩
          exact ⟨other, hother, hkey⟩
        · rintro ⟨other, hother, rfl⟩
          exact ⟨other, ⟨hother, hlast⟩, rfl⟩

theorem nodup_latest (recordings : List Recording) :
    ((latest recordings).map (·.key)).Nodup := by
  induction recordings using List.reverseRecOn with
  | nil => exact List.nodup_nil
  | append_singleton recordings last ih =>
      rw [latest_concat, List.map_cons, List.nodup_cons]
      refine ⟨?_, ih.sublist (List.filter_sublist.map _)⟩
      intro hmem
      obtain ⟨other, hother, heq⟩ := List.mem_map.mp hmem
      have hne := (List.mem_filter.mp hother).2
      rw [decide_eq_true_eq] at hne
      exact hne heq

theorem length_latest (recordings : List Recording) :
    (latest recordings).length = (recordings.map (·.key)).toFinset.card := by
  have hkeys : ((latest recordings).map (·.key)).toFinset = (recordings.map (·.key)).toFinset := by
    ext key
    rw [List.mem_toFinset, List.mem_toFinset, mem_keys_latest]
  rw [← hkeys, List.toFinset_card_of_nodup (nodup_latest recordings), List.length_map]

/-- Where the clock goes forward, the latest recording is the one of the latest time. -/
theorem latest_times (hclock : recordings.Pairwise fun first second => first.now < second.now) :
    (latest recordings).Pairwise fun first second => second.now < first.now := by
  induction recordings using List.reverseRecOn with
  | nil => exact List.Pairwise.nil
  | append_singleton recordings last ih =>
      obtain ⟨hbefore, -, hlast⟩ := List.pairwise_append.mp hclock
      rw [latest_concat, List.pairwise_cons]
      refine ⟨?_, (ih hbefore).filter _⟩
      intro other hother
      have hmem := mem_of_mem_latest (List.mem_filter.mp hother).1
      exact hlast other hmem last List.mem_cons_self

/-- A recording that is the last one of its key has as many before it as keys come behind it. -/
theorem latest_split (earlier later : List Recording) (hlast : recording.key ∉ later.map (·.key)) :
    ∃ back, latest (earlier ++ recording :: later) = latest later ++ recording :: back := by
  rw [List.append_cons, latest_append, latest_concat,
    List.filter_cons_of_pos (by rwa [decide_eq_true_eq])]
  exact ⟨_, rfl⟩

/-- The first of the latest recordings are those behind which few other keys come. -/
theorem mem_take_latest_iff {limit : Nat} :
    recording ∈ (latest recordings).take limit ↔ ∃ earlier later,
      recordings = earlier ++ recording :: later ∧ recording.key ∉ later.map (·.key) ∧
        (later.map (·.key)).toFinset.card < limit := by
  constructor
  · intro hmem
    obtain ⟨earlier, later, rfl, hlast⟩ := split_of_mem_latest (List.mem_of_mem_take hmem)
    refine ⟨earlier, later, rfl, hlast, ?_⟩
    obtain ⟨back, hsplit⟩ := latest_split earlier later hlast
    rw [← length_latest]
    by_contra hfew
    rw [hsplit, List.take_append_of_le_length (Nat.le_of_not_lt hfew)] at hmem
    have hagain := mem_of_mem_latest (List.mem_of_mem_take hmem)
    exact hlast (List.mem_map_of_mem hagain)
  · rintro ⟨earlier, later, rfl, hlast, hfew⟩
    obtain ⟨back, hsplit⟩ := latest_split earlier later hlast
    rw [← length_latest] at hfew
    obtain ⟨more, rfl⟩ := Nat.exists_eq_add_of_lt hfew
    rw [hsplit, Nat.add_assoc, List.take_length_add_append]
    exact List.mem_append_right _ List.mem_cons_self

/-! ## Memory -/

/-- Entries are a first stretch of the latest recordings, and one that ends early holds as
many as the limit allows. -/
def Memory (limit : Nat) (recordings : List Recording) (entries : Dictionary Entry) : Prop :=
  ∃ front back, latest recordings = front ++ back ∧ (back = [] ∨ limit ≤ front.length) ∧
    entries.entries.Perm (front.map (·.keyed))

namespace Memory

variable {limit : Nat} {entries : Dictionary Entry}

theorem nothing (limit : Nat) : Memory limit [] .empty := ⟨[], [], rfl, .inl rfl, .refl _⟩

/-- Of recordings with different keys a key takes one at most. -/
theorem length_le_filter {front : List Recording} (hnodup : (front.map (·.key)).Nodup)
    (key : String) : front.length ≤ (front.filter fun other => other.key ≠ key).length + 1 := by
  induction front with
  | nil => exact Nat.zero_le _
  | cons first front ih =>
      obtain ⟨hfirst, hrest⟩ := List.nodup_cons.mp hnodup
      by_cases hkey : first.key = key
      · have hothers : front.filter (fun other => other.key ≠ key) = front := by
          rw [List.filter_eq_self]
          intro other hother
          rw [decide_eq_true_eq]
          rintro rfl
          exact hfirst (List.mem_map.mpr ⟨other, hother, hkey.symm⟩)
        rw [List.filter_cons_of_neg (by simpa using hkey), hothers]
        exact Nat.le_refl _
      · rw [List.filter_cons_of_pos (by simpa using hkey)]
        exact Nat.succ_le_succ (ih hrest)

/-- A recording that is put in comes first, and takes the place of one with its key. -/
theorem put (h : Memory limit recordings entries) (recording : Recording) :
    Memory limit (recordings ++ [recording]) (entries.insert recording.key recording.entry) := by
  obtain ⟨front, back, hlatest, hlong, hperm⟩ := h
  refine ⟨recording :: front.filter fun other => other.key ≠ recording.key,
    back.filter fun other => other.key ≠ recording.key, ?_, ?_, ?_⟩
  · rw [latest_concat, hlatest, List.filter_append]
    rfl
  · -- The new recording makes up for the one that it may replace.
    have hnodup := nodup_latest recordings
    rw [hlatest, List.map_append] at hnodup
    have hfront := length_le_filter (List.nodup_append.mp hnodup).1 recording.key
    refine hlong.imp ?_ ?_
    · rintro rfl
      rfl
    · intro hlimit
      exact hlimit.trans hfront
  · have hmap : (front.map (·.keyed)).filter (fun entry => entry.1 ≠ recording.key) =
        (front.filter fun other => other.key ≠ recording.key).map (·.keyed) := by
      rw [List.filter_map]
      apply congrArg
      apply List.filter_congr
      intro other _
      rw [Function.comp_apply, decide_eq_decide, Recording.keyed_key]
    have hinsert := Dictionary.perm_insert entries recording.key recording.entry
    have hrest := hperm.filter fun entry => entry.1 ≠ recording.key
    rw [hmap] at hrest
    exact hinsert.trans (hrest.cons _)

/-- Eviction leaves the latest recordings up to the limit. -/
theorem evict_perm {manifest : Manifest} (h : Memory limit recordings manifest.entries)
    (hclock : recordings.Pairwise fun first second => first.now < second.now) :
    (manifest.evict limit).2.entries.entries.Perm
      (((latest recordings).take limit).map (·.keyed)) := by
  obtain ⟨front, back, hlatest, hlong, hperm⟩ := h
  have htimes := latest_times hclock
  rw [hlatest] at htimes
  have hfront : (front.map (·.keyed)).Pairwise fun a b => b.2.compiledAt < a.2.compiledAt := by
    simp only [List.pairwise_map, Recording.keyed_time]
    exact (List.pairwise_append.mp htimes).1
  have htake : (latest recordings).take limit = front.take limit := by
    rw [hlatest]
    rcases hlong with rfl | hlimit
    · rw [List.append_nil]
    · exact List.take_append_of_le_length hlimit
  rw [htake, List.map_take]
  exact Manifest.entries_evict_take hperm hfront limit

theorem evict {manifest : Manifest} (h : Memory limit recordings manifest.entries)
    (hclock : recordings.Pairwise fun first second => first.now < second.now) :
    Memory limit recordings (manifest.evict limit).2.entries := by
  have hperm := h.evict_perm hclock
  have hlong : (latest recordings).drop limit = [] ∨
      limit ≤ ((latest recordings).take limit).length := by
    by_cases hlimit : limit ≤ (latest recordings).length
    · rw [List.length_take]
      exact .inr (Nat.le_min.mpr ⟨Nat.le_refl _, hlimit⟩)
    · exact .inl (List.drop_eq_nil_of_le (Nat.le_of_not_le hlimit))
  exact ⟨_, _, (List.take_append_drop limit _).symm, hlong, hperm⟩

end Memory

/-- Recordings keep memory what it is, whether a write comes with them or not. -/
theorem Memory.run {kept : Kept} (hempty : kept.store.manifest.entries = .empty)
    (hclock : recordings.Pairwise fun first second => first.now < second.now) :
    (kept.run (recordings.map (·.turn))).store.options = kept.store.options ∧
      Memory kept.store.options.maxEntries recordings
        (kept.run (recordings.map (·.turn))).store.manifest.entries := by
  induction recordings using List.reverseRecOn with
  | nil => exact ⟨rfl, hempty ▸ Memory.nothing _⟩
  | append_singleton recordings last ih =>
      obtain ⟨hoptions, hmemory⟩ := ih (List.pairwise_append.mp hclock).1
      rw [List.map_append, List.map_singleton, Kept.run_concat]
      generalize kept.run (recordings.map (·.turn)) = before at hoptions hmemory
      have hturn : (before.turn last.turn).store = (before.store.record
          { before.site with fault := last.fault } last.now last.base last.pattern
          last.durationNs).store := rfl
      rw [hturn]
      refine ⟨(record_options ..).trans hoptions, ?_⟩
      rw [record_store]
      dsimp only
      have hput := hmemory.put last
      split
      next =>
        -- The write evicts, whether it succeeds or not.
        rw [save_manifest, ← hoptions]
        exact Memory.evict (hoptions ▸ hput) hclock
      next => exact hput

end

/-- After recordings whose times go forward and a last write, memory holds the entries of the
keys that were recorded last, as many as the limit allows, each from its last recording. Where
in between the store wrote itself, and whether that or the last write succeeded, does
not matter. -/
theorem save_keeps_latest {kept : Kept} (hempty : kept.store.manifest.entries = .empty)
    {recordings : List Recording}
    (hclock : recordings.Pairwise fun first second => first.now < second.now)
    (site : Site) (now : Int64) :
    let saved := ((kept.run (recordings.map (·.turn))).store.save site now).store
    saved.size = min kept.store.options.maxEntries (recordings.map (·.key)).toFinset.card ∧
      ∀ key entry, saved.manifest.entries.get? key = some entry ↔
        ∃ earlier recording later, recordings = earlier ++ recording :: later ∧
          recording.key = key ∧ recording.entry = entry ∧ key ∉ later.map (·.key) ∧
            (later.map (·.key)).toFinset.card < kept.store.options.maxEntries := by
  obtain ⟨hoptions, hmemory⟩ := Memory.run hempty hclock
  have hperm := hmemory.evict_perm hclock
  intro saved
  have hsaved : saved.manifest.entries = ((kept.run (recordings.map (·.turn))).store.manifest.evict
      kept.store.options.maxEntries).2.entries := by
    rw [save_manifest, hoptions]
  rw [← hsaved] at hperm
  refine ⟨?_, ?_⟩
  · have hlength := hperm.length_eq
    rw [List.length_map, List.length_take, length_latest] at hlength
    exact hlength
  · intro key entry
    rw [Dictionary.get?_eq_some_iff, hperm.mem_iff, List.mem_map]
    constructor
    · rintro ⟨recording, hmem, hkeyed⟩
      obtain ⟨rfl, rfl⟩ := Prod.mk.inj hkeyed
      obtain ⟨earlier, later, hsplit, hlast, hfew⟩ := mem_take_latest_iff.mp hmem
      exact ⟨earlier, recording, later, hsplit, rfl, rfl, hlast, hfew⟩
    · rintro ⟨earlier, recording, later, hsplit, rfl, rfl, hlast, hfew⟩
      exact ⟨recording, mem_take_latest_iff.mpr ⟨earlier, later, hsplit, hlast, hfew⟩, rfl⟩

/-- A store for one entry that writes at every recording keeps the last one, though neither its
second write nor the write at the end succeeds. -/
theorem failed_writes_keep_last_entry :
    let first : Recording := ⟨"", "/a", 1, 1, none⟩
    let last : Recording := ⟨"", "/b", 1, 2, some .rename⟩
    let kept : Kept := ⟨new ⟨1, 1⟩ 0, {}⟩
    let site : Site := { fault := some .temporary }
    kept.store.manifest.entries = .empty ∧
      [first, last].Pairwise (fun first second => first.now < second.now) ∧
        ((kept.run ([first, last].map (·.turn))).store.save site 3).store.manifest.entries.get?
          last.key = some last.entry := by
  intro first last kept site
  have hclock : [first, last].Pairwise fun first second => first.now < second.now := by decide
  obtain ⟨-, hentries⟩ := @save_keeps_latest kept rfl [first, last] hclock site 3
  exact ⟨rfl, hclock, (hentries last.key last.entry).mpr
    ⟨[first], last, [], rfl, rfl, rfl, List.not_mem_nil, Nat.one_pos⟩⟩

end RouteAudit.Store
