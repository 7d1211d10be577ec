import RouteAudit.Proofs.Store.Eviction
import RouteAudit.Proofs.Store.Room
import RouteAudit.Proofs.Text.Bytes

/-! # What eviction drops

Eviction drops the entries that come first by time and, within one time, by the bytes of the keys
they are found by. This is a strict order of the entries of a manifest, so there is one row
that they go in (`eq_inOrder`): eviction takes its first part and leaves the second, and evicting
once more goes on where the first eviction stopped.
-/

namespace RouteAudit

namespace Storage.Dictionary

variable {α : Type} {dictionary : Dictionary α} {gone more : List String} {key : String}

theorem get?_without :
    (dictionary.without gone).get? key = if key ∈ gone then none else dictionary.get? key := by
  apply Option.ext
  intro value
  split
  next hmem => simp [get?_eq_some_iff, without, hmem]
  next hnot => simp [get?_eq_some_iff, without, hnot]

theorem without_without : (dictionary.without gone).without more =
    dictionary.without (gone ++ more) := by
  refine eq_of_entries ?_
  simp only [without, List.filter_filter]
  refine List.filter_congr ?_
  intro entry _
  rw [List.contains_append, Bool.not_or, Bool.and_comm]

end Storage.Dictionary

namespace Store.Manifest

open Storage (Dictionary)

/-- An entry is older than another one, or as old and found by a key with smaller bytes. -/
def Precedes (a b : String × Entry) : Prop :=
  a.2.compiledAt < b.2.compiledAt ∨
    (a.2.compiledAt = b.2.compiledAt ∧ Text.bytes a.1 < Text.bytes b.1)

/-- A manifest has entries under two keys, and the first precedes the second. -/
def Older (manifest : Manifest) (a b : String) : Prop :=
  ∃ first second, manifest.entries.get? a = some first ∧
    manifest.entries.get? b = some second ∧ Precedes (a, first) (b, second)

variable {manifest : Manifest} {limit : Nat} {a b : String × Entry} {row : List (String × Entry)}

/-! ## The row that the entries go in -/

theorem precedes_of_goesFirst (h : Manifest.goesFirst a b) (hne : a.1 ≠ b.1) : Precedes a b := by
  refine (goesFirst_iff.mp h).imp_right fun ⟨htime, hkey⟩ => ⟨htime, ?_⟩
  exact Text.lt_iff_bytes_lt.mp (lt_of_le_of_ne hkey hne)

theorem Precedes.asymm (hab : Precedes a b) : ¬ Precedes b a := by
  intro hba
  rcases hab with hab | ⟨htime, hab⟩
  · rcases hba with hba | ⟨htime, -⟩
    · exact Int64.lt_irrefl (Int64.lt_trans hab hba)
    · exact Int64.lt_irrefl (htime ▸ hab)
  · rcases hba with hba | ⟨-, hba⟩
    · exact Int64.lt_irrefl (htime ▸ hba)
    · exact List.lt_irrefl _ (List.lt_trans hab hba)

theorem inOrder_precedes (manifest : Manifest) : manifest.inOrder.Pairwise Precedes := by
  have hne := List.pairwise_map.mp (nodup_inOrder manifest)
  exact ((inOrder_sorted manifest).and hne).imp fun ⟨h, hne⟩ => precedes_of_goesFirst h hne

/-- There is no other row of the entries in which each precedes those behind it. -/
theorem eq_inOrder (hperm : row.Perm manifest.entries.entries) (hrow : row.Pairwise Precedes) :
    row = manifest.inOrder :=
  (hperm.trans (inOrder_perm manifest).symm).eq_of_pairwise
    (fun _ _ _ _ hab hba => absurd hba hab.asymm) hrow (inOrder_precedes manifest)

theorem older_of_precedes (ha : a ∈ manifest.inOrder) (hb : b ∈ manifest.inOrder)
    (h : Precedes a b) : manifest.Older a.1 b.1 := by
  have hfound {entry : String × Entry} (hentry : entry ∈ manifest.inOrder) :
      manifest.entries.get? entry.1 = some entry.2 :=
    Dictionary.get?_eq_some_iff.mpr ((inOrder_perm manifest).mem_iff.mp hentry)
  exact ⟨a.2, b.2, hfound ha, hfound hb, h⟩

/-! ## One eviction -/

theorem keys_evict (manifest : Manifest) (limit : Nat) : (manifest.evict limit).1 =
    (manifest.inOrder.take (manifest.size - limit)).map (·.1) := excess_eq manifest limit

theorem evict_eq (manifest : Manifest) (limit : Nat) : (manifest.evict limit).2 =
    { manifest with entries := manifest.entries.without (manifest.evict limit).1 } := rfl

theorem inOrder_evict (manifest : Manifest) (limit : Nat) :
    (manifest.evict limit).2.inOrder = manifest.inOrder.drop (manifest.size - limit) :=
  (eq_inOrder (entries_evict_perm manifest limit).symm (inOrder_precedes manifest).drop).symm

theorem length_inOrder (manifest : Manifest) : manifest.inOrder.length = manifest.size :=
  (inOrder_perm manifest).length_eq

theorem size_evict (manifest : Manifest) (limit : Nat) :
    (manifest.evict limit).2.size = min manifest.size limit := by
  rw [← length_inOrder, inOrder_evict, List.length_drop, length_inOrder]
  omega

theorem keys_inOrder (manifest : Manifest) :
    (manifest.inOrder.map (·.1)).Perm manifest.entries.keys := (inOrder_perm manifest).map _

theorem keys_older (manifest : Manifest) (limit : Nat) :
    (manifest.evict limit).1.Pairwise manifest.Older := by
  rw [keys_evict, List.pairwise_map]
  refine (inOrder_precedes manifest).take.imp_of_mem ?_
  intro a b ha hb h
  exact older_of_precedes (List.mem_of_mem_take ha) (List.mem_of_mem_take hb) h

theorem gone_older_than_kept {gone key : String} (hgone : gone ∈ (manifest.evict limit).1)
    (hkey : key ∈ (manifest.evict limit).2.entries.keys) : manifest.Older gone key := by
  rw [keys_evict, List.mem_map] at hgone
  obtain ⟨first, hfirst, rfl⟩ := hgone
  rw [← (keys_inOrder _).mem_iff, inOrder_evict, List.mem_map] at hkey
  obtain ⟨second, hsecond, rfl⟩ := hkey
  have hsplit := inOrder_precedes manifest
  rw [← List.take_append_drop (manifest.size - limit) manifest.inOrder,
    List.pairwise_append] at hsplit
  exact older_of_precedes (List.mem_of_mem_take hfirst) (List.mem_of_mem_drop hsecond)
    (hsplit.2.2 first hfirst second hsecond)

theorem keys_evict_perm (manifest : Manifest) (limit : Nat) :
    ((manifest.evict limit).1 ++ (manifest.evict limit).2.entries.keys).Perm
      manifest.entries.keys := by
  have hkept := keys_inOrder (manifest.evict limit).2
  rw [inOrder_evict] at hkept
  have hsplit := hkept.symm.append_left (manifest.evict limit).1
  refine hsplit.trans ?_
  rw [keys_evict, ← List.map_append, List.take_append_drop]
  exact keys_inOrder manifest

/-! ## Eviction after eviction -/

theorem keys_evict_evict (manifest : Manifest) {limit fewer : Nat} (h : fewer ≤ limit) :
    (manifest.evict limit).1 ++ ((manifest.evict limit).2.evict fewer).1 =
      (manifest.evict fewer).1 := by
  have hcount : manifest.size - fewer =
      (manifest.size - limit) + (min manifest.size limit - fewer) := by omega
  rw [keys_evict, keys_evict, keys_evict, size_evict, inOrder_evict, ← List.map_append, hcount,
    List.take_add]

theorem evict_evict (manifest : Manifest) {limit fewer : Nat} (h : fewer ≤ limit) :
    ((manifest.evict limit).2.evict fewer).2 = (manifest.evict fewer).2 := by
  rw [evict_eq _ fewer, evict_eq manifest fewer, ← keys_evict_evict manifest h]
  exact congrArg (fun entries => { manifest with entries }) Dictionary.without_without

theorem evict_again (manifest : Manifest) (limit : Nat) :
    (manifest.evict limit).2.evict limit = ([], (manifest.evict limit).2) := by
  have hnone : ((manifest.evict limit).2.evict limit).1 = [] :=
    List.append_right_eq_self.mp (keys_evict_evict manifest (le_refl limit))
  exact Prod.ext hnone (evict_evict manifest (le_refl limit))

/-- Eviction leaves as many entries as fit, as they were, and tells the keys of the others, which
are the oldest: each key that goes is told once, before the younger ones, and is older than all
that stay. Keys that go and keys that stay are the keys there were. At the same limit nothing
goes a second time, and an eviction to a lower one ends as it would have without the first. -/
theorem evict_drops_oldest (manifest : Manifest) (limit : Nat) :
    let keys := (manifest.evict limit).1
    let kept := (manifest.evict limit).2
    kept.size = min manifest.size limit ∧
      keys.Nodup ∧ keys.Pairwise manifest.Older ∧
      (∀ gone ∈ keys, ∀ key ∈ kept.entries.keys, manifest.Older gone key) ∧
      kept = { manifest with entries := kept.entries } ∧
      (∀ key ∈ kept.entries.keys, kept.entries.get? key = manifest.entries.get? key) ∧
      (keys ++ kept.entries.keys).Perm manifest.entries.keys ∧
      kept.evict limit = ([], kept) ∧
      ∀ fewer ≤ limit, (kept.evict fewer).2 = (manifest.evict fewer).2 ∧
        keys ++ (kept.evict fewer).1 = (manifest.evict fewer).1 := by
  intro keys kept
  have hperm := keys_evict_perm manifest limit
  have hnodup := hperm.nodup_iff.mpr manifest.entries.nodup_keys
  refine ⟨size_evict manifest limit, hnodup.of_append_left, keys_older manifest limit,
    fun _ hgone _ hkey => gone_older_than_kept hgone hkey, rfl, ?_, hperm,
    evict_again manifest limit, ?_⟩
  · intro key hkey
    have hnot : key ∉ keys := fun hmem => List.disjoint_of_nodup_append hnodup hmem hkey
    exact Dictionary.get?_without.trans (if_neg hnot)
  · exact fun fewer hfewer => ⟨evict_evict manifest hfewer, keys_evict_evict manifest hfewer⟩

/-- Of three entries of one time and a later one, two go in the order of the bytes of their keys,
whatever they say of their hashes. -/
theorem two_of_four_go :
    let entry (now : Int64) (hash : String) : Entry := ⟨"/", "", now, 0, hash⟩
    let manifest : Manifest := ⟨1, 0, 0,
      .ofList [("é", entry 5 "0"), ("z", entry 5 "1"), ("a", entry 9 "2"), ("b", entry 5 "9")]⟩
    let kept := (manifest.evict 2).2
    (manifest.evict 2).1 = ["b", "z"] ∧ kept.entries.keys = ["a", "é"] ∧
      manifest.Older "b" "é" ∧ kept.entries.get? "a" = some (entry 9 "2") ∧
      (kept.evict 1).2 = (manifest.evict 1).2 := by
  intro entry manifest kept
  have hrow : [("b", entry 5 "9"), ("z", entry 5 "1"), ("é", entry 5 "0"), ("a", entry 9 "2")] =
      manifest.inOrder := by
    refine eq_inOrder (by decide +kernel) ?_
    unfold Precedes
    simp only [← Text.lt_iff_bytes_lt]
    decide +kernel
  have hkeys : (manifest.evict 2).1 = ["b", "z"] := by
    rw [keys_evict, ← hrow]
    rfl
  have hkept : kept.entries.keys = ["a", "é"] := by
    have hwithout : kept.entries.keys = (manifest.entries.without ["b", "z"]).keys := by
      rw [← hkeys]
      rfl
    rw [hwithout]
    decide +kernel
  obtain ⟨-, -, -, holder, -, hsame, -, -, hagain⟩ := evict_drops_oldest manifest 2
  have hgone : "b" ∈ (manifest.evict 2).1 := hkeys ▸ List.mem_cons_self
  have hstays {key : String} (h : key ∈ ["a", "é"]) : key ∈ kept.entries.keys := hkept ▸ h
  have hyoungest : manifest.entries.get? "a" = some (entry 9 "2") := by decide +kernel
  exact ⟨hkeys, hkept, holder "b" hgone "é" (hstays (by simp)),
    (hsame "a" (hstays (by simp))).trans hyoungest, (hagain 1 (by decide)).1⟩

end Store.Manifest

end RouteAudit
