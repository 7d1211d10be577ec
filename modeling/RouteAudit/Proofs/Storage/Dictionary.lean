import RouteAudit.Storage.Dictionary

/-! # What a dictionary holds

A dictionary is its entries in the order of their keys, and each key has one. Putting a value
under a key adds an entry and takes away the one that was there, and nothing else; putting in
the entries of a dictionary one after another gives it back.
-/

namespace RouteAudit.Storage.Dictionary

variable {α : Type} {key : String} {value : α} {entries : List (String × α)}

theorem nodup_of_sorted (h : (entries.map (·.1)).Pairwise (· < ·)) :
    (entries.map (·.1)).Nodup := by
  refine h.imp ?_
  rintro a b hlt rfl
  exact String.lt_irrefl a hlt

/-- A key that comes before all others is none of them. -/
theorem filter_ne_eq_self (h : ∀ k ∈ entries.map (·.1), key < k) :
    entries.filter (fun entry => entry.1 ≠ key) = entries := by
  rw [List.filter_eq_self]
  intro entry hentry
  have hlt := h entry.1 (List.mem_map_of_mem hentry)
  rw [decide_eq_true_eq]
  rintro rfl
  exact String.lt_irrefl _ hlt

theorem lookup_eq_some_iff (h : (entries.map (·.1)).Pairwise (· < ·)) :
    entries.lookup key = some value ↔ (key, value) ∈ entries := by
  induction entries with
  | nil => simp
  | cons entry rest ih =>
      obtain ⟨first, v⟩ := entry
      obtain ⟨hfirst, hrest⟩ := List.pairwise_cons.mp h
      rw [List.lookup_cons, List.mem_cons, Prod.mk.injEq]
      by_cases hkey : key = first
      · subst hkey
        have hnot : (key, value) ∉ rest :=
          fun hmem => String.lt_irrefl key (hfirst key (List.mem_map_of_mem hmem))
        simp [hnot, eq_comm]
      · rw [beq_false_of_ne hkey]
        simpa [hkey] using ih hrest

theorem get?_eq_some_iff {dictionary : Dictionary α} :
    dictionary.get? key = some value ↔ (key, value) ∈ dictionary.entries :=
  lookup_eq_some_iff dictionary.sorted

theorem perm_insertEntry (h : (entries.map (·.1)).Pairwise (· < ·)) :
    (insertEntry key value entries).Perm
      ((key, value) :: entries.filter fun entry => entry.1 ≠ key) := by
  induction entries with
  | nil => exact .refl _
  | cons entry rest ih =>
      obtain ⟨first, v⟩ := entry
      obtain ⟨hfirst, hrest⟩ := List.pairwise_cons.mp h
      unfold insertEntry
      split
      next hlt =>
        have hall : ∀ k ∈ ((first, v) :: rest).map (·.1), key < k := by
          intro k hk
          rcases List.mem_cons.mp hk with rfl | hk
          · exact hlt
          · exact String.lt_trans hlt (hfirst k hk)
        rw [filter_ne_eq_self hall]
      next =>
        split
        next heq =>
          subst heq
          rw [List.filter_cons_of_neg (by simp), filter_ne_eq_self hfirst]
        next hne =>
          rw [List.filter_cons_of_pos (by simpa using fun heq => hne heq.symm)]
          exact ((ih hrest).cons _).trans (.swap _ _ _)

theorem perm_insert (dictionary : Dictionary α) (key : String) (value : α) :
    (dictionary.insert key value).entries.Perm
      ((key, value) :: dictionary.entries.filter fun entry => entry.1 ≠ key) :=
  perm_insertEntry dictionary.sorted

/-- A key behind all others gets the last entry. -/
theorem insertEntry_last (h : ∀ k ∈ entries.map (·.1), k < key) :
    insertEntry key value entries = entries ++ [(key, value)] := by
  induction entries with
  | nil => rfl
  | cons entry rest ih =>
      obtain ⟨first, v⟩ := entry
      have hfirst : first < key := h first List.mem_cons_self
      have hnot : ¬ key < first := fun hlt => String.lt_irrefl _ (String.lt_trans hlt hfirst)
      have hne : key ≠ first := fun heq => String.lt_irrefl _ (heq ▸ hfirst)
      rw [insertEntry, if_neg hnot, if_neg hne, ih fun k hk => h k (List.mem_cons_of_mem _ hk)]
      rfl

theorem eq_of_entries {first second : Dictionary α} (h : first.entries = second.entries) :
    first = second := by
  cases first
  cases second
  cases h
  rfl

theorem insert_entries (dictionary : Dictionary α) (key : String) (value : α) :
    (dictionary.insert key value).entries = insertEntry key value dictionary.entries := rfl

/-- Entries that go on in the order of a dictionary are appended to it. -/
theorem entries_foldl_insert (dictionary : Dictionary α)
    (hsorted : ((dictionary.entries ++ entries).map (·.1)).Pairwise (· < ·)) :
    (entries.foldl (fun dictionary (key, value) => dictionary.insert key value)
      dictionary).entries = dictionary.entries ++ entries := by
  induction entries generalizing dictionary with
  | nil => exact (List.append_nil _).symm
  | cons entry rest ih =>
      have hlast : ∀ k ∈ dictionary.entries.map (·.1), k < entry.1 := by
        intro k hk
        rw [List.map_append, List.pairwise_append] at hsorted
        exact hsorted.2.2 k hk entry.1 List.mem_cons_self
      have hinsert := insert_entries dictionary entry.1 entry.2
      rw [insertEntry_last hlast] at hinsert
      rw [List.append_cons, ← hinsert] at hsorted
      rw [List.foldl_cons, ih _ hsorted, hinsert, List.append_assoc]
      rfl

/-- The entries of a dictionary make it again. -/
theorem ofList_entries (dictionary : Dictionary α) : ofList dictionary.entries = dictionary :=
  eq_of_entries (entries_foldl_insert empty dictionary.sorted)

end RouteAudit.Storage.Dictionary
