/-! # Dictionaries

Values under keys, in the order of the keys, which compares texts character by
character. A key is there once: putting a value under it again replaces the one
that was there.
-/

namespace RouteAudit.Storage

/-- Values under keys, sorted by key. -/
structure Dictionary (α : Type) where
  entries : List (String × α)
  sorted : (entries.map (·.1)).Pairwise (· < ·)
  deriving Repr, DecidableEq

namespace Dictionary

variable {α : Type}

/-- Puts a value under a key into sorted entries. -/
def insertEntry (key : String) (value : α) : List (String × α) → List (String × α)
  | [] => [(key, value)]
  | (k, v) :: rest =>
    if key < k then (key, value) :: (k, v) :: rest
    else if key = k then (key, value) :: rest
    else (k, v) :: insertEntry key value rest

/-- No keys come in but the one that a value is put under. -/
theorem mem_keys_insertEntry {key k : String} {value : α} {entries : List (String × α)}
    (h : k ∈ (insertEntry key value entries).map (·.1)) :
    k = key ∨ k ∈ entries.map (·.1) := by
  induction entries with
  | nil => simpa [insertEntry] using h
  | cons entry rest ih =>
    obtain ⟨first, v⟩ := entry
    unfold insertEntry at h
    split at h
    · simpa using h
    · split at h
      next =>
        rcases List.mem_cons.mp h with h | h
        · exact .inl h
        · exact .inr (List.mem_cons_of_mem _ h)
      next =>
        rcases List.mem_cons.mp h with h | h
        · exact .inr (by simp [h])
        · rcases ih h with h | h
          · exact .inl h
          · exact .inr (List.mem_cons_of_mem _ h)

/-- Of two different keys one is smaller. -/
theorem lt_of_not_lt_of_ne {a b : String} (h : ¬ a < b) (hne : a ≠ b) : b < a :=
  Decidable.byContradiction fun hba =>
    hne (String.le_antisymm (String.not_lt.mp hba) (String.not_lt.mp h))

/-- Keys stay sorted, and so each stays the only one of its kind. -/
theorem sorted_insertEntry {key : String} {value : α} {entries : List (String × α)}
    (h : (entries.map (·.1)).Pairwise (· < ·)) :
    ((insertEntry key value entries).map (·.1)).Pairwise (· < ·) := by
  induction entries with
  | nil => simp [insertEntry]
  | cons entry rest ih =>
    obtain ⟨first, v⟩ := entry
    obtain ⟨hfirst, hrest⟩ := List.pairwise_cons.mp h
    unfold insertEntry
    split
    next hlt =>
      refine List.pairwise_cons.mpr ⟨?_, h⟩
      intro k hk
      rcases List.mem_cons.mp hk with rfl | hk
      · exact hlt
      · exact String.lt_trans hlt (hfirst k hk)
    next hlt =>
      split
      next heq => subst heq; exact h
      next hne =>
        refine List.pairwise_cons.mpr ⟨?_, ih hrest⟩
        intro k hk
        rcases mem_keys_insertEntry hk with rfl | hk
        · exact lt_of_not_lt_of_ne hlt hne
        · exact hfirst k hk

/-- No entries. -/
def empty : Dictionary α := ⟨[], by simp⟩

/-- The entries with a value put under a key. -/
def insert (dictionary : Dictionary α) (key : String) (value : α) : Dictionary α :=
  ⟨insertEntry key value dictionary.entries, sorted_insertEntry dictionary.sorted⟩

/-- The entries put one after another: the last value under a key stays. -/
def ofList (entries : List (String × α)) : Dictionary α :=
  entries.foldl (fun dictionary (key, value) => dictionary.insert key value) empty

/-- The entries without those whose key is given up. -/
def without (dictionary : Dictionary α) (keys : List String) : Dictionary α :=
  ⟨dictionary.entries.filter fun (key, _) => !keys.contains key,
    (dictionary.sorted.sublist ((List.filter_sublist).map _))⟩

/-- The value under a key. -/
def get? (dictionary : Dictionary α) (key : String) : Option α :=
  dictionary.entries.lookup key

/-- Whether there is a value under a key. -/
def contains (dictionary : Dictionary α) (key : String) : Bool :=
  (dictionary.get? key).isSome

/-- The keys in order. -/
def keys (dictionary : Dictionary α) : List String :=
  dictionary.entries.map (·.1)

/-- The values in the order of their keys. -/
def values (dictionary : Dictionary α) : List α :=
  dictionary.entries.map (·.2)

/-- How many keys there are. -/
def size (dictionary : Dictionary α) : Nat := dictionary.entries.length

end Dictionary

end RouteAudit.Storage
