import RouteAudit.Json.Decode
import RouteAudit.Proofs.Json.RoundTrip

/-! # Records decoded

The fields of a record are found by their names, the entries of a dictionary in their order, and
a number of a fixed size fits into that size.
-/

namespace RouteAudit.Json

section

variable {α : Type} {key : String} {value : Json} {entries : List (String × Json)}

theorem entriesOf_cons (entry : String × Json) (rest : List (Option String × Json)) :
    entriesOf key (keyed entry :: rest) =
      if entry.1 = key then entry.2 :: entriesOf key rest else entriesOf key rest := by
  by_cases h : entry.1 = key
  · simp [entriesOf, keyed, h]
  · simp [entriesOf, keyed, h]

theorem entriesOf_of_notMem (h : key ∉ entries.map (·.1)) :
    entriesOf key (entries.map keyed) = [] := by
  induction entries with
  | nil => rfl
  | cons entry entries ih =>
      rw [List.map_cons, List.mem_cons, not_or] at h
      rw [List.map_cons, entriesOf_cons, if_neg (Ne.symm h.1), ih h.2]

theorem entriesOf_of_mem (hnodup : (entries.map (·.1)).Nodup) (hmem : (key, value) ∈ entries) :
    entriesOf key (entries.map keyed) = [value] := by
  induction entries with
  | nil => cases hmem
  | cons entry entries ih =>
      obtain ⟨hfirst, hrest⟩ := List.nodup_cons.mp hnodup
      rw [List.map_cons, entriesOf_cons]
      rcases List.mem_cons.mp hmem with rfl | hmem
      · rw [if_pos rfl, entriesOf_of_notMem hfirst]
      · have hne : entry.1 ≠ key := by
          rintro rfl
          exact hfirst (List.mem_map.mpr ⟨_, hmem, rfl⟩)
        rw [if_neg hne, ih hrest hmem]

theorem mapM_keys {f : String → Option (Option Json)}
    (h : ∀ entry ∈ entries, f entry.1 = some (some entry.2)) :
    (entries.map (·.1)).mapM f = some (entries.map (some ·.2)) := by
  induction entries with
  | nil => rfl
  | cons entry entries ih =>
      obtain ⟨hentry, hentries⟩ := List.forall_mem_cons.mp h
      rw [List.map_cons, List.mapM_cons, hentry, ih hentries]
      rfl

/-- The fields of a record are found by their names. -/
theorem asFields?_record (entries : List (String × Json))
    (hnodup : (entries.map (·.1)).Nodup) :
    asFields? (entries.map (·.1)) (record entries) = some (entries.map (some ·.2)) := by
  have hkeys : (entries.map keyed).any (·.1.isNone) = false := by
    rw [List.any_eq_false]
    intro entry hentry
    obtain ⟨entry, -, rfl⟩ := List.mem_map.mp hentry
    simp [keyed]
  have hrecord : record entries = object (entries.map keyed) := rfl
  rw [hrecord, asFields?, hkeys]
  apply mapM_keys
  intro entry hentry
  rw [entriesOf_of_mem hnodup hentry]

theorem asDictionary?_record {f : α → Json} {f? : Json → Option α}
    (h : ∀ a, f? (f a) = some a) (entries : List (String × α)) :
    asDictionary? f? (record (entries.map fun (key, a) => (key, f a))) = some entries := by
  rw [record, asDictionary?, List.map_map]
  induction entries with
  | nil => rfl
  | cons entry entries ih =>
      rw [List.map_cons, List.mapM_cons, ih]
      simp [h]

theorem asList?_array {f : α → Json} {f? : Json → Option α} (h : ∀ a, f? (f a) = some a)
    (items : List α) : asList? f? (array (items.map f)) = some items := by
  rw [asList?]
  induction items with
  | nil => rfl
  | cons item items ih => simp [h, ih]

-- By rewriting, so that no reader of numbers is evaluated where this law is used.
theorem required?_some (f : Json → Option α) (value : Json) :
    required? f (some value) = f value := by rw [required?]

theorem asString?_string (s : String) : asString? (string s) = some s := rfl

theorem asUInt32?_nat (n : UInt32) : asUInt32? (nat n.toNat) = some n := by
  have hbound := n.toNat_lt_size
  have hnat : asNatBelow? UInt32.size (nat n.toNat) = some n.toNat := by
    rw [nat, asNatBelow?, if_pos (by omega), Int.toNat_natCast]
  rw [asUInt32?, hnat, Option.map_some, UInt32.ofNat_toNat]

theorem asUInt64?_nat (n : UInt64) : asUInt64? (nat n.toNat) = some n := by
  have hbound := n.toNat_lt_size
  have hnat : asNatBelow? UInt64.size (nat n.toNat) = some n.toNat := by
    rw [nat, asNatBelow?, if_pos (by omega), Int.toNat_natCast]
  rw [asUInt64?, hnat, Option.map_some, UInt64.ofNat_toNat]

theorem asInt64?_toInt (n : Int64) : asInt64? (int n.toInt) = some n := by
  rw [asInt64?, Int64.ofInt_toInt, if_pos rfl]

end

end RouteAudit.Json
