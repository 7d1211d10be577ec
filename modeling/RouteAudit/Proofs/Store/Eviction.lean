import Mathlib.Data.List.Nodup
import RouteAudit.Proofs.Storage.Dictionary
import RouteAudit.Store.Manifest

/-! # What eviction keeps

Entries are dropped in the order of their times, and of their keys where times are equal.
This is a linear order, so sorting finds the one order in which they go. Eviction
takes the first of them, as many as there are too many, and keeps the others as they are.
-/

namespace RouteAudit.Store.Manifest

open Storage (Dictionary)

theorem goesFirst_iff {a b : String × Entry} : goesFirst a b ↔
    a.2.compiledAt < b.2.compiledAt ∨ (a.2.compiledAt = b.2.compiledAt ∧ a.1 ≤ b.1) := by
  simp [goesFirst]

theorem goesFirst_trans (a b c : String × Entry) (hab : goesFirst a b) (hbc : goesFirst b c) :
    goesFirst a c := by
  rw [goesFirst_iff] at hab hbc ⊢
  rcases hab with hab | ⟨hab, hkey⟩
  · rcases hbc with hbc | ⟨hbc, -⟩
    · exact .inl (Int64.lt_trans hab hbc)
    · exact .inl (hbc ▸ hab)
  · rw [hab]
    exact hbc.imp_right fun ⟨hbc, hkey'⟩ => ⟨hbc, String.le_trans hkey hkey'⟩

theorem goesFirst_total (a b : String × Entry) : goesFirst a b || goesFirst b a := by
  rw [Bool.or_eq_true, goesFirst_iff, goesFirst_iff]
  by_cases hab : a.2.compiledAt < b.2.compiledAt
  · exact .inl (.inl hab)
  · by_cases hba : b.2.compiledAt < a.2.compiledAt
    · exact .inr (.inl hba)
    · have htime := Int64.le_antisymm (Int64.not_lt.mp hba) (Int64.not_lt.mp hab)
      rcases String.le_total a.1 b.1 with hkey | hkey
      · exact .inl (.inr ⟨htime, hkey⟩)
      · exact .inr (.inr ⟨htime.symm, hkey⟩)

/-- The entries in the order in which they go. -/
def inOrder (manifest : Manifest) : List (String × Entry) :=
  manifest.entries.entries.mergeSort goesFirst

theorem inOrder_perm (manifest : Manifest) :
    manifest.inOrder.Perm manifest.entries.entries := List.mergeSort_perm _ _

theorem inOrder_sorted (manifest : Manifest) :
    manifest.inOrder.Pairwise fun a b => goesFirst a b :=
  List.pairwise_mergeSort goesFirst_trans goesFirst_total _

theorem excess_eq (manifest : Manifest) (limit : Nat) : manifest.excess limit =
    (manifest.inOrder.take (manifest.size - limit)).map (·.1) := by
  unfold excess
  split
  next hle => rw [Nat.sub_eq_zero_of_le hle, List.take_zero, List.map_nil]
  next => exact List.map_take.symm

theorem nodup_inOrder (manifest : Manifest) : (manifest.inOrder.map (·.1)).Nodup := by
  have hperm := (inOrder_perm manifest).map (·.1)
  exact hperm.nodup_iff.mpr (Dictionary.nodup_of_sorted manifest.entries.sorted)

/-- Without the keys of its first part, a row with different keys is its second part. -/
theorem filter_behind {first second : List (String × Entry)}
    (hnodup : ((first ++ second).map (·.1)).Nodup) :
    (first ++ second).filter (fun entry => !(first.map (·.1)).contains entry.1) = second := by
  rw [List.map_append, List.nodup_append] at hnodup
  have hgone : first.filter (fun entry => !(first.map (·.1)).contains entry.1) = [] := by
    rw [List.filter_eq_nil_iff]
    intro entry hentry
    have hmem : entry.1 ∈ first.map (·.1) := List.mem_map_of_mem hentry
    simpa using hmem
  have hstay : second.filter (fun entry => !(first.map (·.1)).contains entry.1) = second := by
    rw [List.filter_eq_self]
    intro entry hentry
    have hnot : entry.1 ∉ first.map (·.1) :=
      fun hmem => hnodup.2.2 _ hmem _ (List.mem_map_of_mem hentry) rfl
    simpa using hnot
  rw [List.filter_append, hgone, hstay, List.nil_append]

/-- Eviction keeps all entries but the first ones to go. -/
theorem entries_evict_perm (manifest : Manifest) (limit : Nat) :
    (manifest.evict limit).2.entries.entries.Perm
      (manifest.inOrder.drop (manifest.size - limit)) := by
  have hkept : (manifest.evict limit).2.entries.entries = manifest.entries.entries.filter
      fun entry => !(manifest.excess limit).contains entry.1 := rfl
  have hnodup := nodup_inOrder manifest
  have hsplit := List.take_append_drop (manifest.size - limit) manifest.inOrder
  rw [← hsplit] at hnodup
  have hbehind := filter_behind hnodup
  rw [hsplit] at hbehind
  rw [hkept, excess_eq, ← hbehind]
  exact (inOrder_perm manifest).symm.filter _

/-- Where no two entries are of one time, eviction keeps the latest ones. -/
theorem entries_evict_take {manifest : Manifest} {latestFirst : List (String × Entry)}
    (hentries : manifest.entries.entries.Perm latestFirst)
    (htimes : latestFirst.Pairwise fun a b => b.2.compiledAt < a.2.compiledAt) (limit : Nat) :
    (manifest.evict limit).2.entries.entries.Perm (latestFirst.take limit) := by
  have hperm : manifest.inOrder.Perm latestFirst.reverse :=
    (inOrder_perm manifest).trans (hentries.trans (List.reverse_perm _).symm)
  have hsorted : latestFirst.reverse.Pairwise fun a b => goesFirst a b := by
    rw [List.pairwise_reverse]
    exact htimes.imp fun hlt => goesFirst_iff.mpr (.inl hlt)
  have hdifferent : (latestFirst.map (·.2.compiledAt)).Nodup := by
    rw [List.nodup_iff_pairwise_ne, List.pairwise_map]
    refine htimes.imp ?_
    intro a b hlt heq
    exact Int64.lt_irrefl (heq ▸ hlt)
  have horder : manifest.inOrder = latestFirst.reverse := by
    refine hperm.eq_of_pairwise ?_ (inOrder_sorted manifest) hsorted
    intro a b ha hb hab hba
    have htime : a.2.compiledAt = b.2.compiledAt := by
      rw [goesFirst_iff] at hab hba
      rcases hab with hab | ⟨hab, -⟩
      · rcases hba with hba | ⟨hba, -⟩
        · exact absurd hba (Int64.not_lt.mpr (Int64.le_of_lt hab))
        · exact hba.symm
      · exact hab
    have ha' := List.mem_reverse.mp (hperm.subset ha)
    exact List.inj_on_of_nodup_map hdifferent ha' (List.mem_reverse.mp hb) htime
  have hsize : manifest.size = latestFirst.length := hentries.length_eq
  have hdrop := entries_evict_perm manifest limit
  rw [horder, hsize, List.drop_reverse] at hdrop
  have hcount : latestFirst.length - (latestFirst.length - limit) =
      min limit latestFirst.length := by omega
  rw [hcount, List.take_eq_take_min.symm] at hdrop
  exact hdrop.trans (List.reverse_perm _)

end RouteAudit.Store.Manifest
