import Mathlib.Data.List.Nodup
import Mathlib.Data.List.Perm.Subperm
import RouteAudit.Remedy.Repair

/-! # The names that are made up

As many names are made up as are asked for: more candidates are looked at than names can be
taken. They are words of name characters, no two of them are the same and none is taken.
-/

namespace RouteAudit.Remedy

open Pattern (isNameStart isNameChar)

/-- The name that the numbers from zero on lead to. -/
def numberedName (i : Nat) : List Char := "seg".toList ++ (toString (i + 1)).toList

theorem numberedName_injective : Function.Injective numberedName := by
  intro i j h
  have hdigits : Nat.toDigits 10 (i + 1) = Nat.toDigits 10 (j + 1) := by
    have hnumber := List.append_cancel_left h
    rwa [Nat.toString_eq_ofList_toDigits, Nat.toString_eq_ofList_toDigits, String.toList_ofList,
      String.toList_ofList] at hnumber
  have hvalue := congrArg (Nat.ofDigitChars 10 · 0) hdigits
  rw [Nat.ofDigitChars_ten_toDigits, Nat.ofDigitChars_ten_toDigits] at hvalue
  exact Nat.succ.inj hvalue

theorem isNameChar_of_mem_numberedName {i : Nat} {c : Char} (h : c ∈ numberedName i) :
    isNameChar c := by
  rcases List.mem_append.mp h with hword | hnumber
  · have hall : ∀ c ∈ "seg".toList, isNameChar c := List.all_eq_true.mp (by decide)
    exact hall c hword
  · rw [Nat.toString_eq_ofList_toDigits, String.toList_ofList] at hnumber
    have hdigit := Nat.isDigit_of_mem_toDigits (by decide) (by decide) hnumber
    rw [isNameChar, Char.isAlphanum, hdigit, Bool.or_true, Bool.true_or]

section

variable {taken : List (List Char)} {n : Nat} {name : List Char}

theorem freshNames_eq (taken : List (List Char)) (n : Nat) : freshNames taken n =
    (((List.range (n + taken.length)).map numberedName).filter (!taken.contains ·)).take n := rfl

theorem numbered_of_mem_freshNames (h : name ∈ freshNames taken n) :
    ∃ i, name = numberedName i := by
  have hcandidate := (List.mem_filter.mp (List.mem_of_mem_take h)).1
  obtain ⟨i, -, rfl⟩ := List.mem_map.mp hcandidate
  exact ⟨i, rfl⟩

theorem isNameChar_of_mem_freshNames (h : name ∈ freshNames taken n) {c : Char} (hc : c ∈ name) :
    isNameChar c := by
  obtain ⟨i, rfl⟩ := numbered_of_mem_freshNames h
  exact isNameChar_of_mem_numberedName hc

theorem not_mem_taken_of_mem_freshNames (h : name ∈ freshNames taken n) : name ∉ taken := by
  have hfree := (List.mem_filter.mp (List.mem_of_mem_take h)).2
  simpa using hfree

theorem nodup_freshNames (taken : List (List Char)) (n : Nat) : (freshNames taken n).Nodup := by
  have hcandidates := List.nodup_range (n := n + taken.length) |>.map numberedName_injective
  exact (hcandidates.filter _).sublist (List.take_sublist _ _)

/-- The taken names can spoil only as many candidates as there are taken names. -/
theorem length_freshNames (taken : List (List Char)) (n : Nat) :
    (freshNames taken n).length = n := by
  rw [freshNames_eq, List.length_take]
  set candidates := (List.range (n + taken.length)).map numberedName with hcandidates
  have hcount : candidates.length = n + taken.length := by
    rw [hcandidates, List.length_map, List.length_range]
  have hsplit := List.length_eq_length_filter_add (l := candidates) (!taken.contains ·)
  have hspoiled : (candidates.filter fun name => !!taken.contains name).length ≤ taken.length := by
    have hnodup : candidates.Nodup := List.nodup_range.map numberedName_injective
    refine ((hnodup.filter _).subperm fun name hname => ?_).length_le
    simpa using (List.mem_filter.mp hname).2
  omega

end

end RouteAudit.Remedy
