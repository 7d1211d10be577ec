import RouteAudit.Text.Spot

/-! # The spots of a text

A spot of a text is known by its index, and text that is put behind leaves the spots that
were there in their places; they only have more after them.
-/

namespace RouteAudit.Text.Spot

variable {text : List Char} {s t : Spot}

/-- The spot with more text behind the text that follows it. -/
def extend (s : Spot) (more : List Char) : Spot := { s with rest := s.rest ++ more }

theorem mem_fromHere_iff {index : Nat} {before : Option Char} : s ∈ fromHere index before text ↔
    ∃ j ≤ text.length, s = ⟨index + j, if j = 0 then before else text[j - 1]?, text.drop j⟩ := by
  induction text generalizing index before with
  | nil => simp [fromHere]
  | cons c cs ih =>
      rw [fromHere, List.mem_cons, ih]
      constructor
      · rintro (rfl | ⟨j, hj, rfl⟩)
        · exact ⟨0, Nat.zero_le _, by simp⟩
        · refine ⟨j + 1, Nat.succ_le_succ hj, ?_⟩
          cases j <;> simp [Nat.add_assoc, Nat.add_comm 1]
      · rintro ⟨j, hj, rfl⟩
        cases j with
        | zero => exact .inl (by simp)
        | succ j =>
            refine .inr ⟨j, Nat.le_of_succ_le_succ hj, ?_⟩
            cases j <;> simp [Nat.add_assoc, Nat.add_comm 1]

/-- The spots of a text by their indices. -/
theorem mem_all_iff : s ∈ all text ↔
    ∃ j ≤ text.length, s = ⟨j, if j = 0 then none else text[j - 1]?, text.drop j⟩ := by
  simp only [all, mem_fromHere_iff, Nat.zero_add]

theorem index_le (hs : s ∈ all text) : s.index ≤ text.length := by
  obtain ⟨j, hj, rfl⟩ := mem_all_iff.mp hs
  exact hj

theorem length_all (text : List Char) : (all text).length = text.length + 1 := by
  have hfrom (index : Nat) (before : Option Char) :
      (fromHere index before text).length = text.length + 1 := by
    induction text generalizing index before with
    | nil => rfl
    | cons c cs ih => rw [fromHere, List.length_cons, ih, List.length_cons]
  exact hfrom 0 none

/-- One index is the index of one spot. -/
theorem eq_of_index (hs : s ∈ all text) (ht : t ∈ all text) (hindex : s.index = t.index) :
    s = t := by
  obtain ⟨i, -, rfl⟩ := mem_all_iff.mp hs
  obtain ⟨j, -, rfl⟩ := mem_all_iff.mp ht
  obtain rfl : i = j := hindex
  rfl

/-- Behind the next character there is a spot of the text. -/
theorem next?_mem {c : Char} (hs : s ∈ all text) (hnext : s.next? = some (c, t)) :
    t ∈ all text := by
  obtain ⟨j, hj, rfl⟩ := mem_all_iff.mp hs
  unfold next? at hnext
  split at hnext
  next => cases hnext
  next first rest hrest =>
    obtain ⟨rfl, rfl⟩ := Prod.mk.inj (Option.some.inj hnext)
    have hlt : j < text.length := by
      have hlength := congrArg List.length hrest
      simp at hlength
      omega
    have hfirst := List.drop_eq_getElem_cons hlt ▸ hrest
    refine mem_all_iff.mpr ⟨j + 1, hlt, ?_⟩
    obtain ⟨rfl, rfl⟩ := List.cons.inj hfirst
    simp [List.getElem?_eq_getElem hlt]

theorem extend_mem (hs : s ∈ all text) (more : List Char) : s.extend more ∈ all (text ++ more) := by
  obtain ⟨j, hj, rfl⟩ := mem_all_iff.mp hs
  refine mem_all_iff.mpr ⟨j, by simp; omega, ?_⟩
  rw [extend, List.drop_append_of_le_length hj]
  split
  next => rfl
  next hpositive => rw [List.getElem?_append_left (by omega)]

end RouteAudit.Text.Spot
