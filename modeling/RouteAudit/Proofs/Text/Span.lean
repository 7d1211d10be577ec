import Mathlib.Data.List.TakeDrop
import Mathlib.Data.List.TakeWhile

/-! # What a span takes

A reader takes the longest start of a text whose characters all pass, which is told by the
characters that it takes and by the one that it leaves.
-/

namespace RouteAudit.Text

variable {α : Type} {p : α → Bool} {text start rest : List α}

/-- What is taken passes, and what is left does not go on with more of it. -/
theorem span_eq_iff : text.span p = (start, rest) ↔
    text = start ++ rest ∧ (∀ a ∈ start, p a) ∧ ∀ a ∈ rest.head?, ¬ p a := by
  rw [List.span_eq_takeWhile_dropWhile, Prod.mk.injEq]
  constructor
  · rintro ⟨rfl, rfl⟩
    refine ⟨List.takeWhile_append_dropWhile.symm, fun a ha => List.mem_takeWhile_imp ha, ?_⟩
    intro a ha
    have hfirst := List.head?_dropWhile_not p text
    rw [Option.mem_def.mp ha] at hfirst
    simp [hfirst]
  · rintro ⟨rfl, hstart, hrest⟩
    rw [List.takeWhile_append_of_pos hstart, List.dropWhile_append_of_pos hstart]
    cases rest with
    | nil => exact ⟨List.append_nil start, rfl⟩
    | cons a rest =>
        have ha : ¬ p a := hrest a rfl
        rw [List.takeWhile_cons_of_neg ha, List.dropWhile_cons_of_neg ha, List.append_nil]
        exact ⟨rfl, rfl⟩

end RouteAudit.Text
