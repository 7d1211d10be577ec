import RouteAudit.Proofs.Risk.Scan
import RouteAudit.Risk.Groups

/-! # Emptied groups of a longer text

Text that closes no group leaves what was emptied as it is: a group that was closed stays
empty, and one that was open stays open with all that it had kept. So the emptied longer
text starts with the emptied text (`emptyOutside_append`).
-/

namespace RouteAudit.Risk

theorem emptyOutside_plain {c : Char} (hescape : c ≠ '\\') (hopen : c ≠ '(') (cs : List Char) :
    emptyOutside (c :: cs) = c :: emptyOutside cs := by
  rw [emptyOutside] <;> intros <;> contradiction

theorem emptyInside_plain {c : Char} (hescape : c ≠ '\\') (hopen : c ≠ '(') (hclose : c ≠ ')')
    (opened : List Char) (depth : Nat) (cs : List Char) :
    emptyInside opened depth (c :: cs) = emptyInside opened depth cs := by
  rw [emptyInside] <;> intros <;> contradiction

/-- A group that nothing closes is kept. -/
theorem emptyInside_of_not_mem {cs : List Char} (hclose : ')' ∉ cs) (opened : List Char)
    (depth : Nat) : emptyInside opened depth cs = '(' :: opened := by
  induction hlength : cs.length using Nat.strongRecOn generalizing cs depth with
  | ind length ih =>
      have hshorter {rest : List Char} (hsuffix : rest <:+ cs) (hless : rest.length < cs.length)
          (depth : Nat) : emptyInside opened depth rest = '(' :: opened :=
        ih rest.length (hlength ▸ hless) (fun hmem => hclose (hsuffix.subset hmem)) depth rfl
      unfold emptyInside
      split
      next => rfl
      next => rfl
      next c rest =>
          have hless : rest.length < rest.length + 2 := Nat.lt_add_of_pos_right (by decide)
          exact hshorter ⟨['\\', c], rfl⟩ hless depth
      next rest => exact hshorter ⟨['('], rfl⟩ (Nat.lt_succ_self _) (depth + 1)
      next rest => exact absurd List.mem_cons_self hclose
      next c rest _ _ _ _ => exact hshorter ⟨[c], rfl⟩ (Nat.lt_succ_self _) depth

/-- Text behind that closes no group only adds to what is kept. -/
theorem empty_append {more : List Char} (hclose : ')' ∉ more) :
    (∀ cs, emptyOutside cs <+: emptyOutside (cs ++ more)) ∧
      ∀ opened depth cs,
        emptyInside opened depth cs <+: emptyInside (opened ++ more) depth (cs ++ more) := by
  apply emptyOutside.mutual_induct (fun cs => emptyOutside cs <+: emptyOutside (cs ++ more))
    (fun opened depth cs =>
      emptyInside opened depth cs <+: emptyInside (opened ++ more) depth (cs ++ more))
  -- Outside of groups.
  · exact List.nil_prefix
  · cases more with
    | nil => exact List.prefix_refl _
    | cons c more => exact ⟨c :: emptyOutside more, rfl⟩
  · intro c cs ih
    exact List.cons_prefix_cons.mpr ⟨rfl, List.cons_prefix_cons.mpr ⟨rfl, ih⟩⟩
  · intro cs ih
    exact ih
  · intro c cs hend hnext hopen ih
    have hescape := Facts.ne_escape hend hnext
    rw [List.cons_append, emptyOutside_plain hescape hopen, emptyOutside_plain hescape hopen]
    exact List.cons_prefix_cons.mpr ⟨rfl, ih⟩
  -- Inside a group. One that is still open keeps all of the text behind.
  · intro opened depth
    rw [List.nil_append, emptyInside_of_not_mem hclose]
    exact ⟨more, rfl⟩
  · intro opened depth
    cases more with
    | nil =>
        rw [List.append_nil]
        exact List.prefix_refl _
    | cons c more =>
        have hrest : ')' ∉ more := fun hmem => hclose (List.mem_cons_of_mem c hmem)
        have hkept : emptyInside (opened ++ c :: more) depth (['\\'] ++ c :: more) =
            '(' :: (opened ++ c :: more) := emptyInside_of_not_mem hrest _ depth
        rw [hkept]
        exact ⟨c :: more, rfl⟩
  · intro opened depth c cs ih
    exact ih
  · intro opened depth cs ih
    exact ih
  · intro opened cs ih
    exact List.cons_prefix_cons.mpr ⟨rfl, List.cons_prefix_cons.mpr ⟨rfl, ih⟩⟩
  · intro opened cs depth ih
    exact ih
  · intro opened depth c cs hend hnext hopen hother ih
    have hescape := Facts.ne_escape hend hnext
    rw [List.cons_append, emptyInside_plain hescape hopen hother,
      emptyInside_plain hescape hopen hother]
    exact ih

theorem emptyOutside_append (cs : List Char) {more : List Char} (hclose : ')' ∉ more) :
    emptyOutside cs <+: emptyOutside (cs ++ more) := (empty_append hclose).1 cs

end RouteAudit.Risk
