import RouteAudit.Proofs.Pattern.Reading
import RouteAudit.Proofs.Risk.Groups
import RouteAudit.Risk.Rule

/-! # Bodies of groups

A group that closes is emptied whatever its body is, and what stands before and behind it is
emptied as if it stood alone (`emptyOutside_group`). So a shell character in a body never counts.
A group that never closes is kept with all that follows, and read again it still never closes, so
emptying the groups once more changes nothing (`emptyOutside_idem`).
-/

namespace RouteAudit.Risk

open Template (Balanced)

/-- How many groups are open behind a text, where so many are open before it. A parenthesis that
closes no group stands for itself. There is no answer where a backslash stands last and has
nothing to escape. -/
def openBehind (depth : Nat) : List Char → Option Nat
  | [] => some depth
  | ['\\'] => none
  | '\\' :: _ :: cs => openBehind depth cs
  | '(' :: cs => openBehind (depth + 1) cs
  | ')' :: cs => openBehind (depth - 1) cs
  | _ :: cs => openBehind depth cs

theorem openBehind_plain {c : Char} (hescape : c ≠ '\\') (hopen : c ≠ '(') (hclose : c ≠ ')')
    (depth : Nat) (cs : List Char) : openBehind depth (c :: cs) = openBehind depth cs := by
  rw [openBehind] <;> intros <;> contradiction

/-! ## One group -/

/-- A group is emptied whatever stands in it. -/
theorem emptyInside_balanced {depth : Nat} {body : List Char} (h : Balanced depth body)
    (opened behind : List Char) :
    emptyInside opened depth (body ++ ')' :: behind) = '(' :: ')' :: emptyOutside behind := by
  induction h with
  | nil => rfl
  | escape c _ ih | opening _ ih | closing _ ih => exact ih
  | char hescape hopen hclose _ ih =>
      rw [List.cons_append, emptyInside_plain hescape hopen hclose]
      exact ih

/-- Behind a text that leaves no group open, emptying starts anew. -/
theorem empty_behind (more : List Char) :
    (∀ cs, openBehind 0 cs = some 0 →
      emptyOutside (cs ++ more) = emptyOutside cs ++ emptyOutside more) ∧
      ∀ opened depth cs, openBehind (depth + 1) cs = some 0 → ∀ other,
        emptyInside other depth (cs ++ more) =
          emptyInside opened depth cs ++ emptyOutside more := by
  apply emptyOutside.mutual_induct
    (fun cs => openBehind 0 cs = some 0 →
      emptyOutside (cs ++ more) = emptyOutside cs ++ emptyOutside more)
    (fun opened depth cs => openBehind (depth + 1) cs = some 0 → ∀ other,
      emptyInside other depth (cs ++ more) = emptyInside opened depth cs ++ emptyOutside more)
  -- Outside of groups.
  · intro _
    rfl
  · intro hclosed
    cases hclosed
  · intro c cs ih hclosed
    simp only [List.cons_append, emptyOutside]
    rw [ih hclosed]
  · intro cs ih hclosed
    exact ih hclosed _
  · intro c cs hend hnext hopen ih hclosed
    have hescape := Facts.ne_escape hend hnext
    have hrest : openBehind 0 cs = some 0 := by
      by_cases hclose : c = ')'
      · subst hclose
        exact hclosed
      · rwa [openBehind_plain hescape hopen hclose] at hclosed
    rw [List.cons_append, emptyOutside_plain hescape hopen, emptyOutside_plain hescape hopen,
      ih hrest]
    rfl
  -- Inside a group. A text that ends here has left it open.
  · intro opened depth hclosed
    cases hclosed
  · intro opened depth hclosed
    cases hclosed
  · intro opened depth c cs ih hclosed
    exact ih hclosed
  · intro opened depth cs ih hclosed
    exact ih hclosed
  · intro opened cs ih hclosed other
    simp only [List.cons_append, emptyInside]
    rw [ih hclosed]
  · intro opened cs depth ih hclosed
    exact ih hclosed
  · intro opened depth c cs hend hnext hopen hclose ih hclosed other
    have hescape := Facts.ne_escape hend hnext
    rw [openBehind_plain hescape hopen hclose] at hclosed
    rw [List.cons_append, emptyInside_plain hescape hopen hclose,
      emptyInside_plain hescape hopen hclose]
    exact ih hclosed other

theorem emptyOutside_group {before body : List Char} (hbefore : openBehind 0 before = some 0)
    (hbody : Balanced 0 body) (behind : List Char) :
    emptyOutside (before ++ '(' :: (body ++ ')' :: behind)) =
      emptyOutside before ++ '(' :: ')' :: emptyOutside behind := by
  rw [(empty_behind _).1 before hbefore]
  congr 1
  exact emptyInside_balanced hbody _ behind

/-! ## Emptying again -/

/-- Emptied groups stay as they are. Inside a group it is the text it opens that is read again, and
that reading comes to where the first one is. -/
theorem empty_again :
    (∀ cs, emptyOutside (emptyOutside cs) = emptyOutside cs) ∧
      ∀ opened depth cs, emptyInside opened 0 opened = emptyInside opened depth cs →
        emptyOutside (emptyInside opened depth cs) = emptyInside opened depth cs := by
  apply emptyOutside.mutual_induct
    (fun cs => emptyOutside (emptyOutside cs) = emptyOutside cs)
    (fun opened depth cs => emptyInside opened 0 opened = emptyInside opened depth cs →
      emptyOutside (emptyInside opened depth cs) = emptyInside opened depth cs)
  -- Outside of groups.
  · rfl
  · rfl
  · intro c cs ih
    simp only [emptyOutside]
    rw [ih]
  · intro cs ih
    exact ih rfl
  · intro c cs hend hnext hopen ih
    have hescape := Facts.ne_escape hend hnext
    rw [emptyOutside_plain hescape hopen, emptyOutside_plain hescape hopen, ih]
  -- Inside a group. What never closes is kept, so the reading of it is all there is.
  · intro opened depth hreading
    exact hreading
  · intro opened depth hreading
    exact hreading
  · intro opened depth c cs ih hreading
    exact ih hreading
  · intro opened depth cs ih hreading
    exact ih hreading
  · intro opened cs ih _
    simp only [emptyInside, emptyOutside]
    rw [ih]
  · intro opened cs depth ih hreading
    exact ih hreading
  · intro opened depth c cs hend hnext hopen hclose ih hreading
    have hescape := Facts.ne_escape hend hnext
    rw [emptyInside_plain hescape hopen hclose] at hreading ⊢
    exact ih hreading

/-! ## Main result -/

/-- Between a text that leaves no group open and any other, a group is emptied whatever its body
is, and the others are emptied for themselves. So the rule on shell characters cannot tell one
body from another. Emptying the groups of any text once more changes nothing. -/
theorem bodies_never_matter (before behind body other : String)
    (hbefore : openBehind 0 before.toList = some 0) (hbody : Balanced 0 body.toList)
    (hother : Balanced 0 other.toList) :
    emptyGroups (before ++ "(" ++ body ++ ")" ++ behind) =
        emptyGroups before ++ "()" ++ emptyGroups behind ∧
      emptyGroups (before ++ "(" ++ other ++ ")" ++ behind) =
        emptyGroups before ++ "()" ++ emptyGroups behind ∧
      (∀ facts others,
        Rule.commandInjection.fires (before ++ "(" ++ body ++ ")" ++ behind) facts =
          Rule.commandInjection.fires (before ++ "(" ++ other ++ ")" ++ behind) others) ∧
      ∀ text, emptyGroups (emptyGroups text) = emptyGroups text := by
  have hemptied {body : String} (h : Balanced 0 body.toList) :
      emptyOutside (before ++ "(" ++ body ++ ")" ++ behind).toList =
        emptyOutside before.toList ++ '(' :: ')' :: emptyOutside behind.toList := by
    have htext : (before ++ "(" ++ body ++ ")" ++ behind).toList =
        before.toList ++ '(' :: (body.toList ++ ')' :: behind.toList) := by simp
    rw [htext, emptyOutside_group hbefore h]
  have hgroups {body : String} (h : Balanced 0 body.toList) :
      emptyGroups (before ++ "(" ++ body ++ ")" ++ behind) =
        emptyGroups before ++ "()" ++ emptyGroups behind := by
    rw [emptyGroups, hemptied h]
    apply String.toList_injective
    simp [emptyGroups]
  refine ⟨hgroups hbody, hgroups hother, ?_, ?_⟩
  · intro facts others
    simp only [Rule.fires, Rule.commandInjection, Check.holds]
    rw [hemptied hbody, hemptied hother]
  · intro text
    rw [emptyGroups, emptyGroups, String.toList_ofList, empty_again.1]

/-- Behind an escaped parenthesis and one that closes nothing, a group of alternatives is as good
as one with a shell character and parentheses of its own. What is kept of a group that never
closes may hold a group that does, which is kept too. -/
theorem pipes_as_good_as_semicolons :
    openBehind 0 "/\\(x)".toList = some 0 ∧ Balanced 0 "a|b".toList ∧
      Balanced 0 "(;)\\)".toList ∧
      emptyGroups "/\\(x)(a|b)/:id" = "/\\(x)()/:id" ∧
      emptyGroups "/\\(x)((;)\\))/:id" = "/\\(x)()/:id" ∧
      Rule.commandInjection.fires "/\\(x)(a|b)/:id" {} =
        Rule.commandInjection.fires "/\\(x)((;)\\))/:id" {} ∧
      emptyGroups (emptyGroups "/(a)(b(c|d)") = "/()(b(c|d)" := by
  have hpipe : Balanced 0 "a|b".toList :=
    .char (by decide) (by decide) (by decide) (.char (by decide) (by decide) (by decide)
      (.char (by decide) (by decide) (by decide) .nil))
  have hsemicolon : Balanced 0 "(;)\\)".toList :=
    .opening (.char (by decide) (by decide) (by decide) (.closing (.escape ')' .nil)))
  have hbefore : openBehind 0 "/\\(x)".toList = some 0 := by decide
  obtain ⟨hfirst, hsecond, hfires, hagain⟩ :=
    bodies_never_matter "/\\(x)" "/:id" "a|b" "(;)\\)" hbefore hpipe hsemicolon
  have hunclosed : emptyGroups "/(a)(b(c|d)" = "/()(b(c|d)" := by decide
  exact ⟨hbefore, hpipe, hsemicolon, hfirst, hsecond, hfires {} {}, (hagain _).trans hunclosed⟩

end RouteAudit.Risk
