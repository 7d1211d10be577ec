import RouteAudit.Unicode.WordClass

/-! # The long s stands inside words

Which categories a character has is read off long tables, so it is proved for no more characters
than are asked for: the long s (U+017F), which is an `s` in any case, is a letter.
-/

namespace RouteAudit.Unicode

/-- A table holds what some range of its text holds. -/
theorem RangeTable.holds_ofText {text : String} {chars : List Char} {code : Nat}
    (htext : text = String.ofList chars)
    (hranges : ((words chars).filterMap range?).any (inRange code)) : (ofText text).holds code := by
  rw [htext, holds, ofText, String.toList_ofList]
  exact hranges

set_option maxRecDepth 16000 in
theorem lowercaseLetter_longS : Category.lowercaseLetter.holds '\u017F' :=
  RangeTable.holds_ofText rfl (by decide +kernel)

theorem isWord_longS : isWord '\u017F' := by
  have hletter : Trait.alphabetic.holds '\u017F' := by
    have hcategories : Trait.alphabetic.categories.any (·.holds '\u017F') :=
      List.any_eq_true.mpr ⟨_, List.mem_cons_of_mem _ List.mem_cons_self, lowercaseLetter_longS⟩
    rw [Trait.holds, hcategories]
    rfl
  rw [isWord, if_neg (by decide), hletter]
  rfl

end RouteAudit.Unicode
