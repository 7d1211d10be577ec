import RouteAudit.Proofs.Regex.Search

/-! # Text put behind

More text behind a text leaves most matches as they are: only an assertion at the end of
the text can see the difference. An expression without such assertions is steady and
matches just what it did (`Matches.extend`). Where a steady expression is followed by the
demand that some characters do not come next, a match at the end of the text survives if
the new text does not start with one of these (`survives_boundary`).
-/

namespace RouteAudit.Regex

open RouteAudit.Text (Spot)

variable {s t u : Spot} {e first second : Expr} {more : List Char}

/-- Where a character follows, more text behind is not seen. -/
theorem Look.holds_extend {assertion : Look} (hrest : s.rest ≠ []) (more : List Char) :
    assertion.holds (s.extend more) = assertion.holds s := by
  have hafter : (s.extend more).after = s.after := List.head?_append_of_ne_nil _ hrest
  rw [Look.holds, Look.holds, hafter]
  rfl

theorem next?_extend {c : Char} (hnext : s.next? = some (c, t)) (more : List Char) :
    (s.extend more).next? = some (c, t.extend more) := by
  obtain ⟨index, before, rest⟩ := s
  cases rest with
  | nil => cases hnext
  | cons first rest =>
      obtain ⟨rfl, rfl⟩ := Prod.mk.inj (Option.some.inj hnext)
      rfl

theorem rest_of_next? {c : Char} (hnext : s.next? = some (c, t)) : s.rest = c :: t.rest := by
  obtain ⟨index, before, rest⟩ := s
  cases rest with
  | nil => cases hnext
  | cons first rest =>
      obtain ⟨rfl, rfl⟩ := Prod.mk.inj (Option.some.inj hnext)
      rfl

namespace Expr

/-- A match never goes back. -/
theorem Matches.length_le (hmatch : e.Matches s t) : t.rest.length ≤ s.rest.length := by
  induction hmatch with
  | empty | look | stop => exact Nat.le_refl _
  | set hnext _ =>
      rw [rest_of_next? hnext, List.length_cons]
      exact Nat.le_succ _
  | cat _ _ ihfirst ihsecond => exact Nat.le_trans ihsecond ihfirst
  | altFirst _ ih | altSecond _ ih | group _ ih => exact ih
  | more _ _ _ ihround ihrest => exact Nat.le_trans ihrest ihround

/-- A match of an expression that consumes takes up a character. -/
theorem Matches.length_lt (hmatch : e.Matches s t) (hconsumes : e.consumes) :
    t.rest.length < s.rest.length := by
  induction hmatch with
  | empty | look => cases hconsumes
  | set hnext _ =>
      rw [rest_of_next? hnext, List.length_cons]
      exact Nat.lt_succ_self _
  | cat hfirst hsecond ihfirst ihsecond =>
      rw [consumes, Bool.or_eq_true] at hconsumes
      rcases hconsumes with hconsumes | hconsumes
      · exact Nat.lt_of_le_of_lt hsecond.length_le (ihfirst hconsumes)
      · exact Nat.lt_of_lt_of_le (ihsecond hconsumes) hfirst.length_le
  | altFirst _ ih =>
      rw [consumes, Bool.and_eq_true] at hconsumes
      exact ih hconsumes.1
  | altSecond _ ih =>
      rw [consumes, Bool.and_eq_true] at hconsumes
      exact ih hconsumes.2
  | stop => cases hconsumes
  | more _ _ hrest ihround _ =>
      rw [consumes, Bool.and_eq_true] at hconsumes
      exact Nat.lt_of_le_of_lt hrest.length_le (ihround hconsumes.2)
  | group _ ih => exact ih hconsumes

theorem Matches.rest_ne_nil (hmatch : e.Matches s t) (hconsumes : e.consumes) : s.rest ≠ [] := by
  intro hnil
  have hlength := hmatch.length_lt hconsumes
  rw [hnil] at hlength
  exact Nat.not_lt_zero _ hlength

/-- Whether the expression is nothing but an assertion. -/
def isLook : Expr → Bool
  | look _ => true
  | _ => false

/-- Every assertion of the expression asks for the start of the text, or a character is
read right where it stands. -/
def steady : Expr → Bool
  | empty | set _ => true
  | look assertion => assertion = .textStart
  | cat first second => (first.steady || first.isLook && second.consumes) && second.steady
  | alt first second => first.steady && second.steady
  | repeated _ _ _ body => body.steady
  | group _ body => body.steady

/-- A match of a steady expression stays a match with more text behind. -/
theorem Matches.extend (hmatch : e.Matches s t) (hsteady : e.steady) (more : List Char) :
    e.Matches (s.extend more) (t.extend more) := by
  induction hmatch with
  | empty s => exact .empty _
  | set hnext hmem => exact .set (next?_extend hnext more) hmem
  | @look assertion s hholds =>
      obtain rfl : assertion = .textStart := of_decide_eq_true hsteady
      exact .look hholds
  | @cat first second s t u hfirst hsecond ihfirst ihsecond =>
      rw [steady, Bool.and_eq_true, Bool.or_eq_true, Bool.and_eq_true] at hsteady
      obtain ⟨hsteady | ⟨hlook, hconsumes⟩, hrest⟩ := hsteady
      · exact .cat (ihfirst hsteady) (ihsecond hrest)
      · -- The assertion stands before a character, so it sees what it saw.
        cases hfirst with
        | look hholds =>
            refine .cat (.look ?_) (ihsecond hrest)
            rw [Look.holds_extend (hsecond.rest_ne_nil hconsumes)]
            exact hholds
        | empty | set | cat | altFirst | altSecond | stop | more | group => cases hlook
  | altFirst _ ih =>
      rw [steady, Bool.and_eq_true] at hsteady
      exact .altFirst (ih hsteady.1)
  | altSecond _ ih =>
      rw [steady, Bool.and_eq_true] at hsteady
      exact .altSecond (ih hsteady.2)
  | stop s => exact .stop _
  | more hmost _ _ ihround ihrest => exact .more hmost (ihround hsteady) (ihrest hsteady)
  | group _ ih => exact .group (ih hsteady)

/-- Wherever the expression matches, it matches with more text behind, though maybe another
stretch. -/
def Survives (e : Expr) (more : List Char) : Prop :=
  ∀ s t, e.Matches s t → ∃ u, e.Matches (s.extend more) u

theorem survives_of_steady (hsteady : e.steady) (more : List Char) : e.Survives more :=
  fun _ t hmatch => ⟨t.extend more, hmatch.extend hsteady more⟩

theorem Survives.cat (hsteady : first.steady) (hsecond : second.Survives more) :
    (Expr.cat first second).Survives more := by
  intro s u hmatch
  obtain ⟨t, hfirst, hrest⟩ := matches_cat_iff.mp hmatch
  obtain ⟨v, hsurvives⟩ := hsecond t u hrest
  exact ⟨v, .cat (hfirst.extend hsteady more) hsurvives⟩

/-- The end of the text or a character of a kind is found again if more text starts with a
character of this kind. -/
theorem survives_boundary {chars : CharSet} (hmore : ∀ c, more.head? = some c → c ∈ chars) :
    (Expr.alt (.set chars) (.look .textEnd)).Survives more := by
  intro s t hmatch
  rcases matches_alt_iff.mp hmatch with hset | hend
  · exact ⟨t.extend more, .altFirst (hset.extend rfl more)⟩
  · obtain ⟨rfl, hholds⟩ := matches_look_iff.mp hend
    obtain ⟨index, before, rest⟩ := t
    obtain rfl : rest = [] := by
      cases rest with
      | nil => rfl
      | cons c rest => cases hholds
    cases more with
    | nil => exact ⟨_, .altSecond (.look rfl)⟩
    | cons c more => exact ⟨_, .altFirst (.set rfl (hmore c rfl))⟩

end Expr

/-- What occurs in a text and survives more text behind occurs in the longer text. -/
theorem isMatch_append (hbounded : e.wellBounded) {text : List Char} (hsurvives : e.Survives more)
    (hmatch : (Searcher.ofExpr e).isMatch text) : (Searcher.ofExpr e).isMatch (text ++ more) := by
  rw [isMatch_iff hbounded] at hmatch ⊢
  obtain ⟨s, hs, t, hst⟩ := hmatch
  obtain ⟨u, hu⟩ := hsurvives s t hst
  exact ⟨s.extend more, Spot.extend_mem hs more, u, hu⟩

end RouteAudit.Regex
