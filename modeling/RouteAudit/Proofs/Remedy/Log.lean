import RouteAudit.Proofs.Remedy.Weight
import RouteAudit.Remedy.Result

/-! # What remediation logs is what it did

Through all steps the score of the work is the score of its text, and it never exceeds the
score of the text that the work started with. A step that logs a change lowers the weight of
the text and one that logs none leaves the text alone, so the log is empty exactly if the
text is the old one (`remediate_faithful`).
-/

namespace RouteAudit.Remedy

open Risk (Assessment)

namespace Work

/-! ## What the steps leave of the text -/

theorem change_pattern (work : Work) (candidate : List Char) (description : String) :
    (work.change candidate description).pattern = work.pattern ∨
      (work.change candidate description).pattern = candidate := by
  unfold Work.change
  split
  next => exact .inl rfl
  next =>
    dsimp only
    split
    · exact .inl rfl
    · exact .inr rfl

theorem noteSensitiveSegments_pattern (work : Work) :
    work.noteSensitiveSegments.pattern = work.pattern := by
  unfold Work.noteSensitiveSegments
  induction sensitiveSegments work.pattern generalizing work with
  | nil => rfl
  | cons segment segments ih => exact ih (work.note _)

theorem noteCredentials_pattern (assessment : Assessment) (work : Work) :
    (work.noteCredentials assessment).pattern = work.pattern := by
  unfold Work.noteCredentials
  dsimp only
  split_ifs <;> rfl

/-! ## The log -/

/-- The work goes back to a text: its score is up to date and no higher than that of the text,
and its log tells whether the text has been left. -/
structure Faithful (text : List Char) (work : Work) : Prop where
  scored : work.score = scoreOf work.pattern
  limited : work.score ≤ scoreOf text
  unchanged : work.changes = [] → work.pattern = text
  lighter : work.changes ≠ [] → weight work.pattern < weight text

section

variable {text : List Char} {work : Work}

theorem Faithful.weight_le (h : work.Faithful text) : weight work.pattern ≤ weight text := by
  by_cases hchanges : work.changes = []
  · rw [h.unchanged hchanges]
  · exact (h.lighter hchanges).le

/-- A change that lowers the weight of the text keeps the work faithful, taken or not. -/
theorem Faithful.change (h : work.Faithful text) {candidate : List Char}
    (hlighter : candidate ≠ work.pattern → weight candidate < weight work.pattern)
    (description : String) : (work.change candidate description).Faithful text := by
  unfold Work.change
  split
  next => exact h
  next hnew =>
    dsimp only
    split
    next => exact h
    next hscore =>
      have hlimited := UInt32.le_trans (UInt32.not_lt.mp hscore) h.limited
      refine ⟨rfl, hlimited, ?_, ?_⟩
      · intro hchanges
        exact absurd hchanges (List.append_ne_nil_of_right_ne_nil _ (List.cons_ne_nil _ _))
      · intro _
        exact (hlighter hnew).trans_le h.weight_le

theorem Faithful.note (h : work.Faithful text) (message : String) :
    (work.note message).Faithful text :=
  ⟨h.scored, h.limited, h.unchanged, h.lighter⟩

/-! ## The steps -/

theorem Faithful.escapePipes (h : work.Faithful text) (before : Assessment) :
    (work.escapePipes before).Faithful text := by
  unfold Work.escapePipes
  split
  next => exact h
  next =>
    dsimp only
    split
    next => exact h
    next hcount => exact h.change (fun _ => weight_escapePipes hcount) _

theorem Faithful.boundTrailingWildcard (h : work.Faithful text) (before : Assessment) :
    (work.boundTrailingWildcard before).Faithful text := by
  unfold Work.boundTrailingWildcard
  dsimp only
  split
  next => exact h
  next =>
    split
    next head name hsplit => exact h.change (fun _ => weight_boundParam hsplit) _
    next =>
      split
      next head hstar => exact h.change (fun _ => weight_boundStar hstar) _
      next => exact h

theorem Faithful.expandDoubleWildcards (h : work.Faithful text) :
    work.expandDoubleWildcards.Faithful text := by
  unfold Work.expandDoubleWildcards
  dsimp only
  split
  next => exact h
  next hruns => exact h.change (fun _ => weight_expandRuns hruns) _

theorem Faithful.noteSensitiveSegments (h : work.Faithful text) :
    work.noteSensitiveSegments.Faithful text := by
  unfold Work.noteSensitiveSegments
  induction sensitiveSegments work.pattern generalizing work with
  | nil => exact h
  | cons segment segments ih => exact ih (h.note _)

theorem Faithful.encodeTraversal (h : work.Faithful text) (before : Assessment) :
    (work.encodeTraversal before).Faithful text := by
  unfold Work.encodeTraversal
  split
  next => exact h.change weight_encodeTraversal _
  next => exact h

theorem Faithful.noteCredentials (h : work.Faithful text) (before : Assessment) :
    (work.noteCredentials before).Faithful text := by
  unfold Work.noteCredentials
  dsimp only
  split_ifs
  · exact (h.note _).note _
  · exact h.note _
  · exact h.note _
  · exact h

end

theorem faithful_start (pattern : String) :
    (start (.ofText pattern)).Faithful pattern.toList := by
  have hscore : (Assessment.ofText pattern).score = scoreOf pattern.toList := by
    rw [scoreOf, String.ofList_toList]
  exact ⟨hscore, UInt32.le_of_eq hscore, fun _ => rfl, fun hchanges => absurd rfl hchanges⟩

theorem faithful_finish (pattern : String) :
    (finish (.ofText pattern)).Faithful pattern.toList :=
  (faithful_start pattern).escapePipes _ |>.boundTrailingWildcard _ |>.expandDoubleWildcards
    |>.noteSensitiveSegments |>.encodeTraversal _ |>.noteCredentials _

end Work

/-- Remediation tells the scores of the old and the new text, the new one is no higher, and
the text is another one exactly if a change is logged: accepted changes never lead back. -/
theorem remediate_faithful (pattern : String) :
    (remediate pattern).scoreBefore = (Assessment.ofText pattern).score ∧
      (remediate pattern).scoreAfter = (Assessment.ofText (remediate pattern).fixed).score ∧
      (remediate pattern).scoreAfter ≤ (remediate pattern).scoreBefore ∧
      ((remediate pattern).fixed ≠ pattern ↔ (remediate pattern).changes ≠ []) := by
  have h := Work.faithful_finish pattern
  have hfixed : (remediate pattern).fixed.toList = (Work.finish (.ofText pattern)).pattern :=
    String.toList_ofList
  refine ⟨rfl, rfl, ?_, ?_⟩
  · have hlimited := h.limited
    rw [h.scored, Work.scoreOf, Work.scoreOf, String.ofList_toList] at hlimited
    exact hlimited
  · constructor
    · intro hmoved hchanges
      have hsame := h.unchanged hchanges
      rw [← hfixed] at hsame
      exact hmoved (String.toList_injective hsame)
    · intro hchanges hsame
      have hlighter := h.lighter hchanges
      rw [← hfixed, hsame] at hlighter
      exact lt_irrefl _ hlighter

end RouteAudit.Remedy
