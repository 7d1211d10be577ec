import RouteAudit.Proofs.Remedy.Expansion
import RouteAudit.Proofs.Remedy.Log
import RouteAudit.Proofs.Remedy.Traversal

/-! # What remediation removes

No rule fires anew when double wildcards are expanded or dots encoded, so the score never stands
against either and both are taken over. What they target is gone then, and no later step brings it
back.
-/

namespace RouteAudit.Remedy

open Risk (Assessment Check Rule)

/-! ## Two repairs that raise no score -/

section

variable {text candidate : List Char}

theorem scoreOf_le (h : ∀ rule ∈ Rule.table, rule.check.PassedOn candidate text) :
    Work.scoreOf candidate ≤ Work.scoreOf text :=
  Assessment.score_le_of_fires h

theorem scoreOf_expandRuns_le (text : List Char) :
    Work.scoreOf (expandRuns text) ≤ Work.scoreOf text :=
  scoreOf_le (Rule.fires_of_patched seamless_expansion expansion_keeps (expandRuns_patched text))

theorem scoreOf_encodeTraversal_le (text : List Char) :
    Work.scoreOf (encodeTraversal text) ≤ Work.scoreOf text :=
  scoreOf_le (Rule.fires_of_patched seamless_encoding encoding_keeps (encodeTraversal_patched text))

/-- Where there is no run, there is nothing to expand. -/
theorem Cuts.fillRuns_eq {cuts : List Chunk} (h : Cuts cuts text) (hcount : cuts.count .run = 0)
    (names : List (List Char)) : fillRuns names cuts = text := by
  induction h with
  | nil => rfl
  | char c _ ih => exact congrArg (c :: ·) (ih hcount)
  | run =>
      rw [count_run_cons] at hcount
      exact absurd hcount (Nat.succ_ne_zero _)

theorem expandRuns_eq_self (h : runCount text = 0) : expandRuns text = text :=
  (cuts_chunks text).fillRuns_eq h _

theorem hasTraversal_expandRuns (h : hasTraversal none (expandRuns text)) :
    hasTraversal none text := by
  rw [← isMatch_traversal_iff] at h ⊢
  have hkeeps : expansion.keeps Risk.Marker.traversal := expansion_keeps _ (by simp [Risk.markers])
  exact Regex.Patch.isMatch_of_patched hkeeps (expandRuns_patched text) h

end

/-! ## The steps -/

namespace Work

variable {work : Work} {candidate : List Char} {description : String}

/-- A candidate with no higher score is taken over. -/
theorem change_of_le (hscored : work.score = scoreOf work.pattern)
    (hle : scoreOf candidate ≤ scoreOf work.pattern) :
    (work.change candidate description).pattern = candidate := by
  unfold Work.change
  split
  next hsame => exact hsame.symm
  next =>
    dsimp only
    rw [hscored, if_neg (UInt32.not_lt.mpr hle)]

theorem expandDoubleWildcards_pattern (hscored : work.score = scoreOf work.pattern) :
    work.expandDoubleWildcards.pattern = expandRuns work.pattern := by
  unfold Work.expandDoubleWildcards
  dsimp only
  split
  next hcount => exact (expandRuns_eq_self hcount).symm
  next => exact change_of_le hscored (scoreOf_expandRuns_le work.pattern)

theorem encodeTraversal_pattern {before : Assessment} (hscored : work.score = scoreOf work.pattern)
    (hrule : before.hasRule Rule.pathTraversal) :
    (work.encodeTraversal before).pattern = Remedy.encodeTraversal work.pattern := by
  rw [Work.encodeTraversal, if_pos hrule]
  exact change_of_le hscored (scoreOf_encodeTraversal_le work.pattern)

/-- A change brings no traversal in if its candidate does not. -/
theorem hasTraversal_change (h : hasTraversal none candidate → hasTraversal none work.pattern)
    (hchanged : hasTraversal none (work.change candidate description).pattern) :
    hasTraversal none work.pattern := by
  rcases work.change_pattern candidate description with hold | hnew
  · rwa [hold] at hchanged
  · rw [hnew] at hchanged
    exact h hchanged

theorem hasTraversal_escapePipes {before : Assessment}
    (h : hasTraversal none (work.escapePipes before).pattern) : hasTraversal none work.pattern := by
  unfold Work.escapePipes at h
  split at h
  · exact h
  · dsimp only at h
    split at h
    · exact h
    · exact hasTraversal_change Remedy.hasTraversal_escapePipes h

theorem hasTraversal_boundTrailingWildcard {before : Assessment}
    (h : hasTraversal none (work.boundTrailingWildcard before).pattern) :
    hasTraversal none work.pattern := by
  unfold Work.boundTrailingWildcard at h
  dsimp only at h
  split at h
  · exact h
  · split at h
    next hsplit => exact hasTraversal_change (hasTraversal_boundParam hsplit) h
    next =>
      split at h
      next hstar => exact hasTraversal_change (hasTraversal_boundStar hstar) h
      next => exact h

end Work

/-! ## Main result -/

theorem hasRule_of_fires {pattern : String} {rule : Rule} (hrule : rule ∈ Rule.table)
    (h : rule.fires pattern (.scan pattern)) : (Assessment.ofText pattern).hasRule rule := by
  have hfired : rule ∈ Assessment.fired pattern (.scan pattern) := List.mem_filter.mpr ⟨hrule, h⟩
  exact List.any_eq_true.mpr ⟨rule.finding, List.mem_map_of_mem hfired, beq_self_eq_true rule.id⟩

/-- Every repaired pattern is free of what two of the repairs target: no segment of it is two dots
and no run of stars fills one. Expanding and encoding never raise a score, of no text at all, so
neither is ever discarded. -/
theorem targets_removed (pattern : String) :
    let before := Assessment.ofText pattern
    let fixed := (remediate pattern).fixed
    let bounded := ((Work.start before).escapePipes before).boundTrailingWildcard before
    Rule.pathTraversal.fires fixed (.scan fixed) = false ∧ runCount fixed.toList = 0 ∧
      bounded.expandDoubleWildcards.pattern = expandRuns bounded.pattern ∧
      (before.hasRule Rule.pathTraversal →
        fixed.toList = encodeTraversal (expandRuns bounded.pattern)) ∧
      ∀ text, Work.scoreOf (expandRuns text) ≤ Work.scoreOf text ∧
        Work.scoreOf (encodeTraversal text) ≤ Work.scoreOf text := by
  intro before fixed bounded
  have hbounded : bounded.Faithful pattern.toList :=
    (Work.faithful_start pattern).escapePipes before |>.boundTrailingWildcard before
  have hexpanded : bounded.expandDoubleWildcards.pattern = expandRuns bounded.pattern :=
    Work.expandDoubleWildcards_pattern hbounded.scored
  have hnoted : bounded.expandDoubleWildcards.noteSensitiveSegments.pattern =
      expandRuns bounded.pattern := by
    rw [Work.noteSensitiveSegments_pattern, hexpanded]
  have hfixed : fixed.toList =
      (bounded.expandDoubleWildcards.noteSensitiveSegments.encodeTraversal before).pattern := by
    have hfinish : fixed.toList = (Work.finish before).pattern := String.toList_ofList
    rw [hfinish, Work.finish, Work.noteCredentials_pattern]
  have hencoded (hrule : before.hasRule Rule.pathTraversal) :
      fixed.toList = encodeTraversal (expandRuns bounded.pattern) := by
    have hscored := hbounded.expandDoubleWildcards.noteSensitiveSegments.scored
    rw [hfixed, Work.encodeTraversal_pattern hscored hrule, hnoted]
  have hkept (hrule : ¬ before.hasRule Rule.pathTraversal) :
      fixed.toList = expandRuns bounded.pattern := by
    rw [hfixed, Work.encodeTraversal, if_neg hrule, hnoted]
  refine ⟨?traversal, ?runs, hexpanded, hencoded, ?scores⟩
  case traversal =>
    have hfires : Rule.pathTraversal.fires fixed (.scan fixed) ↔ hasTraversal none fixed.toList :=
      isMatch_traversal_iff fixed.toList
    rw [← Bool.not_eq_true, hfires]
    by_cases hrule : before.hasRule Rule.pathTraversal
    · rw [hencoded hrule]
      exact not_hasTraversal_encodeTraversal _
    · -- The pattern had no segment of dots, and no step makes one.
      rw [hkept hrule]
      intro hdots
      have hpattern : hasTraversal none pattern.toList :=
        Work.hasTraversal_escapePipes
          (Work.hasTraversal_boundTrailingWildcard (hasTraversal_expandRuns hdots))
      have htable : Rule.pathTraversal ∈ Rule.table := List.mem_cons_of_mem _ List.mem_cons_self
      exact hrule (hasRule_of_fires htable ((isMatch_traversal_iff pattern.toList).mpr hpattern))
  case runs =>
    by_cases hrule : before.hasRule Rule.pathTraversal
    · rw [hencoded hrule, runCount_encodeTraversal, runCount_expandRuns]
    · rw [hkept hrule, runCount_expandRuns]
  case scores => exact fun text => ⟨scoreOf_expandRuns_le text, scoreOf_encodeTraversal_le text⟩

/-- A segment of dots and a segment of stars are replaced, dots in a value are none. -/
example : encodeTraversal (expandRuns "/../**?x=..".toList) =
    "/%2E%2E/:seg1?/:seg2?/:seg3??x=..".toList := by decide

end RouteAudit.Remedy
