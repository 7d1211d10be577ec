import RouteAudit.Proofs.Regex.Append
import RouteAudit.Proofs.Risk.Groups
import RouteAudit.Risk.Assessment

/-! # Risk of a longer pattern

Text put behind a pattern takes nothing away from its risk, as long as it closes no group
and does not go on with the name at the end of the pattern. Each kind of check is kept for
its own reason: a marker survives, the emptied groups start with what they were, and the
facts only grow. The score and the level follow from the rules that fire.
-/

namespace RouteAudit.Risk

open RouteAudit.Regex (CharSet Expr Searcher)

/-- Text that may stand behind a pattern: it closes no group, and it starts with no character
that a name goes on with, nor with one that is a letter in another case. -/
structure Detached (suffix : List Char) : Prop where
  closesNone : ')' ∉ suffix
  start : ∀ c, suffix.head? = some c →
    c.isAlphanum = false ∧ c ∉ ['_', '.', '-', '\u017F', '\u212A']

namespace Marker

theorem holds_asciiAlphanumeric (c : Char) : asciiAlphanumeric.holds c = c.isAlphanum := by
  have hupper : c.isUpper = (decide ('A' ≤ c) && decide (c ≤ 'Z')) := Bool.decide_and _ _
  have hclasses : c.isAlphanum = (c.isUpper || c.isLower || c.isDigit) := rfl
  rw [hclasses, Bool.or_assoc, hupper]
  rfl

variable {suffix : List Char}

/-- Detached text does not start with what any marker must not be followed by. -/
theorem not_mem_of_detached (hsuffix : Detached suffix) {c : Char}
    (hfirst : suffix.head? = some c) : c ∉ CharSet.union nameChars foldedToAscii := by
  obtain ⟨halphanum, hother⟩ := hsuffix.start c hfirst
  intro hmem
  rw [CharSet.mem_def, CharSet.holds, nameChars, CharSet.holds, holds_asciiAlphanumeric,
    halphanum, Bool.false_or, Bool.or_eq_true] at hmem
  rcases hmem with hmem | hmem
  · exact hother (List.mem_append_left _ (List.contains_iff_mem.mp hmem))
  · exact hother (List.mem_append_right ['_', '.', '-'] (List.contains_iff_mem.mp hmem))

/-- A marker that ends where no character of a set comes next is seen again. -/
theorem survives_notBefore (hsuffix : Detached suffix) {set : CharSet}
    (hset : ∀ c, c ∈ set → c ∈ CharSet.union nameChars foldedToAscii) :
    (notBefore set).Survives suffix := by
  apply Expr.survives_boundary
  intro c hfirst
  rw [CharSet.mem_def, CharSet.holds, Bool.not_eq_true', ← Bool.not_eq_true]
  intro hmem
  exact not_mem_of_detached hsuffix hfirst (hset c hmem)

theorem traversal_survives (hsuffix : Detached suffix) : traversal.Survives suffix := by
  refine Expr.Survives.cat (by decide) (Expr.Survives.cat (by decide) ?_)
  apply survives_notBefore hsuffix
  intro c hmem
  rw [CharSet.mem_def, CharSet.holds, Bool.or_eq_true]
  exact .inl hmem

theorem internalHost_survives (hsuffix : Detached suffix) : internalHost.Survives suffix := by
  refine Expr.Survives.cat (by decide) (Expr.Survives.cat (by decide)
    (Expr.Survives.cat (by decide) ?_))
  exact survives_notBefore hsuffix fun c hmem => hmem

theorem credentialName_survives (hsuffix : Detached suffix) :
    credentialName.Survives suffix := by
  refine Expr.Survives.cat (by decide) (Expr.Survives.cat (by decide) ?_)
  apply survives_notBefore hsuffix
  intro c hmem
  rw [CharSet.mem_def, CharSet.holds, nameChars, CharSet.holds, Bool.or_eq_true,
    Bool.or_eq_true]
  rw [CharSet.mem_def, CharSet.holds, Bool.or_eq_true] at hmem
  exact hmem.imp_left .inl

end Marker

namespace Check

/-- A check that succeeds for a pattern succeeds with the text behind it too. -/
def KeptBy (suffix : String) (check : Check) : Prop :=
  ∀ pattern, check.holds pattern (.scan pattern) →
    check.holds (pattern ++ suffix) (.scan (pattern ++ suffix))

variable {suffix : String} {e : Expr}

theorem marker_kept (hbounded : e.wellBounded) (hsurvives : e.Survives suffix.toList) :
    (marker (.ofExpr e)).KeptBy suffix := by
  intro pattern hmatch
  rw [holds] at hmatch ⊢
  rw [String.toList_append]
  exact Regex.isMatch_append hbounded hsurvives hmatch

theorem marker_kept_of_steady (hbounded : e.wellBounded) (hsteady : e.steady) :
    (marker (.ofExpr e)).KeptBy suffix :=
  marker_kept hbounded (Expr.survives_of_steady hsteady _)

/-- Emptying the groups of the longer pattern starts with what it leaves of the pattern. -/
theorem markerOutsideGroups_kept (hclose : ')' ∉ suffix.toList) (hbounded : e.wellBounded)
    (hsteady : e.steady) : (markerOutsideGroups (.ofExpr e)).KeptBy suffix := by
  intro pattern hmatch
  obtain ⟨more, hmore⟩ := emptyOutside_append pattern.toList hclose
  rw [holds] at hmatch ⊢
  rw [String.toList_append, ← hmore]
  exact Regex.isMatch_append hbounded (Expr.survives_of_steady hsteady more) hmatch

theorem markerWithGroups_kept (hbounded : e.wellBounded) (hsteady : e.steady) :
    (markerWithGroups (.ofExpr e)).KeptBy suffix := by
  intro pattern hholds
  rw [holds, Bool.and_eq_true] at hholds ⊢
  obtain ⟨hgroups, hmatch⟩ := hholds
  have hbelow := Facts.scan_below_append pattern suffix
  exact ⟨hbelow.groups hgroups, marker_kept_of_steady hbounded hsteady pattern hmatch⟩

theorem wildcards_kept (least : Nat) : (wildcards least).KeptBy suffix := by
  intro pattern hholds
  rw [holds, decide_eq_true_eq] at hholds ⊢
  have hbelow := Facts.scan_below_append pattern suffix
  exact Nat.le_trans hholds hbelow.wildcards

end Check

/-- Each rule of the table is kept by detached text. -/
theorem Rule.kept_of_mem_table {suffix : String} (hsuffix : Detached suffix.toList) :
    ∀ rule ∈ table, rule.check.KeptBy suffix := by
  simp only [table, List.forall_mem_cons]
  refine ⟨?injectedInput, ?pathTraversal, ?openRedirect, ?internalHost, ?dynamicHost,
    ?redosQuantifier, ?wildcardDanger, ?wildcardExcessive, ?wildcardLeading, ?credentialSegment,
    ?basicAuth, ?xssMarker, ?sqlInjection, ?commandInjection, List.forall_mem_nil _⟩
  -- These three look at what follows the match.
  case pathTraversal =>
      exact Check.marker_kept (by decide) (Marker.traversal_survives hsuffix)
  case internalHost =>
      exact Check.marker_kept (by decide) (Marker.internalHost_survives hsuffix)
  case credentialSegment =>
      exact Check.marker_kept (by decide) (Marker.credentialName_survives hsuffix)
  case redosQuantifier => exact Check.markerWithGroups_kept (by decide) (by decide)
  case commandInjection =>
      exact Check.markerOutsideGroups_kept hsuffix.closesNone (by decide) (by decide)
  case wildcardDanger => exact Check.wildcards_kept 1
  case wildcardExcessive => exact Check.wildcards_kept 3
  all_goals exact Check.marker_kept_of_steady (by decide) (by decide)

namespace Level

theorem one_le_rank (level : Level) : 1 ≤ level.rank := by
  cases level <;> decide

/-- A higher score has no lower level. -/
theorem ofScore_mono {lower higher : Nat} (hle : lower ≤ higher) :
    ofScore lower ≤ ofScore higher := by
  rw [le_def]
  by_cases hhigh : lower ≥ highCut
  · have hhigher : higher ≥ highCut := Nat.le_trans hhigh hle
    rw [ofScore, ofScore, if_pos hhigh, if_pos hhigher]
  · by_cases hmedium : lower ≥ mediumCut
    · have hhigher : higher ≥ mediumCut := Nat.le_trans hmedium hle
      rw [ofScore, ofScore, if_neg hhigh, if_pos hmedium, if_pos hhigher]
      split
      · decide
      · exact Nat.le_refl _
    · rw [ofScore, if_neg hhigh, if_neg hmedium]
      exact one_le_rank _

end Level

namespace Assessment

variable {rules more : List Rule}

theorem totalWeight_le_of_sublist (hsublist : rules.Sublist more) :
    totalWeight rules ≤ totalWeight more := by
  induction hsublist with
  | slnil => exact Nat.le_refl _
  | cons rule _ ih => exact Nat.le_trans ih (Nat.le_add_left _ _)
  | cons_cons rule _ ih => exact Nat.add_le_add_left ih rule.weight

/-- All rules together weigh little, so the score is the exact sum. -/
theorem toNat_score (pattern : String) (facts : Facts) :
    (ofFacts pattern facts).score.toNat = totalWeight (fired pattern facts) := by
  have hle : totalWeight (fired pattern facts) ≤ totalWeight Rule.table :=
    totalWeight_le_of_sublist List.filter_sublist
  have htable : totalWeight Rule.table < UInt32.size := by decide
  exact UInt32.toNat_ofNat_of_lt' (Nat.lt_of_le_of_lt hle htable)

/-- If every rule that fires for a pattern fires for another one, what fires for the pattern is a
selection of what fires for the other. -/
theorem fired_sublist {pattern other : String}
    (h : ∀ rule ∈ Rule.table, rule.fires pattern (.scan pattern) →
      rule.fires other (.scan other)) :
    (fired pattern (.scan pattern)).Sublist (fired other (.scan other)) := by
  have hamong : fired pattern (.scan pattern) =
      (fired other (.scan other)).filter (·.fires pattern (.scan pattern)) := by
    rw [fired, fired, List.filter_filter]
    apply List.filter_congr
    intro rule hrule
    rw [Bool.eq_self_and]
    exact h rule hrule
  rw [hamong]
  exact List.filter_sublist

theorem score_le_of_fires {pattern other : String}
    (h : ∀ rule ∈ Rule.table, rule.fires pattern (.scan pattern) →
      rule.fires other (.scan other)) :
    (ofText pattern).score ≤ (ofText other).score := by
  rw [UInt32.le_iff_toNat_le, ofText, ofText, toNat_score, toNat_score]
  exact totalWeight_le_of_sublist (fired_sublist h)

variable {suffix : String}

/-- Detached text behind a pattern never lowers its risk. Every rule that fires keeps firing,
so the score is at least what it was and the level not lower. -/
theorem risk_append (pattern : String) (hsuffix : Detached suffix.toList) :
    (∀ rule ∈ Rule.table, rule.fires pattern (.scan pattern) →
        rule.fires (pattern ++ suffix) (.scan (pattern ++ suffix))) ∧
      (ofText pattern).findings.Sublist (ofText (pattern ++ suffix)).findings ∧
      (ofText pattern).score ≤ (ofText (pattern ++ suffix)).score ∧
      (ofText pattern).level ≤ (ofText (pattern ++ suffix)).level := by
  have hkept : ∀ rule ∈ Rule.table, rule.fires pattern (.scan pattern) →
      rule.fires (pattern ++ suffix) (.scan (pattern ++ suffix)) :=
    fun rule hrule => Rule.kept_of_mem_table hsuffix rule hrule pattern
  have hfired := fired_sublist hkept
  have hweight := totalWeight_le_of_sublist hfired
  exact ⟨hkept, hfired.map _, score_le_of_fires hkept, Level.ofScore_mono hweight⟩

/-- A segment behind two dots leaves them what they are, and they count. -/
theorem segment_behind_dots_keeps_risk :
    Detached "/b".toList ∧ Rule.pathTraversal.fires ("/.." ++ "/b") (.scan ("/.." ++ "/b")) ∧
      (ofText "/..").score ≤ (ofText ("/.." ++ "/b")).score := by
  have hdetached : Detached "/b".toList := by
    refine ⟨by decide, ?_⟩
    intro c hfirst
    obtain rfl : '/' = c := Option.some.inj hfirst
    decide
  obtain ⟨hfires, _, hscore, _⟩ := risk_append "/.." hdetached
  have hmem : Rule.pathTraversal ∈ Rule.table := List.mem_cons_of_mem _ List.mem_cons_self
  exact ⟨hdetached, hfires Rule.pathTraversal hmem (by decide +kernel), hscore⟩

end Assessment

end RouteAudit.Risk
