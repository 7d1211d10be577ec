import RouteAudit.Proofs.Remedy.RunCount
import RouteAudit.Proofs.Remedy.Targets

/-! # Remediation settles

One pass removes double wildcards and segments of dots for good, so from the second pass on only
two steps are left that may change a text. Each of them blocks itself: a text with an escaped pipe
gets no other one, and a group at the end is no wildcard. A third pass has nothing left to do, and
so has every later one (`fixed_settles`).
-/

namespace RouteAudit.Remedy

open Pattern (isNameStart)
open Risk (Assessment Rule)
open Facts (scanOutside scanInside)

/-! ## What blocks a step -/

theorem hasEscapedPipe_cons (c : Char) {text : List Char} (h : hasEscapedPipe text) :
    hasEscapedPipe (c :: text) := by
  unfold hasEscapedPipe
  split
  next => rfl
  next heq =>
    obtain ⟨-, rfl⟩ := List.cons.inj heq
    exact h
  next heq => cases heq

/-- Where a pipe was escaped there is an escaped pipe. -/
theorem hasEscapedPipe_escapePipes {depth : Nat} {text : List Char}
    (hpipes : (escapePipes depth text).2 ≠ 0) : hasEscapedPipe (escapePipes depth text).1 := by
  fun_induction escapePipes depth text with
  | case1 | case2 => exact absurd rfl hpipes
  | case3 depth c cs rest n hrest ih =>
      rw [hrest] at ih
      exact hasEscapedPipe_cons _ (hasEscapedPipe_cons _ (ih hpipes))
  | case4 => rfl
  | case5 depth c cs _ _ _ behind rest n hrest =>
      rename_i ih
      rw [hrest] at ih
      exact hasEscapedPipe_cons _ (ih hpipes)

/-- Backslashes are put before pipes, so none is put at the end. -/
theorem getLast?_escapePipes (depth : Nat) (text : List Char) :
    (escapePipes depth text).1.getLast? = text.getLast? := by
  fun_induction escapePipes depth text with
  | case1 | case2 => rfl
  | case3 depth c cs rest n hrest ih =>
      rw [hrest] at ih
      simp only [List.getLast?_cons, ih]
  | case4 depth c cs _ _ hpipe rest n hrest ih =>
      rw [hrest] at ih
      simp only [List.getLast?_cons, ih, hpipe.1, Option.getD_some]
  | case5 depth c cs _ _ _ behind rest n hrest =>
      rename_i ih
      rw [hrest] at ih
      simp only [List.getLast?_cons, ih]

/-- A text that ends with a group ends with no wildcard. -/
theorem splitRepeatedParam?_of_group {text : List Char} (h : text.getLast? = some ')') :
    splitRepeatedParam? text = none := by
  by_contra hsome
  obtain ⟨⟨head, name⟩, hsplit⟩ := Option.ne_none_iff_exists'.mp hsome
  obtain ⟨-, mark, hmark, tail, htail, rfl⟩ := splitRepeatedParam?_tail hsplit
  have hlast : tail.getLast? = some mark := by
    cases htail with
    | bare => rfl
    | flat body => simp [List.getLast?_cons]
  have hclose : some mark = some ')' := by
    rw [← h, List.getLast?_append, List.getLast?_cons, List.getLast?_append, hlast]
    rfl
  obtain rfl := Option.some.inj hclose
  exact absurd hmark (by decide)

theorem withoutFinalStar?_of_group {text : List Char} (h : text.getLast? = some ')') :
    withoutFinalStar? text = none := by
  by_contra hsome
  obtain ⟨head, hstar⟩ := Option.ne_none_iff_exists'.mp hsome
  rw [withoutFinalStar?_spec hstar, List.getLast?_concat] at h
  exact absurd h (by decide)

/-! ## Escaped pipes do not show in the facts -/

theorem any_head?_escapePipes (depth : Nat) (text : List Char) :
    (escapePipes depth text).1.head?.any isNameStart = text.head?.any isNameStart := by
  rcases head?_escapePipes depth text with hhead | ⟨hpipe, hescape⟩
  · rw [hhead]
  · rw [hpipe, hescape]
    decide

/-- A pipe counts nowhere, and a backslash before it changes nothing. -/
theorem scan_escapePipes :
    (∀ facts preceding text,
      scanOutside facts preceding (escapePipes 0 text).1 = scanOutside facts preceding text) ∧
      ∀ facts onParameter depth text,
        scanInside facts onParameter depth (escapePipes (depth + 1) text).1 =
          scanInside facts onParameter depth text := by
  apply RouteAudit.Facts.scanOutside.mutual_induct
    (fun facts preceding text =>
      scanOutside facts preceding (escapePipes 0 text).1 = scanOutside facts preceding text)
    (fun facts onParameter depth text =>
      scanInside facts onParameter depth (escapePipes (depth + 1) text).1 =
        scanInside facts onParameter depth text)
  -- Outside of groups no pipe is escaped.
  · intro facts preceding
    rfl
  · intro facts preceding
    rfl
  · intro facts preceding c text ih
    exact ih
  · intro facts preceding text ih
    exact ih
  · intro facts preceding text ih
    exact ih
  · intro facts preceding text ih
    exact ih
  · intro facts preceding text ih
    rw [escapePipes_plain (by decide) (by decide), scanOutside, scanOutside,
      any_head?_escapePipes]
    exact ih
  · intro facts preceding c text hend hnext hgroup hstar hplus hcolon ih
    have hescape := Facts.ne_escape hend hnext
    rw [escapePipes_plain hescape (by simp)]
    by_cases hclose : c = ')'
    · subst hclose
      exact ih
    · rw [depthBehind, if_neg hgroup, if_neg hclose,
        Facts.scanOutside_plain hescape hgroup hstar hplus hcolon, ih,
        Facts.scanOutside_plain hescape hgroup hstar hplus hcolon]
  -- Inside a group.
  · intro facts onParameter depth
    rfl
  · intro facts onParameter depth
    rfl
  · intro facts onParameter depth c text ih
    exact ih
  · intro facts onParameter depth text ih
    exact ih
  · intro facts onParameter text ih
    exact ih
  · intro facts onParameter text depth ih
    exact ih
  · intro facts onParameter depth c text hend hnext hopen hclose ih
    have hescape := Facts.ne_escape hend hnext
    rw [Facts.scanInside_plain hescape hopen hclose]
    by_cases hpipe : c = '|'
    · subst hpipe
      exact ih
    · rw [escapePipes_plain hescape fun h => hpipe h.1, depthBehind, if_neg hopen, if_neg hclose,
        Facts.scanInside_plain hescape hopen hclose, ih]

theorem scan_escaped (text : List Char) :
    Facts.scan (String.ofList (escapePipes 0 text).1) = Facts.scan (String.ofList text) := by
  rw [Facts.scan, Facts.scan, String.toList_ofList, String.toList_ofList]
  exact scan_escapePipes.1 {} .plain text

/-! ## Rules that fired -/

theorem hasRule_iff_fires {pattern : String} {rule : Rule} (hrule : rule ∈ Rule.table) :
    (Assessment.ofText pattern).hasRule rule ↔ rule.fires pattern (.scan pattern) := by
  refine ⟨fun h => ?_, hasRule_of_fires hrule⟩
  obtain ⟨finding, hfinding, hid⟩ := List.any_eq_true.mp h
  obtain ⟨other, hother, rfl⟩ := List.mem_map.mp hfinding
  obtain ⟨htable, hfires⟩ := List.mem_filter.mp hother
  have hdistinct : (Rule.table.map Rule.id).Nodup := by decide
  obtain rfl := List.inj_on_of_nodup_map hdistinct htable hrule (beq_iff_eq.mp hid)
  exact hfires

/-! ## The first two steps -/

section

variable {work other : Work} {before after : Assessment}

/-- Where the first step changes the text, a pipe is escaped behind it. -/
theorem Work.hasEscapedPipe_escapePipes (work : Work) (before : Assessment) :
    (work.escapePipes before).pattern = work.pattern ∨
      (work.escapePipes before).pattern = (Remedy.escapePipes 0 work.pattern).1 ∧
        hasEscapedPipe (work.escapePipes before).pattern := by
  rcases work.escapePipes_cases before with hold | ⟨hpipes, hnew⟩
  · exact .inl hold
  · refine .inr ⟨hnew, ?_⟩
    rw [hnew]
    exact Remedy.hasEscapedPipe_escapePipes hpipes

/-- Only the group that bounds a wildcard is put at the end. -/
theorem Work.boundTrailingWildcard_group (work : Work) (before : Assessment) :
    (work.boundTrailingWildcard before).pattern = work.pattern ∨
      (work.boundTrailingWildcard before).pattern.getLast? = some ')' := by
  have hunion (start : List Char) : (start ++ boundedUnion).getLast? = some ')' := by
    rw [List.getLast?_append]
    rfl
  rcases work.boundTrailingWildcard_cases before with
    hold | ⟨head, name, -, hnew⟩ | ⟨head, -, hnew⟩
  · exact .inl hold
  · rw [hnew]
    exact .inr (hunion _)
  · rw [hnew]
    exact .inr (hunion _)

/-- What the second step does depends on the text and on whether there is a wildcard. -/
theorem Work.boundTrailingWildcard_congr
    (hpattern : work.pattern = other.pattern) (hscore : work.score = other.score)
    (hrule : before.hasRule Rule.wildcardDanger = after.hasRule Rule.wildcardDanger) :
    (work.boundTrailingWildcard before).pattern = (other.boundTrailingWildcard after).pattern := by
  have hchange (candidate : List Char) (description : String) :
      (work.change candidate description).pattern =
        (other.change candidate description).pattern := by
    unfold Work.change
    rw [hpattern, hscore]
    split
    · exact hpattern
    · dsimp only
      split
      · exact hpattern
      · rfl
  unfold Work.boundTrailingWildcard
  dsimp only
  rw [hrule, hpattern]
  split
  · exact hpattern
  split
  · exact hchange _ _
  split
  · exact hchange _ _
  · exact hpattern

end

/-! ## The steps of a pass -/

section

variable (text : List Char)

/-- The assessment that a pass over a text goes by. -/
def assessed : Assessment := .ofText (String.ofList text)

/-- The work of a pass behind the first step. -/
def piped : Work := (Work.start (assessed text)).escapePipes (assessed text)

/-- The work of a pass behind the second step. -/
def bounded : Work := (piped text).boundTrailingWildcard (assessed text)

/-- The text that a pass leaves. -/
def pass : List Char := (Work.finish (assessed text)).pattern

theorem start_pattern : (Work.start (assessed text)).pattern = text := String.toList_ofList

theorem start_faithful : (Work.start (assessed text)).Faithful text := by
  have h := Work.faithful_start (String.ofList text)
  rwa [String.toList_ofList] at h

theorem piped_faithful : (piped text).Faithful text := (start_faithful text).escapePipes _

theorem bounded_faithful : (bounded text).Faithful text :=
  (piped_faithful text).boundTrailingWildcard _

/-- Behind the second step nothing is discarded any more. -/
theorem pass_eq : pass text =
    if (assessed text).hasRule Rule.pathTraversal then
      encodeTraversal (expandRuns (bounded text).pattern)
    else expandRuns (bounded text).pattern := by
  have hfaithful := bounded_faithful text
  have hnoted : (bounded text).expandDoubleWildcards.noteSensitiveSegments.pattern =
      expandRuns (bounded text).pattern := by
    rw [Work.noteSensitiveSegments_pattern, Work.expandDoubleWildcards_pattern hfaithful.scored]
  have hpass : pass text = ((bounded text).expandDoubleWildcards.noteSensitiveSegments
      |>.encodeTraversal (assessed text)).pattern := Work.noteCredentials_pattern _ _
  rw [hpass]
  split
  next hrule =>
    rw [Work.encodeTraversal_pattern hfaithful.expandDoubleWildcards.noteSensitiveSegments.scored
      hrule, hnoted]
  next hrule => rw [Work.encodeTraversal, if_neg hrule, hnoted]

/-- The first step leaves the text, or there is an escaped pipe behind it. -/
theorem piped_cases : (piped text).pattern = text ∨
    (piped text).pattern = (escapePipes 0 text).1 ∧ hasEscapedPipe (piped text).pattern := by
  have hcases := (Work.start (assessed text)).hasEscapedPipe_escapePipes (assessed text)
  rwa [start_pattern] at hcases

theorem getLast?_piped : (piped text).pattern.getLast? = text.getLast? := by
  rcases piped_cases text with hold | ⟨hnew, -⟩
  · rw [hold]
  · rw [hnew, getLast?_escapePipes]

/-- The first step brings no rule about wildcards in and takes none away. -/
theorem scan_piped :
    Facts.scan (String.ofList (piped text).pattern) = Facts.scan (String.ofList text) := by
  rcases piped_cases text with hold | ⟨hnew, -⟩
  · rw [hold]
  · rw [hnew, scan_escaped]

/-- The second step leaves the text, or there is a group at its end. -/
theorem bounded_cases : (bounded text).pattern = (piped text).pattern ∨
    (bounded text).pattern.getLast? = some ')' :=
  (piped text).boundTrailingWildcard_group (assessed text)

theorem runCount_bounded : runCount (bounded text).pattern = runCount text := by
  rw [bounded, Work.runCount_boundTrailingWildcard, piped, Work.runCount_escapePipes, start_pattern]

end

variable {text : List Char}

/-- A text with an escaped pipe gets no other one. -/
theorem piped_of_escaped (h : hasEscapedPipe text) : (piped text).pattern = text := by
  unfold piped Work.escapePipes
  rw [start_pattern, h, Bool.or_true, if_pos rfl, start_pattern]

/-- A group at the end is left alone. -/
theorem bounded_of_group (h : text.getLast? = some ')') :
    (bounded text).pattern = (piped text).pattern := by
  have hlast : (piped text).pattern.getLast? = some ')' := (getLast?_piped text).trans h
  unfold bounded Work.boundTrailingWildcard
  dsimp only
  rw [splitRepeatedParam?_of_group hlast, withoutFinalStar?_of_group hlast, ite_self]

/-- Where only pipes were escaped, the next pass leaves the text: the wildcard that it finds at the
end is the one that the pass before has left. -/
theorem bounded_of_escaped (hpiped : hasEscapedPipe (piped text).pattern)
    (hbounded : (bounded text).pattern = (piped text).pattern) :
    (bounded (piped text).pattern).pattern = (piped text).pattern := by
  have hpattern := piped_of_escaped hpiped
  have hscore : (piped (piped text).pattern).score = (piped text).score := by
    rw [(piped_faithful _).scored, (piped_faithful text).scored, hpattern]
  have hwild : (assessed (piped text).pattern).hasRule Rule.wildcardDanger =
      (assessed text).hasRule Rule.wildcardDanger := by
    have htable : Rule.wildcardDanger ∈ Rule.table := by simp [Rule.table]
    have hfires (pattern : String) (facts : Facts) :
        Rule.wildcardDanger.fires pattern facts = decide (facts.wildcards ≥ 1) := rfl
    rw [Bool.eq_iff_iff, assessed, assessed, hasRule_iff_fires htable, hasRule_iff_fires htable,
      hfires, hfires, scan_piped]
  rw [bounded] at hbounded ⊢
  rw [Work.boundTrailingWildcard_congr hpattern hscore hwild, hbounded]

/-- The first two steps settle at the second pass. -/
theorem bounded_settles (text : List Char) :
    (bounded (bounded (bounded text).pattern).pattern).pattern =
      (bounded (bounded text).pattern).pattern := by
  rcases bounded_cases text with hpiped | hgroup
  · rcases piped_cases text with hsame | ⟨-, hescaped⟩
    · rw [hpiped, hsame, hpiped, hsame, hpiped, hsame]
    · have hsettled := bounded_of_escaped hescaped hpiped
      rw [hpiped, hsettled, hsettled]
  · -- A group stands at the end now, whether or not pipes are escaped in it.
    have hnext := bounded_of_group hgroup
    rw [hnext]
    rcases piped_cases (bounded text).pattern with hsame | ⟨-, hescaped⟩
    · rw [hsame, hnext, hsame]
    · have hlast := (getLast?_piped (bounded text).pattern).trans hgroup
      rw [bounded_of_group hlast, piped_of_escaped hescaped]

/-! ## Texts that a pass leaves -/

/-- Neither a double wildcard nor a segment of dots is left. -/
structure Clean (text : List Char) : Prop where
  runs : runCount text = 0
  dots : ¬ hasTraversal none text

theorem hasRule_traversal_iff : (assessed text).hasRule Rule.pathTraversal ↔
    hasTraversal none text := by
  have htable : Rule.pathTraversal ∈ Rule.table := by simp [Rule.table]
  rw [assessed, hasRule_iff_fires htable, ← isMatch_traversal_iff]
  have hfires : Rule.pathTraversal.fires (String.ofList text) (.scan (String.ofList text)) =
      (Regex.Searcher.ofExpr Risk.Marker.traversal).isMatch (String.ofList text).toList := rfl
  rw [hfires, String.toList_ofList]

theorem dots_bounded (h : ¬ hasTraversal none text) :
    ¬ hasTraversal none (bounded text).pattern := by
  intro hdots
  have hstart := Work.hasTraversal_escapePipes (Work.hasTraversal_boundTrailingWildcard hdots)
  rw [start_pattern] at hstart
  exact h hstart

/-- A pass removes both for good. -/
theorem clean_pass (text : List Char) : Clean (pass text) := by
  rw [pass_eq]
  split
  next =>
    refine ⟨?_, not_hasTraversal_encodeTraversal _⟩
    rw [runCount_encodeTraversal, runCount_expandRuns]
  next hrule =>
    have hdots : ¬ hasTraversal none text := fun h => hrule (hasRule_traversal_iff.mpr h)
    exact ⟨runCount_expandRuns _, fun h => dots_bounded hdots (hasTraversal_expandRuns h)⟩

/-- In a clean text the first two steps are all there is. -/
theorem Clean.pass_eq (h : Clean text) : pass text = (bounded text).pattern := by
  have hrule : ¬ (assessed text).hasRule Rule.pathTraversal :=
    fun hrule => h.dots (hasRule_traversal_iff.mp hrule)
  have hruns : runCount (bounded text).pattern = 0 := (runCount_bounded text).trans h.runs
  rw [Remedy.pass_eq, if_neg hrule, expandRuns_eq_self hruns]

/-! ## Main result -/

theorem pass_settles (text : List Char) :
    pass (pass (pass (pass text))) = pass (pass (pass text)) := by
  have hfirst := clean_pass text
  have hsecond := clean_pass (pass text)
  have hthird := clean_pass (pass (pass text))
  rw [hthird.pass_eq, hsecond.pass_eq, hfirst.pass_eq, bounded_settles]

theorem toList_fixed (pattern : String) :
    (remediate pattern).fixed.toList = pass pattern.toList := by
  rw [pass, assessed, String.ofList_toList]
  exact String.toList_ofList

/-- The third pass over a pattern leaves a text that remediation leaves alone, so no later pass
changes it, and repairing what was repaired never goes in a circle. -/
theorem fixed_settles (pattern : String) :
    (remediate (remediate (remediate (remediate pattern).fixed).fixed).fixed).fixed =
        (remediate (remediate (remediate pattern).fixed).fixed).fixed ∧
      ∀ n, (fun text => (remediate text).fixed)^[n + 3] pattern =
        (remediate (remediate (remediate pattern).fixed).fixed).fixed := by
  have hfourth : (remediate (remediate (remediate (remediate pattern).fixed).fixed).fixed).fixed =
      (remediate (remediate (remediate pattern).fixed).fixed).fixed := by
    apply String.toList_injective
    simp only [toList_fixed]
    exact pass_settles pattern.toList
  refine ⟨hfourth, fun n => ?_⟩
  have hthird : (fun text => (remediate text).fixed)^[3] pattern =
      (remediate (remediate (remediate pattern).fixed).fixed).fixed := rfl
  rw [Function.iterate_add_apply, hthird]
  exact Function.iterate_fixed hfourth n

end RouteAudit.Remedy
