import RouteAudit.Proofs.Remedy.Bounding
import RouteAudit.Proofs.Remedy.Encoding
import RouteAudit.Proofs.Remedy.Expansion
import RouteAudit.Proofs.Remedy.Log

/-! # The runs of a pattern before they are expanded

Escaping pipes leaves the runs of stars of a pattern, and so does bounding a wildcard at its end:
neither the wildcard nor what stands in its place is a run, and how the text before it is cut does
not depend on what follows.
-/

namespace RouteAudit.Remedy

section

variable {text other head name body tail : List Char} {c mark : Char} {depth : Nat}

/-! ## Pipes in groups -/

theorem count_cut_escapePipes (depth : Nat) (text : List Char) (opens : Bool) (stars : Nat) :
    (cut depth opens stars (escapePipes depth text).1).count .run =
      (cut depth opens stars text).count .run := by
  fun_induction escapePipes depth text generalizing opens stars with
  | case1 | case2 => rfl
  | case3 depth c cs rest n hrest ih =>
      rw [hrest] at ih
      rw [count_cut_escaped, count_cut_escaped, ih]
  | case4 depth c cs hend hnext hpipe rest n hrest ih =>
      rw [hrest] at ih
      rw [hpipe.1, count_cut_escaped, ih, count_cut_cons (by decide)]
      rfl
  | case5 depth c cs hend hnext hpipe behind rest n hrest =>
      rename_i ih
      rw [hrest] at ih
      by_cases hstar : c = '*' ∧ depth = 0
      · obtain ⟨rfl, rfl⟩ := hstar
        exact (congrArg _ (cut_star opens stars rest)).trans
          ((ih opens (stars + 1)).trans (congrArg _ (cut_star opens stars cs)).symm)
      · have hescape := Facts.ne_escape hend hnext
        have hbehind : (cut (depthBehind depth c) (c == '/') 0 rest).count .run =
            (cut (depthBehind depth c) (c == '/') 0 cs).count .run := ih _ _
        rw [cut_plain hescape hstar, cut_plain hescape hstar, List.count_append, List.count_append,
          List.count_cons, List.count_cons, hbehind]

theorem runCount_escapePipes (text : List Char) :
    runCount (escapePipes 0 text).1 = runCount text := count_cut_escapePipes 0 text true 0

/-! ## A wildcard at the end -/

/-- Behind a character that is neither an escape nor a star the cutting starts anew. -/
theorem count_cut_congr (hescape : c ≠ '\\') (hstar : c ≠ '*')
    (h : ∀ depth, (cut depth (c == '/') 0 text).count .run =
      (cut depth (c == '/') 0 other).count .run) (start : List Char) :
    (∀ depth opens stars, (cut depth opens stars (start ++ c :: text)).count .run =
      (cut depth opens stars (start ++ c :: other)).count .run) ∧
      ∀ depth opens stars, (cut depth opens stars ('\\' :: (start ++ c :: text))).count .run =
        (cut depth opens stars ('\\' :: (start ++ c :: other))).count .run := by
  induction start with
  | nil =>
      refine ⟨fun depth opens stars => ?_, fun depth opens stars => ?_⟩
      · rw [List.nil_append, List.nil_append, cut_plain hescape fun hc => hstar hc.1,
          cut_plain hescape fun hc => hstar hc.1, List.count_append, List.count_append,
          List.count_cons, List.count_cons, h]
      · rw [List.nil_append, List.nil_append, count_cut_escaped, count_cut_escaped, h]
  | cons d start ih =>
      obtain ⟨houtside, hescaped⟩ := ih
      refine ⟨fun depth opens stars => ?_, fun depth opens stars => ?_⟩
      · by_cases hd : d = '\\'
        · rw [hd]
          exact hescaped depth opens stars
        by_cases hdstar : d = '*' ∧ depth = 0
        · obtain ⟨rfl, rfl⟩ := hdstar
          rw [List.cons_append, List.cons_append, cut_star, cut_star, houtside]
        · rw [List.cons_append, List.cons_append, cut_plain hd hdstar, cut_plain hd hdstar,
            List.count_append, List.count_append, List.count_cons, List.count_cons, houtside]
      · rw [List.cons_append, List.cons_append, count_cut_escaped, count_cut_escaped, houtside]

/-- A character that is no star makes no run, whether it is escaped or not. -/
theorem count_cut_plain (hescape : c ≠ '\\') (hstar : ¬ (c = '*' ∧ depth = 0)) (opens : Bool)
    (rest : List Char) : (cut depth opens 0 (c :: rest)).count .run =
      (cut (depthBehind depth c) (c == '/') 0 rest).count .run := by
  rw [cut_plain hescape hstar, List.count_append, count_ofStars (by simp), Nat.zero_add]
  exact count_run_chars [c] _

theorem count_cut_single (depth : Nat) (opens : Bool) (c : Char) :
    (cut depth opens 0 [c]).count .run = 0 := by
  by_cases hescape : c = '\\'
  · rw [hescape]
    rfl
  by_cases hstar : c = '*' ∧ depth = 0
  · obtain ⟨rfl, rfl⟩ := hstar
    rw [cut_star]
    exact count_ofStars (by simp)
  · rw [count_cut_plain hescape hstar]
    exact count_ofStars (by simp)

theorem count_cut_starless (h : '*' ∉ text) (depth : Nat) (opens : Bool) :
    (cut depth opens 0 text).count .run = 0 ∧
      (cut depth opens 0 ('\\' :: text)).count .run = 0 := by
  induction text generalizing depth opens with
  | nil => exact ⟨count_ofStars (by simp), count_cut_single depth opens '\\'⟩
  | cons c text ih =>
      obtain ⟨hc, htext⟩ := not_or.mp (List.mem_cons.not.mp h)
      refine ⟨?_, ?_⟩
      · by_cases hescape : c = '\\'
        · rw [hescape]
          exact (ih htext depth opens).2
        · rw [count_cut_plain hescape fun hstar => hc hstar.1.symm]
          exact (ih htext _ _).1
      · rw [count_cut_escaped]
        exact (ih htext depth _).1

/-- Inside a group stars are none, up to its end and one character behind it. -/
theorem count_cut_group (hbody : ')' ∉ body) (mark : Char) {depth : Nat} (hdepth : 0 < depth)
    (opens : Bool) : (cut depth opens 0 (body ++ [')', mark])).count .run = 0 ∧
      (cut depth opens 0 ('\\' :: (body ++ [')', mark]))).count .run = 0 := by
  induction body generalizing depth opens with
  | nil =>
      refine ⟨?_, ?_⟩
      · rw [List.nil_append, count_cut_plain (by decide) (by simp)]
        exact count_cut_single _ _ mark
      · rw [List.nil_append, count_cut_escaped]
        exact count_cut_single depth _ mark
  | cons c body ih =>
      obtain ⟨hc, hrest⟩ := not_or.mp (List.mem_cons.not.mp hbody)
      refine ⟨?_, ?_⟩
      · by_cases hescape : c = '\\'
        · rw [hescape]
          exact (ih hrest hdepth opens).2
        · rw [List.cons_append, count_cut_plain hescape fun hstar => hdepth.ne' hstar.2]
          refine (ih hrest ?_ _).1
          rw [depthBehind, if_neg (Ne.symm hc)]
          split <;> omega
      · rw [List.cons_append, count_cut_escaped]
        exact (ih hrest hdepth _).1

theorem Tail.count_cut (h : Tail mark tail) (depth : Nat) (opens : Bool) :
    (cut depth opens 0 tail).count .run = 0 := by
  cases h with
  | bare => exact count_cut_single depth opens mark
  | flat body hbody =>
      rw [List.cons_append, count_cut_plain (by decide) (by simp)]
      exact (count_cut_group hbody mark (Nat.succ_pos depth) _).1

theorem runCount_boundParam (hsplit : splitRepeatedParam? text = some (head, name)) :
    runCount (head ++ ':' :: name ++ boundedUnion) = runCount text := by
  obtain ⟨⟨-, hname⟩, mark, -, tail, htail, rfl⟩ := splitRepeatedParam?_tail hsplit
  have hquiet : ∀ c ∈ name, c ∉ "\\*()".toList := by
    intro c hc hmem
    have hmarks : ∀ d ∈ "\\*()".toList, ¬ Pattern.isNameChar d :=
      List.all_iff_forall_prop.mp (by decide)
    exact hmarks c hmem (hname c hc)
  rw [List.append_assoc, List.cons_append]
  refine (count_cut_congr (by decide) (by decide) (fun depth => ?_) head).1 0 true 0
  obtain ⟨opens, hunion⟩ := exists_count_cut_word hquiet depth false boundedUnion
  obtain ⟨opens', hend⟩ := exists_count_cut_word hquiet depth false tail
  exact (hunion.trans (count_cut_starless (by decide) depth opens).1).trans
    (hend.trans (htail.count_cut depth opens')).symm

theorem runCount_boundStar (hstar : withoutFinalStar? text = some head) :
    runCount (head ++ boundedUnion) = runCount text := by
  obtain ⟨start, rfl, rfl⟩ := withoutFinalStar?_slash hstar
  rw [List.append_assoc]
  refine (count_cut_congr (by decide) (by decide) (fun depth => ?_) start).1 0 true 0
  exact (count_cut_starless (by decide) depth _).1.trans (count_cut_single depth _ '*').symm

end

/-! ## The first two steps -/

namespace Work

variable (work : Work) (before : Risk.Assessment)

theorem escapePipes_cases : (work.escapePipes before).pattern = work.pattern ∨
    (Remedy.escapePipes 0 work.pattern).2 ≠ 0 ∧
      (work.escapePipes before).pattern = (Remedy.escapePipes 0 work.pattern).1 := by
  unfold Work.escapePipes
  split
  · exact .inl rfl
  dsimp only
  split
  · exact .inl rfl
  next hpipes => exact (work.change_pattern _ _).imp_right fun hnew => ⟨hpipes, hnew⟩

theorem runCount_escapePipes :
    runCount (work.escapePipes before).pattern = runCount work.pattern := by
  rcases work.escapePipes_cases before with hold | ⟨-, hnew⟩
  · rw [hold]
  · rw [hnew, Remedy.runCount_escapePipes]

theorem boundTrailingWildcard_cases :
    (work.boundTrailingWildcard before).pattern = work.pattern ∨
      (∃ head name, splitRepeatedParam? work.pattern = some (head, name) ∧
        (work.boundTrailingWildcard before).pattern = head ++ ':' :: name ++ boundedUnion) ∨
      ∃ head, withoutFinalStar? work.pattern = some head ∧
        (work.boundTrailingWildcard before).pattern = head ++ boundedUnion := by
  unfold Work.boundTrailingWildcard
  dsimp only
  split
  · exact .inl rfl
  split
  next head name hsplit =>
    exact (work.change_pattern _ _).imp_right fun hnew => .inl ⟨head, name, hsplit, hnew⟩
  split
  next head hstar =>
    exact (work.change_pattern _ _).imp_right fun hnew => .inr ⟨head, hstar, hnew⟩
  · exact .inl rfl

theorem runCount_boundTrailingWildcard :
    runCount (work.boundTrailingWildcard before).pattern = runCount work.pattern := by
  rcases work.boundTrailingWildcard_cases before with
    hold | ⟨head, name, hsplit, hnew⟩ | ⟨head, hstar, hnew⟩
  · rw [hold]
  · rw [hnew, runCount_boundParam hsplit]
  · rw [hnew, runCount_boundStar hstar]

end Work

end RouteAudit.Remedy
