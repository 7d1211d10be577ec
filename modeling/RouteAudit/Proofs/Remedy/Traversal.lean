import RouteAudit.Proofs.Remedy.Bounding
import RouteAudit.Proofs.Remedy.Encoding

/-! # Segments of two dots

The marker of a traversal and the encoding look for the same thing, one with a regular expression
and the other character by character (`isMatch_traversal_iff`). Where dots have been encoded there
is nothing left to find, and the steps before the encoding bring nothing in.
-/

namespace RouteAudit.Remedy

open Regex (CharSet Chain Expr Searcher)
open Risk (Marker.nameChars Marker.traversal)

/-- Whether a segment of two dots starts somewhere in a text, behind a character. -/
def hasTraversal (before : Option Char) : List Char → Bool
  | [] => false
  | c :: cs => startsSegment before && startsWithDots (c :: cs) || hasTraversal (some c) cs

section

variable {before other : Option Char} {text rest : List Char} {c : Char}

theorem hasTraversal_cons : hasTraversal before (c :: text) ↔
    (startsSegment before ∧ startsWithDots (c :: text)) ∨ hasTraversal (some c) text := by
  rw [hasTraversal, Bool.or_eq_true, Bool.and_eq_true]

theorem hasTraversal_iff : hasTraversal before text ↔ ∃ start rest, text = start ++ rest ∧
    startsSegment (start.getLast?.or before) ∧ startsWithDots rest := by
  induction text generalizing before with
  | nil =>
      constructor
      · intro h
        cases h
      · rintro ⟨start, rest, hsplit, -, hdots⟩
        obtain ⟨-, rfl⟩ := List.append_eq_nil_iff.mp hsplit.symm
        cases hdots
  | cons c text ih =>
      rw [hasTraversal_cons, ih]
      constructor
      · rintro (⟨hbefore, hdots⟩ | ⟨start, rest, rfl, hstart, hdots⟩)
        · exact ⟨[], c :: text, rfl, hbefore, hdots⟩
        · exact ⟨c :: start, rest, rfl, by simpa [List.getLast?_cons] using hstart, hdots⟩
      · rintro ⟨start, rest, hsplit, hstart, hdots⟩
        cases start with
        | nil =>
            obtain rfl := hsplit
            exact .inl ⟨hstart, hdots⟩
        | cons d start =>
            obtain ⟨rfl, rfl⟩ := List.cons.inj hsplit
            exact .inr ⟨start, rest, rfl, by simpa [List.getLast?_cons] using hstart, hdots⟩

/-! ## The marker -/

theorem not_mem_nameChars_iff : c ∈ CharSet.compl Marker.nameChars ↔ endsName (some c) := by
  rw [CharSet.mem_def, CharSet.holds, Marker.nameChars, CharSet.holds,
    Risk.Marker.holds_asciiAlphanumeric]
  simp [endsName, CharSet.holds, and_assoc]

theorem mem_single_iff {d : Char} : c ∈ CharSet.single d ↔ c = d := by
  simp [CharSet.mem_def, CharSet.single, CharSet.holds]

theorem mem_slashes_iff : c ∈ CharSet.oneOf "/\\".toList ↔ startsSegment (some c) := by
  simp [CharSet.mem_def, CharSet.holds, startsSegment]

/-- The part of the marker behind the start of a segment. -/
theorem occurs_dots_iff :
    Chain.Occurs [.one (.single '.'), .one (.single '.'), .one (.compl Marker.nameChars)] before
        text ∨
      Chain.Occurs [.one (.single '.'), .one (.single '.'), .look .textEnd] before text ↔
        startsWithDots text := by
  rw [startsWithDots_iff]
  simp only [Chain.Occurs, mem_single_iff, not_mem_nameChars_iff, and_true]
  constructor
  · rintro (⟨_, _, rfl, rfl, _, _, rfl, rfl, c, rest, rfl, hc⟩ |
      ⟨_, _, rfl, rfl, _, rest, rfl, rfl, hend⟩)
    · exact ⟨c :: rest, rfl, hc⟩
    · refine ⟨rest, rfl, ?_⟩
      have hnil : rest.head?.isNone := hend
      obtain rfl : rest = [] := by simpa using hnil
      rfl
  · rintro ⟨rest, rfl, hends⟩
    cases rest with
    | nil => exact .inr ⟨_, _, rfl, rfl, _, _, rfl, rfl, rfl⟩
    | cons c rest => exact .inl ⟨_, _, rfl, rfl, _, _, rfl, rfl, c, rest, rfl, hends⟩

/-- The marker in full: its rows differ in how the segment starts and in how the name ends. -/
theorem occurs_traversal_iff : (∃ chain ∈ Marker.traversal.chains, chain.Occurs before text) ↔
    (before.isNone ∧ startsWithDots text) ∨
      ∃ c rest, text = c :: rest ∧ startsSegment (some c) ∧ startsWithDots rest := by
  have hchains : Marker.traversal.chains =
      [[.look .textStart, .one (.single '.'), .one (.single '.'), .one (.compl Marker.nameChars)],
        [.look .textStart, .one (.single '.'), .one (.single '.'), .look .textEnd],
        [.one (.oneOf "/\\".toList), .one (.single '.'), .one (.single '.'),
          .one (.compl Marker.nameChars)],
        [.one (.oneOf "/\\".toList), .one (.single '.'), .one (.single '.'), .look .textEnd]] := rfl
  simp only [hchains, List.exists_mem_cons_iff, List.not_mem_nil, false_and, exists_false, or_false]
  constructor
  · rintro (⟨hstart, hdots⟩ | ⟨hstart, hdots⟩ | ⟨c, rest, rfl, hc, hdots⟩ |
      ⟨c, rest, rfl, hc, hdots⟩)
    · exact .inl ⟨hstart, occurs_dots_iff.mp (.inl hdots)⟩
    · exact .inl ⟨hstart, occurs_dots_iff.mp (.inr hdots)⟩
    · exact .inr ⟨c, rest, rfl, mem_slashes_iff.mp hc, occurs_dots_iff.mp (.inl hdots)⟩
    · exact .inr ⟨c, rest, rfl, mem_slashes_iff.mp hc, occurs_dots_iff.mp (.inr hdots)⟩
  · rintro (⟨hstart, hdots⟩ | ⟨c, rest, rfl, hc, hdots⟩)
    · rcases occurs_dots_iff.mpr hdots with hdots | hdots
      · exact .inl ⟨hstart, hdots⟩
      · exact .inr (.inl ⟨hstart, hdots⟩)
    · rcases occurs_dots_iff.mpr hdots with hdots | hdots
      · exact .inr (.inr (.inl ⟨c, rest, rfl, mem_slashes_iff.mpr hc, hdots⟩))
      · exact .inr (.inr (.inr ⟨c, rest, rfl, mem_slashes_iff.mpr hc, hdots⟩))

/-- The marker occurs exactly where two dots fill a segment. -/
theorem isMatch_traversal_iff (text : List Char) :
    (Searcher.ofExpr Marker.traversal).isMatch text ↔ hasTraversal none text := by
  rw [Regex.isMatch_iff_occurs (by decide) (by decide), hasTraversal_iff]
  simp only [occurs_traversal_iff, Option.or_none]
  constructor
  · rintro ⟨start, rest, rfl, ⟨hstart, hdots⟩ | ⟨c, rest, rfl, hc, hdots⟩⟩
    · refine ⟨start, rest, rfl, ?_, hdots⟩
      rw [Option.isNone_iff_eq_none] at hstart
      rw [hstart]
      rfl
    · exact ⟨start ++ [c], rest, by simp, by simpa using hc, hdots⟩
  · rintro ⟨start, rest, rfl, hstart, hdots⟩
    rcases List.eq_nil_or_concat' start with rfl | ⟨start, c, rfl⟩
    · exact ⟨[], rest, rfl, .inl ⟨rfl, hdots⟩⟩
    · exact ⟨start, c :: rest, by simp, .inr ⟨c, rest, rfl, by simpa using hstart, hdots⟩⟩

/-! ## Where dots have been encoded -/

/-- Two dots behind which dots were encoded were two dots before. -/
theorem startsWithDots_encodeFrom
    (h : startsWithDots (c :: encodeFrom false (some c) text)) : startsWithDots (c :: text) := by
  by_cases hc : c = '.'
  · subst hc
    cases text with
    | nil => exact h
    | cons d text =>
        rw [encodeFrom_cons fun h => absurd (Bool.and_eq_true_iff.mp h).1 (by decide)] at h
        obtain ⟨rest, heq, hends⟩ := startsWithDots_iff.mp h
        obtain ⟨rfl, rfl⟩ := List.cons.inj (List.cons.inj heq).2
        rw [head?_encodeFrom (by decide)] at hends
        exact startsWithDots_iff.mpr ⟨text, rfl, hends⟩
  · exact absurd h (not_startsWithDots hc _)

theorem hasTraversal_word {word : List Char} (hword : '.' ∉ word)
    (h : hasTraversal before (word ++ rest)) : hasTraversal (word.getLast?.or before) rest := by
  induction word generalizing before with
  | nil => exact h
  | cons c word ih =>
      obtain ⟨hc, hrest⟩ := not_or.mp (List.mem_cons.not.mp hword)
      rcases hasTraversal_cons.mp h with ⟨-, hdots⟩ | hbehind
      · exact absurd hdots (not_startsWithDots (Ne.symm hc) _)
      · simpa [List.getLast?_cons] using ih hrest hbehind

theorem not_hasTraversal_encodeFrom (hother : startsSegment other → startsSegment before)
    (text : List Char) : ¬ hasTraversal other (encodeFrom false before text) := by
  induction hlength : text.length using Nat.strongRecOn generalizing before other text with
  | ind length ih =>
      intro h
      cases text with
      | nil => cases h
      | cons c cs =>
          by_cases hdots : startsSegment before && startsWithDots (c :: cs)
          · rw [Bool.and_eq_true] at hdots
            obtain ⟨rest, heq, hends⟩ := startsWithDots_iff.mp hdots.2
            rw [heq, encodeFrom_segment hdots.1 hends] at h
            have hshorter : rest.length < length := by
              rw [← hlength, heq, List.length_cons, List.length_cons]
              omega
            have hbehind : hasTraversal (some 'E') (encodeFrom false (some '.') rest) :=
              hasTraversal_word (by decide) h
            exact ih rest.length hshorter (by decide) rest rfl hbehind
          · rw [encodeFrom_cons hdots] at h
            rcases hasTraversal_cons.mp h with ⟨hstart, hcdots⟩ | hbehind
            · exact hdots (Bool.and_eq_true_iff.mpr
                ⟨hother hstart, startsWithDots_encodeFrom hcdots⟩)
            · exact ih cs.length (by simp [← hlength]) id cs rfl hbehind

theorem not_hasTraversal_encodeTraversal (text : List Char) :
    ¬ hasTraversal none (encodeTraversal text) := not_hasTraversal_encodeFrom id text

/-! ## The steps before -/

/-- What a text with escaped pipes starts with: a backslash where there was a pipe. -/
theorem head?_escapePipes (depth : Nat) (text : List Char) :
    (escapePipes depth text).1.head? = text.head? ∨
      text.head? = some '|' ∧ (escapePipes depth text).1.head? = some '\\' := by
  fun_cases escapePipes depth text with
  | case1 | case2 | case3 | case5 => exact .inl rfl
  | case4 c cs _ _ hpipe =>
      rw [hpipe.1]
      exact .inr ⟨rfl, rfl⟩

theorem startsWithDots_escapePipes {depth : Nat}
    (h : startsWithDots (c :: (escapePipes depth text).1)) : startsWithDots (c :: text) := by
  obtain ⟨rest, heq, hends⟩ := startsWithDots_iff.mp h
  obtain ⟨rfl, hbehind⟩ := List.cons.inj heq
  cases text with
  | nil => cases hbehind
  | cons d text =>
      have hdot : d = '.' := by
        have hhead := head?_escapePipes depth (d :: text)
        rw [hbehind] at hhead
        simpa [eq_comm] using hhead
      subst hdot
      rw [escapePipes_plain (by decide) (fun h => absurd h.1 (by decide))] at hbehind
      obtain ⟨-, rfl⟩ := List.cons.inj hbehind
      refine startsWithDots_iff.mpr ⟨text, rfl, ?_⟩
      rcases head?_escapePipes (depthBehind depth '.') text with hhead | ⟨hhead, -⟩
      · rwa [← hhead]
      · rw [hhead]
        rfl

theorem hasTraversal_escapePipes {depth : Nat}
    (h : hasTraversal before (escapePipes depth text).1) : hasTraversal before text := by
  have hstep {depth : Nat} {before : Option Char} {c : Char} {text : List Char}
      (h : hasTraversal before (c :: (escapePipes depth text).1))
      (ih : hasTraversal (some c) (escapePipes depth text).1 → hasTraversal (some c) text) :
      hasTraversal before (c :: text) := by
    rcases hasTraversal_cons.mp h with ⟨hstart, hdots⟩ | hbehind
    · exact hasTraversal_cons.mpr (.inl ⟨hstart, startsWithDots_escapePipes hdots⟩)
    · exact hasTraversal_cons.mpr (.inr (ih hbehind))
  fun_induction escapePipes depth text generalizing before with
  | case1 => exact h
  | case2 => exact h
  | case3 depth c cs rest n hrest ih =>
      have hbehind : hasTraversal (some '\\') (c :: (escapePipes depth cs).1) := by
        rw [hrest]
        exact @hasTraversal_word before (c :: rest) ['\\'] (by decide) h
      exact hasTraversal_cons.mpr (.inr (hstep hbehind ih))
  | case4 depth c cs _ _ hpipe rest n hrest ih =>
      rw [hrest] at ih
      have hbehind : hasTraversal (some '|') rest :=
        @hasTraversal_word before rest ['\\', '|'] (by decide) h
      rw [hpipe.1]
      exact hasTraversal_cons.mpr (.inr (ih hbehind))
  | case5 depth c cs _ _ _ behind rest n hrest =>
      rename_i ih
      have hrest' : hasTraversal before (c :: (escapePipes behind cs).1) := by rwa [hrest]
      exact hstep hrest' ih

/-- Dots do not reach over a character that is none, and where there are no dots there is no
traversal. -/
theorem hasTraversal_prefix {start : List Char} (hc : c ≠ '.') (hrest : '.' ∉ rest)
    (h : hasTraversal before (start ++ c :: rest)) (behind : List Char) :
    hasTraversal before (start ++ c :: behind) := by
  induction start generalizing before with
  | nil =>
      have hword : '.' ∉ c :: rest := List.mem_cons.not.mpr (not_or.mpr ⟨Ne.symm hc, hrest⟩)
      rw [List.nil_append, ← List.append_nil (c :: rest)] at h
      cases hasTraversal_word hword h
  | cons d start ih =>
      rcases hasTraversal_cons.mp h with ⟨hstart, hdots⟩ | hbehind
      · refine hasTraversal_cons.mpr (.inl ⟨hstart, ?_⟩)
        obtain ⟨tail, heq, hends⟩ := startsWithDots_iff.mp hdots
        obtain ⟨rfl, hsecond⟩ := List.cons.inj heq
        rw [startsWithDots_iff]
        cases start with
        | nil => exact absurd (List.cons.inj hsecond).1 hc
        | cons e start =>
            obtain ⟨rfl, rfl⟩ := List.cons.inj hsecond
            refine ⟨start ++ c :: behind, rfl, ?_⟩
            cases start <;> exact hends
      · exact hasTraversal_cons.mpr (.inr (ih hbehind))

theorem hasTraversal_boundParam {head name : List Char}
    (hsplit : splitRepeatedParam? text = some (head, name))
    (h : hasTraversal before (head ++ ':' :: name ++ boundedUnion)) : hasTraversal before text := by
  obtain ⟨tail, rfl, -⟩ := splitRepeatedParam?_spec hsplit
  have hname : '.' ∉ name := fun hmem =>
    absurd ((splitRepeatedParam?_tail hsplit).1.2 '.' hmem) (by decide)
  have hunion : '.' ∉ boundedUnion := by decide
  rw [List.append_assoc, List.cons_append] at h ⊢
  have hadded : '.' ∉ name ++ boundedUnion := fun hmem =>
    (List.mem_append.mp hmem).elim hname hunion
  exact hasTraversal_prefix (by decide) hadded h _

theorem hasTraversal_boundStar {head : List Char} (hstar : withoutFinalStar? text = some head)
    (h : hasTraversal before (head ++ boundedUnion)) : hasTraversal before text := by
  obtain ⟨start, rfl, rfl⟩ := withoutFinalStar?_slash hstar
  have hunion : '.' ∉ boundedUnion := by decide
  rw [List.append_assoc] at h
  exact hasTraversal_prefix (by decide) hunion h ['*']

end

end RouteAudit.Remedy
