import Mathlib.Algebra.GroupWithZero.Nat
import Mathlib.Data.Prod.Lex
import RouteAudit.Proofs.Remedy.Names
import RouteAudit.Proofs.Risk.Scan
import RouteAudit.Proofs.Text.Span

/-! # What a repair takes away

Every repair takes something out of a pattern that no other repair puts back: a wildcard
character, a dot, or a pipe that stands open in a group. Counted in this order they are the
weight of a text, and each repair that changes a text lowers its weight. So no chain of
repairs leads back to a text that was left.
-/

namespace RouteAudit.Remedy

/-- A star, or a plus sign, which may repeat a parameter. -/
def isWild (c : Char) : Bool := c == '*' || c == '+'

/-- How many characters of a text may make wildcards. -/
def wildCount (text : List Char) : Nat := text.countP isWild

/-- How many dots a text has. -/
def dotCount (text : List Char) : Nat := text.count '.'

/-- How many pipes of a text stand in groups without a backslash. -/
def openPipes (text : List Char) : Nat := (escapePipes 0 text).2

/-- The weight of a text: its wildcard characters, then its dots, then its open pipes. -/
def weight (text : List Char) : ℕ ×ₗ ℕ ×ₗ ℕ :=
  toLex (wildCount text, toLex (dotCount text, openPipes text))

section

variable {text candidate : List Char}

theorem weight_lt_of_wild (hwild : wildCount candidate < wildCount text) :
    weight candidate < weight text := by
  rw [weight, weight, Prod.Lex.toLex_lt_toLex]
  exact .inl hwild

theorem weight_lt_of_dots (hwild : wildCount candidate ≤ wildCount text)
    (hdots : dotCount candidate < dotCount text) : weight candidate < weight text := by
  rcases Nat.lt_or_eq_of_le hwild with hless | hsame
  · exact weight_lt_of_wild hless
  · rw [weight, weight, Prod.Lex.toLex_lt_toLex, Prod.Lex.toLex_lt_toLex]
    exact .inr ⟨hsame, .inl hdots⟩

theorem weight_lt_of_pipes (hwild : wildCount candidate = wildCount text)
    (hdots : dotCount candidate = dotCount text)
    (hpipes : openPipes candidate < openPipes text) : weight candidate < weight text := by
  rw [weight, weight, Prod.Lex.toLex_lt_toLex, Prod.Lex.toLex_lt_toLex]
  exact .inr ⟨hwild, .inr ⟨hdots, hpipes⟩⟩

end

/-! ## Pipes in groups -/

/-- How many groups are open behind a character that is no escape. -/
def depthBehind (depth : Nat) (c : Char) : Nat :=
  if c = '(' then depth + 1 else if c = ')' then depth - 1 else depth

theorem escapePipes_plain {depth : Nat} {c : Char} (hescape : c ≠ '\\')
    (hpipe : ¬ (c = '|' ∧ depth > 0)) (cs : List Char) :
    escapePipes depth (c :: cs) =
      (c :: (escapePipes (depthBehind depth c) cs).1,
        (escapePipes (depthBehind depth c) cs).2) := by
  rw [escapePipes, if_neg hpipe]
  · rfl
  · exact fun hc _ => hescape hc
  · exact fun _ _ hc _ => hescape hc

/-- Escaping puts in backslashes only. -/
theorem countP_escapePipes {kind : Char → Bool} (hkind : kind '\\' = false) (depth : Nat)
    (text : List Char) : (escapePipes depth text).1.countP kind = text.countP kind := by
  fun_induction escapePipes depth text with
  | case1 depth => rfl
  | case2 depth => rfl
  | case3 depth c cs rest n hrest ih => simpa [hrest, List.countP_cons] using ih
  | case4 depth c cs _ _ hpipe rest n hrest ih =>
      simpa [hrest, List.countP_cons, hpipe.1, hkind] using ih
  | case5 depth c cs _ _ _ _ rest n hrest ih =>
      simpa [hrest, List.countP_cons] using ih

/-- What has been escaped leaves nothing to escape. -/
theorem escapePipes_escaped (depth : Nat) (text : List Char) :
    (escapePipes depth (escapePipes depth text).1).2 = 0 := by
  fun_induction escapePipes depth text with
  | case1 depth => rfl
  | case2 depth => rfl
  | case3 depth c cs rest n hrest ih =>
      rw [hrest] at ih
      exact ih
  | case4 depth c cs _ _ _ rest n hrest ih =>
      rw [hrest] at ih
      exact ih
  | case5 depth c cs hend hnext hpipe _ rest n hrest ih =>
      rw [hrest] at ih
      rw [escapePipes_plain (Facts.ne_escape hend hnext) hpipe]
      exact ih

theorem weight_escapePipes {text : List Char} (hpipes : (escapePipes 0 text).2 ≠ 0) :
    weight (escapePipes 0 text).1 < weight text := by
  apply weight_lt_of_pipes
  · exact countP_escapePipes rfl 0 text
  · exact countP_escapePipes rfl 0 text
  · rw [openPipes, escapePipes_escaped]
    exact Nat.pos_of_ne_zero hpipes

/-! ## A wildcard at the end -/

/-- What follows a group without parentheses stands at the end of the text. -/
theorem suffix_of_skipFlatGroup? {text rest : List Char} (h : skipFlatGroup? text = some rest) :
    rest <:+ text := by
  unfold skipFlatGroup? at h
  split at h
  next cs =>
    split at h
    next rest' hrest =>
      obtain rfl := Option.some.inj h
      have hdropped := List.dropWhile_suffix (l := cs) fun c => c ≠ '(' && c ≠ ')'
      rw [hrest] at hdropped
      exact (List.suffix_cons _ _).trans (hdropped.trans (List.suffix_cons _ _))
    next => cases h
  next => cases h

/-- A parameter that ends in a modifier for several segments is its name and something behind
that holds the modifier. -/
theorem repeatedName?_spec {text name : List Char} (h : repeatedName? text = some name) :
    ∃ tail, text = name ++ tail ∧ 0 < wildCount tail := by
  unfold repeatedName? at h
  cases hspan : text.span Pattern.isNameChar with
  | mk taken tail =>
  obtain ⟨rfl, -, -⟩ := Text.span_eq_iff.mp hspan
  rw [hspan] at h
  dsimp only at h
  split at h
  next hends =>
    obtain rfl := Option.some.inj h
    refine ⟨tail, rfl, ?_⟩
    rw [Bool.and_eq_true, Bool.or_eq_true, beq_iff_eq, beq_iff_eq] at hends
    -- What is left when a group is skipped ends the text, so the modifier is in it.
    have hsuffix : (skipFlatGroup? tail).getD tail <:+ tail := by
      cases hskip : skipFlatGroup? tail with
      | none => exact List.suffix_refl _
      | some rest => exact suffix_of_skipFlatGroup? hskip
    have hle := hsuffix.sublist.countP_le (p := isWild)
    rcases hends.2 with hstar | hplus
    · rw [hstar] at hle
      exact hle
    · rw [hplus] at hle
      exact hle
  next => cases h

theorem splitRepeatedParam?_spec {text head name : List Char}
    (h : splitRepeatedParam? text = some (head, name)) :
    ∃ tail, text = head ++ ':' :: name ++ tail ∧ 0 < wildCount tail := by
  fun_induction splitRepeatedParam? text generalizing head name with
  | case1 => cases h
  | case2 c cs name' hname =>
      obtain ⟨rfl, rfl⟩ := Prod.mk.inj (Option.some.inj h)
      split at hname
      next hcolon =>
        obtain ⟨tail, rfl, htail⟩ := repeatedName?_spec hname
        exact ⟨tail, by rw [hcolon]; rfl, htail⟩
      next => cases hname
  | case3 c cs _ ih =>
      obtain ⟨⟨head', name'⟩, hsplit, heq⟩ := Option.map_eq_some_iff.mp h
      obtain ⟨rfl, rfl⟩ := Prod.mk.inj heq
      obtain ⟨tail, rfl, htail⟩ := ih hsplit
      exact ⟨tail, rfl, htail⟩

theorem withoutFinalStar?_spec {text head : List Char} (h : withoutFinalStar? text = some head) :
    text = head ++ ['*'] := by
  fun_induction withoutFinalStar? text generalizing head with
  | case1 =>
      obtain rfl := Option.some.inj h
      rfl
  | case2 c cs _ ih =>
      obtain ⟨head', hhead, rfl⟩ := Option.map_eq_some_iff.mp h
      rw [ih hhead]
      rfl
  | case3 => cases h

theorem weight_boundParam {text head name : List Char}
    (h : splitRepeatedParam? text = some (head, name)) :
    weight (head ++ ':' :: name ++ boundedUnion) < weight text := by
  obtain ⟨tail, rfl, htail⟩ := splitRepeatedParam?_spec h
  apply weight_lt_of_wild
  have hunion : boundedUnion.countP isWild = 0 := by decide
  unfold wildCount at htail ⊢
  rw [List.countP_append, @List.countP_append _ _ _ tail, hunion]
  exact Nat.add_lt_add_left htail _

theorem weight_boundStar {text head : List Char} (h : withoutFinalStar? text = some head) :
    weight (head ++ boundedUnion) < weight text := by
  rw [withoutFinalStar?_spec h]
  apply weight_lt_of_wild
  have hunion : boundedUnion.countP isWild = 0 := by decide
  have hstar : ['*'].countP isWild = 1 := by decide
  unfold wildCount
  rw [List.countP_append, List.countP_append, hunion, hstar]
  exact Nat.lt_succ_self _

/-! ## Double wildcards -/

namespace Chunk

/-- How many wildcard characters a chunk stands for at least. -/
def wilds : Chunk → Nat
  | .char c => if isWild c then 1 else 0
  | .run => 2

/-- Stars stay, or make a run when there are two of them. -/
theorem sum_wilds_ofStars_le (stars : Nat) (opens closes : Bool) :
    ((ofStars stars opens closes).map wilds).sum ≤ stars := by
  unfold ofStars
  split
  next hrun =>
    rw [Bool.and_eq_true, Bool.and_eq_true, decide_eq_true_eq] at hrun
    exact hrun.1.1
  next => simp [wilds, isWild]

end Chunk

theorem wildCount_cons (c : Char) (text : List Char) :
    wildCount (c :: text) = (Chunk.char c).wilds + wildCount text := by
  rw [wildCount, List.countP_cons, Nat.add_comm]
  rfl

theorem wildCount_append (first second : List Char) :
    wildCount (first ++ second) = wildCount first + wildCount second := List.countP_append

/-- What a pattern is cut into stands for no more wildcard characters than it has. -/
theorem sum_wilds_cut_le (depth : Nat) (opens : Bool) (stars : Nat) (text : List Char) :
    ((cut depth opens stars text).map Chunk.wilds).sum ≤ stars + wildCount text := by
  fun_induction cut depth opens stars text with
  | case1 depth opens stars => exact Chunk.sum_wilds_ofStars_le stars opens true
  | case2 depth opens stars =>
      have hstars := Chunk.sum_wilds_ofStars_le stars opens false
      simp only [List.map_append, List.sum_append]
      exact Nat.add_le_add_right hstars _
  | case3 depth opens stars c cs ih =>
      have hstars := Chunk.sum_wilds_ofStars_le stars opens false
      simp only [List.map_append, List.sum_append, List.map_cons, List.sum_cons, wildCount_cons]
      omega
  | case4 depth opens stars c cs _ _ hstar ih =>
      have hwilds : (Chunk.char c).wilds = 1 := by rw [hstar.1]; rfl
      rw [wildCount_cons, hwilds, ← Nat.add_assoc]
      exact ih
  | case5 depth opens stars c cs _ _ _ _ ih =>
      have hstars := Chunk.sum_wilds_ofStars_le stars opens (endsSegment c)
      simp only [List.map_append, List.sum_append, List.map_cons, List.sum_cons, wildCount_cons]
      omega

theorem wildCount_optionalSegments {names : List (List Char)}
    (hnames : ∀ name ∈ names, wildCount name = 0) : wildCount (optionalSegments names) = 0 := by
  fun_induction optionalSegments names with
  | case1 => rfl
  | case2 name =>
      have hname := hnames name List.mem_cons_self
      rw [List.cons_append, wildCount_cons, wildCount_append, hname]
      rfl
  | case3 name names _ ih =>
      have hname := hnames name List.mem_cons_self
      have hrest := ih fun other hother => hnames other (List.mem_cons_of_mem _ hother)
      rw [List.cons_append, wildCount_cons, wildCount_append, hname, wildCount_cons, wildCount_cons,
        hrest]
      rfl

/-- Where segments with harmless names stand for the runs, both wildcards of each are gone. -/
theorem wildCount_fillRuns {names : List (List Char)}
    (hnames : ∀ name ∈ names, wildCount name = 0) (cuts : List Chunk) :
    wildCount (fillRuns names cuts) + 2 * cuts.count .run = (cuts.map Chunk.wilds).sum := by
  fun_induction fillRuns names cuts with
  | case1 => rfl
  | case2 names c rest ih =>
      have hrest := ih hnames
      have hother : (Chunk.char c == Chunk.run) = false := rfl
      rw [List.count_cons, hother, wildCount_cons, List.map_cons, List.sum_cons, ← hrest]
      exact Nat.add_assoc _ _ _
  | case3 names rest ih =>
      have hsegments := wildCount_optionalSegments
        fun name hname => hnames name (List.mem_of_mem_take (i := segmentsPerRun) hname)
      have hrest := ih fun name hname => hnames name (List.mem_of_mem_drop hname)
      have hrun : (Chunk.run == Chunk.run) = true := rfl
      have hwilds : Chunk.run.wilds = 2 := rfl
      rw [List.count_cons, hrun, wildCount_append, hsegments, List.map_cons, List.sum_cons, ← hrest,
        hwilds, if_pos rfl]
      omega

theorem wildCount_of_mem_freshNames {taken : List (List Char)} {n : Nat} {name : List Char}
    (h : name ∈ freshNames taken n) : wildCount name = 0 := by
  rw [wildCount, List.countP_eq_zero]
  intro c hc hwild
  have hchar := isNameChar_of_mem_freshNames h hc
  rw [isWild, Bool.or_eq_true, beq_iff_eq, beq_iff_eq] at hwild
  rcases hwild with rfl | rfl <;> cases hchar

theorem weight_expandRuns {text : List Char} (hruns : runCount text ≠ 0) :
    weight (expandRuns text) < weight text := by
  apply weight_lt_of_wild
  have hfilled : wildCount (expandRuns text) + 2 * runCount text =
      ((chunks text).map Chunk.wilds).sum :=
    wildCount_fillRuns (fun _ hname => wildCount_of_mem_freshNames hname) (chunks text)
  have hcut := sum_wilds_cut_le 0 true 0 text
  rw [← chunks] at hcut
  omega

/-! ## Traversal -/

/-- Encoding puts in no character but those that write a dot. -/
theorem countP_encodeFrom_le {kind : Char → Bool} (hkind : "%2E%2E".toList.countP kind = 0)
    (second : Bool) (before : Option Char) (text : List Char) :
    (encodeFrom second before text).countP kind ≤ text.countP kind := by
  fun_induction encodeFrom second before text with
  | case1 => exact Nat.le_refl _
  | case2 before c cs ih => exact ih.trans ((List.sublist_cons_self c cs).countP_le)
  | case3 _ before c cs _ _ ih =>
      rw [List.countP_append, hkind, Nat.zero_add]
      exact ih.trans ((List.sublist_cons_self c cs).countP_le)
  | case4 _ before c cs _ _ ih =>
      rw [List.countP_cons, List.countP_cons]
      exact Nat.add_le_add_right ih _

theorem dot_of_startsWithDots {c : Char} {cs : List Char} (h : startsWithDots (c :: cs)) :
    c = '.' := by
  unfold startsWithDots at h
  split at h
  next heq => exact (List.cons.inj heq).1
  next => cases h

/-- Encoding leaves the text as it is, or takes dots away. -/
theorem encodeFrom_eq_or_fewer (before : Option Char) (text : List Char) :
    encodeFrom false before text = text ∨
      dotCount (encodeFrom false before text) < dotCount text := by
  induction text generalizing before with
  | nil => exact .inl rfl
  | cons c cs ih =>
      unfold encodeFrom
      split
      next hsecond => cases hsecond
      next =>
        split
        next hdots =>
          rw [Bool.and_eq_true] at hdots
          obtain rfl := dot_of_startsWithDots hdots.2
          have hle : dotCount (encodeFrom true (some '.') cs) ≤ dotCount cs :=
            countP_encodeFrom_le (by decide) true (some '.') cs
          have hcode : "%2E%2E".toList.count '.' = 0 := by decide
          refine .inr ?_
          rw [dotCount, List.count_append, hcode, Nat.zero_add, dotCount, List.count_cons_self]
          exact Nat.lt_succ_of_le hle
        next =>
          rcases ih (some c) with hsame | hfewer
          · exact .inl (congrArg (c :: ·) hsame)
          · refine .inr ?_
            rw [dotCount, dotCount, List.count_cons, List.count_cons]
            exact Nat.add_lt_add_right hfewer _

theorem weight_encodeTraversal {text : List Char} (hchanged : encodeTraversal text ≠ text) :
    weight (encodeTraversal text) < weight text := by
  apply weight_lt_of_dots
  · exact countP_encodeFrom_le (by decide) false none text
  · exact (encodeFrom_eq_or_fewer none text).resolve_left hchanged

end RouteAudit.Remedy
