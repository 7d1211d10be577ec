import RouteAudit.Pattern.Base
import RouteAudit.Proofs.Remedy.Weight
import RouteAudit.Text.Blank

/-! # What the repairs do to a text

Every repair goes through the text once. It keeps most characters and puts pieces of its own in
the places of others. Such a piece is solid: it can stand at either end of a pattern, starts
neither a comment nor a new line, and names no scheme with what follows it. What it replaces is
solid as well, unless a parameter at the end is bounded: all other repairs are edits both ways.
-/

namespace RouteAudit.Remedy

open Pattern (isNameChar namesScheme)
open Text (isBlank)

/-- A piece of text that can be a pattern or stand at either end of one, and that does not turn
what follows it into a comment. -/
structure Solid (piece : List Char) : Prop where
  nonempty : piece ≠ []
  first : ∀ c ∈ piece.head?, ¬ isBlank c ∧ c ≠ '#' ∧ c ≠ '/'
  last : ∀ c ∈ piece.getLast?, ¬ isBlank c
  oneLine : '\n' ∉ piece
  schemeless : ∀ rest, namesScheme (piece ++ rest) → namesScheme rest

theorem Solid.of_ends {piece : List Char} {a b : Char} (hfirst : piece.head? = some a)
    (hlast : piece.getLast? = some b) (ha : ¬ isBlank a ∧ a ≠ '#' ∧ a ≠ '/') (hb : ¬ isBlank b)
    (hline : '\n' ∉ piece) (hscheme : ∀ rest, namesScheme (piece ++ rest) → namesScheme rest) :
    Solid piece where
  nonempty hnil := by simp [hnil] at hfirst
  first c hc := by
    rw [hfirst, Option.mem_some_iff] at hc
    exact hc ▸ ha
  last c hc := by
    rw [hlast, Option.mem_some_iff] at hc
    exact hc ▸ hb
  oneLine := hline
  schemeless := hscheme

theorem namesScheme_cons {c : Char} {cs : List Char} :
    namesScheme (c :: cs) ↔ (c = ':' ∧ ∃ rest, cs = '/' :: '/' :: rest) ∨ namesScheme cs := by
  conv => enter [1]; unfold namesScheme
  split
  next rest heq =>
    obtain ⟨rfl, rfl⟩ := List.cons.inj heq
    exact iff_of_true rfl (.inl ⟨rfl, rest, rfl⟩)
  next hno heq =>
    obtain ⟨rfl, rfl⟩ := List.cons.inj heq
    refine (or_iff_right ?_).symm
    rintro ⟨rfl, rest, rfl⟩
    exact hno rest rfl rfl
  next heq => cases heq

theorem namesScheme_append_right (start : List Char) {cs : List Char} (h : namesScheme cs) :
    namesScheme (start ++ cs) := by
  induction start with
  | nil => exact h
  | cons c start ih => exact namesScheme_cons.mpr (.inr ih)

/-- A word does not begin a scheme. -/
theorem namesScheme_word {word rest : List Char} (hword : ∀ c ∈ word, isNameChar c)
    (h : namesScheme (word ++ rest)) : namesScheme rest := by
  induction word with
  | nil => exact h
  | cons c word ih =>
      obtain ⟨hc, hword⟩ := List.forall_mem_cons.mp hword
      refine (namesScheme_cons.mp h).elim ?_ (ih hword)
      rintro ⟨rfl, -⟩
      cases hc

/-- A text with solid pieces in place of some of its parts. -/
inductive Edited : List Char → List Char → Prop where
  | nil : Edited [] []
  | keep {text candidate : List Char} (c : Char) :
      Edited text candidate → Edited (c :: text) (c :: candidate)
  | put {text candidate piece : List Char} (part : List Char) :
      Solid piece → Edited text candidate → Edited (part ++ text) (piece ++ candidate)

namespace Edited

variable {text candidate piece : List Char}

protected theorem refl (text : List Char) : Edited text text := by
  induction text with
  | nil => exact .nil
  | cons c cs ih => exact .keep c ih

theorem keep_all (start : List Char) (h : Edited text candidate) :
    Edited (start ++ text) (start ++ candidate) := by
  induction start with
  | nil => exact h
  | cons c start ih => exact .keep c ih

theorem put_end (part : List Char) (h : Solid piece) : Edited part piece := by
  have hput := Edited.put part h .nil
  rwa [List.append_nil, List.append_nil] at hput

theorem eq_nil (h : Edited text []) : text = [] := by
  generalize hempty : ([] : List Char) = candidate at h
  cases h with
  | nil => rfl
  | keep c _ => cases hempty
  | put part hpiece _ => exact absurd (List.append_eq_nil_iff.mp hempty.symm).1 hpiece.nonempty

theorem newline_not_mem (h : Edited text candidate) (hline : '\n' ∉ text) : '\n' ∉ candidate := by
  induction h with
  | nil => exact hline
  | keep c _ ih =>
      obtain ⟨hc, hrest⟩ := not_or.mp fun hmem => hline (List.mem_cons.mpr hmem)
      rw [List.mem_cons, not_or]
      exact ⟨hc, ih hrest⟩
  | put part hpiece _ ih =>
      rw [List.mem_append, not_or]
      exact ⟨hpiece.oneLine, ih fun hmem => hline (List.mem_append_right part hmem)⟩

/-- The first character is the old one or starts a piece. -/
theorem first (h : Edited text candidate) {c : Char} (hc : c ∈ candidate.head?) :
    c ∈ text.head? ∨ ¬ isBlank c ∧ c ≠ '#' ∧ c ≠ '/' := by
  cases h with
  | nil => cases hc
  | keep c' _ => exact .inl hc
  | put part hpiece _ =>
      rw [List.head?_append_of_ne_nil _ hpiece.nonempty] at hc
      exact .inr (hpiece.first c hc)

/-- A slash at the start is an old one. -/
theorem behind_slash (h : Edited text ('/' :: candidate)) :
    ∃ rest, text = '/' :: rest ∧ Edited rest candidate := by
  generalize heq : '/' :: candidate = edited at h
  cases h with
  | nil => cases heq
  | keep c hrest =>
      obtain ⟨rfl, rfl⟩ := List.cons.inj heq
      exact ⟨_, rfl, hrest⟩
  | put part hpiece _ =>
      have hslash := congrArg List.head? heq
      rw [List.head?_append_of_ne_nil _ hpiece.nonempty] at hslash
      exact absurd rfl (hpiece.first '/' hslash.symm).2.2

/-- The last character is the old one or ends a piece. -/
theorem last (h : Edited text candidate) {c : Char} (hc : c ∈ candidate.getLast?) :
    c ∈ text.getLast? ∨ ¬ isBlank c := by
  induction h with
  | nil => cases hc
  | @keep text candidate c' hrest ih =>
      cases candidate with
      | nil =>
          rw [hrest.eq_nil]
          exact .inl hc
      | cons d candidate =>
          rw [List.getLast?_cons_cons] at hc
          refine (ih hc).imp_left fun hlast => ?_
          rw [List.getLast?_cons, Option.mem_def.mp hlast]
          rfl
  | @put text candidate piece part hpiece hrest ih =>
      rw [List.getLast?_append] at hc
      cases hlast : candidate.getLast? with
      | none =>
          rw [hlast, Option.none_or] at hc
          exact .inr (hpiece.last c hc)
      | some d =>
          rw [hlast, Option.some_or, Option.mem_some_iff] at hc
          subst hc
          refine (ih hlast).imp_left fun hlast' => ?_
          rw [List.getLast?_append, Option.mem_def.mp hlast']
          rfl

/-- A scheme is an old one. -/
theorem namesScheme (h : Edited text candidate) (hscheme : Pattern.namesScheme candidate) :
    Pattern.namesScheme text := by
  induction h with
  | nil => exact hscheme
  | @keep text candidate c hrest ih =>
      rw [namesScheme_cons] at hscheme ⊢
      refine hscheme.imp ?_ ih
      rintro ⟨rfl, behind, rfl⟩
      obtain ⟨first, rfl, hfirst⟩ := hrest.behind_slash
      obtain ⟨second, rfl, -⟩ := hfirst.behind_slash
      exact ⟨rfl, second, rfl⟩
  | put part hpiece _ ih =>
      exact namesScheme_append_right part (ih (hpiece.schemeless _ hscheme))

end Edited

/-! ## Pipes in groups -/

theorem solid_escapedPipe : Solid ['\\', '|'] :=
  .of_ends rfl rfl (by decide) (by decide) (by decide) fun _ => id

theorem edited_escapePipes (depth : Nat) (text : List Char) :
    Edited text (escapePipes depth text).1 := by
  fun_induction escapePipes depth text with
  | case1 depth => exact .nil
  | case2 depth => exact .refl _
  | case3 depth c cs rest n hrest ih =>
      rw [hrest] at ih
      exact .keep _ (.keep c ih)
  | case4 depth c cs _ _ hpipe rest n hrest ih =>
      rw [hrest] at ih
      exact .put [c] solid_escapedPipe ih
  | case5 depth c cs _ _ _ _ rest n hrest ih =>
      rw [hrest] at ih
      exact .keep c ih

theorem solid_pipe : Solid ['|'] :=
  .of_ends rfl rfl (by decide) (by decide) (by decide) fun _ => id

theorem edited_of_escapePipes (depth : Nat) (text : List Char) :
    Edited (escapePipes depth text).1 text := by
  fun_induction escapePipes depth text with
  | case1 depth => exact .nil
  | case2 depth => exact .refl _
  | case3 depth c cs rest n hrest ih =>
      rw [hrest] at ih
      exact .keep _ (.keep c ih)
  | case4 depth c cs _ _ hpipe rest n hrest ih =>
      rw [hrest] at ih
      rw [hpipe.1]
      exact .put ['\\', '|'] solid_pipe ih
  | case5 depth c cs _ _ _ _ rest n hrest ih =>
      rw [hrest] at ih
      exact .keep c ih

/-! ## A wildcard at the end -/

theorem solid_boundedUnion : Solid boundedUnion :=
  .of_ends rfl rfl (by decide) (by decide) (by decide) fun _ => id

theorem edited_boundParam {text head name : List Char}
    (h : splitRepeatedParam? text = some (head, name)) :
    Edited text (head ++ ':' :: name ++ boundedUnion) := by
  obtain ⟨tail, rfl, -⟩ := splitRepeatedParam?_spec h
  exact .keep_all _ (.put_end tail solid_boundedUnion)

theorem edited_boundStar {text head : List Char} (h : withoutFinalStar? text = some head) :
    Edited text (head ++ boundedUnion) := by
  rw [withoutFinalStar?_spec h]
  exact .keep_all _ (.put_end _ solid_boundedUnion)

theorem solid_stars {stars : Nat} (h : stars ≠ 0) : Solid (List.replicate stars '*') where
  nonempty hnil := h (List.replicate_eq_nil_iff _ |>.mp hnil)
  first := by
    rw [List.head?_replicate, if_neg h]
    simp [isBlank]
  last := by
    rw [List.getLast?_replicate, if_neg h]
    simp [isBlank]
  oneLine hline := absurd (List.eq_of_mem_replicate hline) (by decide)
  schemeless rest hscheme := by
    clear h
    induction stars with
    | zero => exact hscheme
    | succ stars ih => exact ih hscheme

theorem edited_of_boundStar {text head : List Char} (h : withoutFinalStar? text = some head) :
    Edited (head ++ boundedUnion) text := by
  rw [withoutFinalStar?_spec h]
  exact .keep_all _ (.put_end _ (solid_stars Nat.one_ne_zero))

/-! ## Double wildcards -/

/-- The text is what the chunks stand for, each run for two stars or more. -/
inductive Cuts : List Chunk → List Char → Prop where
  | nil : Cuts [] []
  | char {cuts : List Chunk} {text : List Char} (c : Char) :
      Cuts cuts text → Cuts (.char c :: cuts) (c :: text)
  | run {cuts : List Chunk} {text : List Char} {stars : Nat} :
      2 ≤ stars → Cuts cuts text → Cuts (.run :: cuts) (List.replicate stars '*' ++ text)

theorem Cuts.stars {cuts : List Chunk} {text : List Char} (h : Cuts cuts text) (stars : Nat)
    (opens closes : Bool) :
    Cuts (Chunk.ofStars stars opens closes ++ cuts) (List.replicate stars '*' ++ text) := by
  unfold Chunk.ofStars
  split
  next hrun =>
    rw [Bool.and_eq_true, Bool.and_eq_true, decide_eq_true_eq] at hrun
    exact h.run hrun.1.1
  next hrun =>
    clear hrun
    induction stars with
    | zero => exact h
    | succ stars ih => exact ih.char '*'

/-- Cutting loses nothing of a text, nor of the stars read before it. -/
theorem cuts_cut (depth : Nat) (opens : Bool) (stars : Nat) (text : List Char) :
    Cuts (cut depth opens stars text) (List.replicate stars '*' ++ text) := by
  fun_induction cut depth opens stars text with
  | case1 depth opens stars =>
      have hstars := Cuts.nil.stars stars opens true
      rwa [List.append_nil] at hstars
  | case2 depth opens stars => exact (Cuts.nil.char '\\').stars stars opens false
  | case3 depth opens stars c cs ih => exact ((ih.char c).char '\\').stars stars opens false
  | case4 depth opens stars c cs _ _ hstar ih =>
      rwa [hstar.1, ← List.singleton_append, ← List.append_assoc, ← List.replicate_succ']
  | case5 depth opens stars c cs _ _ _ _ ih => exact (ih.char c).stars stars opens (endsSegment c)

theorem cuts_chunks (text : List Char) : Cuts (chunks text) text := cuts_cut 0 true 0 text

theorem getLast?_optionalSegments {names : List (List Char)} (h : names ≠ []) :
    (optionalSegments names).getLast? = some '?' := by
  fun_induction optionalSegments names with
  | case1 => exact absurd rfl h
  | case2 name => rw [List.getLast?_append]; rfl
  | case3 name names hnames ih =>
      have hsome : names ≠ [] := fun hnil => hnames hnil
      rw [List.getLast?_append, List.getLast?_cons_cons, List.getLast?_cons, ih hsome]
      rfl

theorem namesScheme_optionalSegments {names : List (List Char)}
    (h : ∀ name ∈ names, ∀ c ∈ name, isNameChar c) {rest : List Char}
    (hscheme : namesScheme (optionalSegments names ++ rest)) : namesScheme rest := by
  -- A name stands behind each colon, or the question mark where the name is empty.
  have hparam {name behind : List Char} (hname : ∀ c ∈ name, isNameChar c)
      (hscheme : namesScheme (':' :: (name ++ '?' :: behind))) : namesScheme behind := by
    have hbehind : namesScheme ('?' :: behind) → namesScheme behind := id
    refine (namesScheme_cons.mp hscheme).elim ?_ (hbehind ∘ namesScheme_word hname)
    rintro ⟨-, rest, heq⟩
    cases name with
    | nil => exact absurd (List.cons.inj heq).1 (by decide)
    | cons c name =>
        obtain rfl := (List.cons.inj heq).1
        cases hname '/' List.mem_cons_self
  fun_induction optionalSegments names with
  | case1 => exact hscheme
  | case2 name =>
      refine hparam (h name List.mem_cons_self) ?_
      simpa using hscheme
  | case3 name names _ ih =>
      obtain ⟨hname, hnames⟩ := List.forall_mem_cons.mp h
      refine ih hnames (hparam hname ?_ : namesScheme ('/' :: _))
      simpa using hscheme

theorem newline_not_mem_optionalSegments {names : List (List Char)}
    (h : ∀ name ∈ names, '\n' ∉ name) : '\n' ∉ optionalSegments names := by
  fun_induction optionalSegments names with
  | case1 => exact List.not_mem_nil
  | case2 name => simp [h name List.mem_cons_self]
  | case3 name names _ ih =>
      obtain ⟨hname, hnames⟩ := List.forall_mem_cons.mp h
      simp [hname, ih hnames]

theorem solid_optionalSegments {names : List (List Char)} (hsome : names ≠ [])
    (h : ∀ name ∈ names, ∀ c ∈ name, isNameChar c) : Solid (optionalSegments names) where
  nonempty hnil := by
    have hlast := getLast?_optionalSegments hsome
    rw [hnil] at hlast
    cases hlast
  first := by
    unfold optionalSegments
    split
    · exact absurd rfl hsome
    · simp [isBlank]
    · simp [isBlank]
  last := by
    rw [getLast?_optionalSegments hsome]
    simp [isBlank]
  oneLine := newline_not_mem_optionalSegments fun name hname hnewline => by
    cases h name hname '\n' hnewline
  schemeless _ := namesScheme_optionalSegments h

theorem count_run_cons (cuts : List Chunk) :
    (Chunk.run :: cuts).count .run = cuts.count .run + 1 := List.count_cons

theorem Cuts.edited_fillRuns {cuts : List Chunk} {text : List Char} (h : Cuts cuts text)
    {names : List (List Char)} (henough : segmentsPerRun * cuts.count .run ≤ names.length)
    (hnames : ∀ name ∈ names, ∀ c ∈ name, isNameChar c) : Edited text (fillRuns names cuts) := by
  induction h generalizing names with
  | nil => exact .nil
  | char c _ ih => exact .keep c (ih henough hnames)
  | @run cuts text stars _ _ ih =>
      rw [count_run_cons, Nat.mul_succ] at henough
      have hsome : names.take segmentsPerRun ≠ [] := fun hnil => by
        have hlength := congrArg List.length hnil
        rw [List.length_take, List.length_nil, segmentsPerRun] at hlength
        rw [segmentsPerRun] at henough
        omega
      refine .put _ (solid_optionalSegments hsome ?_) (ih ?_ ?_)
      · exact fun name hname => hnames name (List.mem_of_mem_take hname)
      · rw [List.length_drop]
        omega
      · exact fun name hname => hnames name (List.mem_of_mem_drop hname)

theorem Cuts.edited_of_fillRuns {cuts : List Chunk} {text : List Char} (h : Cuts cuts text)
    (names : List (List Char)) : Edited (fillRuns names cuts) text := by
  induction h generalizing names with
  | nil => exact .nil
  | char c _ ih => exact .keep c (ih names)
  | run hstars _ ih => exact .put _ (solid_stars (Nat.ne_zero_of_lt hstars)) (ih _)

theorem edited_of_expandRuns (text : List Char) : Edited (expandRuns text) text :=
  (cuts_chunks text).edited_of_fillRuns _

theorem edited_expandRuns (text : List Char) : Edited text (expandRuns text) := by
  exact (cuts_chunks text).edited_fillRuns (length_freshNames _ _).ge
    fun _ hname _ => isNameChar_of_mem_freshNames hname

/-! ## Traversal -/

theorem solid_encodedDots : Solid "%2E%2E".toList :=
  .of_ends rfl rfl (by decide) (by decide) (by decide) fun _ => id

/-- Encoding edits the text behind the dot that the code before it has replaced. -/
theorem edited_encodeFrom (second : Bool) (before : Option Char) (text : List Char) :
    Edited (if second then text.tail else text) (encodeFrom second before text) := by
  fun_induction encodeFrom second before text with
  | case1 second before => cases second <;> exact .nil
  | case2 before c cs ih => exact ih
  | case3 second before c cs hsecond _ ih =>
      have hsplit : c :: cs = (c :: cs.take 1) ++ cs.tail := by
        rw [← List.drop_one, List.cons_append, List.take_append_drop]
      rw [if_neg hsecond, hsplit]
      exact .put _ solid_encodedDots ih
  | case4 second before c cs hsecond _ ih =>
      rw [if_neg hsecond]
      exact .keep c ih

theorem solid_dots : Solid ['.', '.'] :=
  .of_ends rfl rfl (by decide) (by decide) (by decide) fun _ => id

theorem edited_of_encodeFrom (second : Bool) (before : Option Char) (text : List Char) :
    Edited (encodeFrom second before text) (if second then text.tail else text) := by
  fun_induction encodeFrom second before text with
  | case1 second before => cases second <;> exact .nil
  | case2 before c cs ih => exact ih
  | case3 second before c cs hsecond hdots ih =>
      rw [if_neg hsecond]
      unfold startsWithDots at hdots
      split at hdots
      next heq =>
        obtain ⟨rfl, rfl⟩ := List.cons.inj heq
        exact .put _ solid_dots ih
      next => simp at hdots
  | case4 second before c cs hsecond _ ih =>
      rw [if_neg hsecond]
      exact .keep c ih

theorem edited_of_encodeTraversal (text : List Char) : Edited (encodeTraversal text) text :=
  edited_of_encodeFrom false none text

theorem edited_encodeTraversal (text : List Char) : Edited text (encodeTraversal text) :=
  edited_encodeFrom false none text

end RouteAudit.Remedy
