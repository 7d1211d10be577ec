import Mathlib.Data.Bool.AllAny
import RouteAudit.Proofs.Pattern.Facts
import RouteAudit.Proofs.Remedy.Items
import RouteAudit.Proofs.Risk.Patches

/-! # Expanded double wildcards

Optional segments in the place of a double wildcard patch a pattern: of each piece it is known that
it consists of made-up names, colons, question marks and slashes. So no rule fires anew, and no run
is left.
-/

namespace RouteAudit.Remedy

open Pattern (isNameChar isNameStart)
open Regex (Foresight Patch)
open Risk (Flat Seamless markers)
open Facts (scanOutside)

/-! ## Pieces -/

/-- The digits that names are numbered with. -/
def digits : List Char := "0123456789".toList

theorem mem_digits {c : Char} (h : c.isDigit) : c ∈ digits := by
  rw [Char.isDigit, Bool.and_eq_true, decide_eq_true_eq, decide_eq_true_eq] at h
  have hall : ∀ code ∈ List.range' 48 10, Char.ofNat code ∈ digits := by decide
  have hcode : c.toNat ∈ List.range' 48 10 :=
    List.mem_range'_1.mpr ⟨h.1, Nat.lt_succ_of_le h.2⟩
  have hmem := hall c.toNat hcode
  rwa [Char.ofNat_toNat] at hmem

/-- A made-up name is a word and some digits. -/
theorem numberedName_eq (i : Nat) :
    ∃ number : List Char, (∀ c ∈ number, c ∈ digits) ∧
      numberedName i = 's' :: 'e' :: 'g' :: number := by
  refine ⟨(toString (i + 1)).toList, ?_, rfl⟩
  intro c hc
  rw [Nat.toString_eq_ofList_toDigits, String.toList_ofList] at hc
  exact mem_digits (Nat.isDigit_of_mem_toDigits (by decide) (by decide) hc)

/-- Names that are made up. -/
def Numbered (names : List (List Char)) : Prop := ∀ name ∈ names, ∃ i, name = numberedName i

section

variable {names : List (List Char)} {rest : List Char}

theorem optionalSegments_cons (name : List Char) (names : List (List Char)) :
    ∃ more, optionalSegments (name :: names) = ':' :: (name ++ '?' :: more) ∧
      (names = [] ∧ more = [] ∨ names ≠ [] ∧ more = '/' :: optionalSegments names) := by
  cases names with
  | nil => exact ⟨[], rfl, .inl ⟨rfl, rfl⟩⟩
  | cons other names =>
      refine ⟨'/' :: optionalSegments (other :: names), ?_, .inr ⟨List.cons_ne_nil _ _, rfl⟩⟩
      rw [optionalSegments]
      · rfl
      · exact List.cons_ne_nil other names

/-- What may follow inside of a piece. -/
def insideSegments : List Foresight :=
  [[[':'], ['s'], ['e'], ['g']], [['s'], ['e'], ['g']], [['e']], [['g']], [digits, '?' :: digits],
    [['?'], ['/', '?', '#']], [['/'], [':']]]

/-- The text goes on as it may inside of a piece. -/
def IsInside (text : List Char) : Prop := ∃ known ∈ insideSegments, known.Fits text

theorem fits_closing (hrest : ∀ c ∈ rest.head?, endsSegment c) :
    Foresight.Fits [['/', '?', '#']] rest := by
  cases rest with
  | nil => trivial
  | cons c rest =>
      have hc : endsSegment c := hrest c rfl
      refine ⟨?_, trivial⟩
      simpa [endsSegment, or_assoc] using hc

theorem isInside_number {number more text : List Char} (hnumber : ∀ c ∈ number, c ∈ digits)
    (hsuffix : text <:+ number ++ '?' :: more) (rest : List Char) :
    IsInside (text ++ rest) ∨ text <:+ '?' :: more := by
  induction number with
  | nil => exact .inr hsuffix
  | cons c number ih =>
      obtain ⟨hc, hnumber⟩ := List.forall_mem_cons.mp hnumber
      rcases List.suffix_cons_iff.mp hsuffix with rfl | hsuffix
      · refine .inl ⟨[digits, '?' :: digits], by simp [insideSegments], hc, ?_⟩
        cases number with
        | nil => exact ⟨List.mem_cons_self, trivial⟩
        | cons d number => exact ⟨List.mem_cons_of_mem _ (hnumber d List.mem_cons_self), trivial⟩
      · exact ih hnumber hsuffix

theorem isInside_of_suffix (hnames : Numbered names) {text : List Char}
    (hsuffix : text <:+ optionalSegments names) (htext : text ≠ [])
    (hrest : ∀ c ∈ rest.head?, endsSegment c) : IsInside (text ++ rest) := by
  induction names with
  | nil => exact absurd (List.suffix_nil.mp hsuffix) htext
  | cons name names ih =>
      obtain ⟨⟨i, rfl⟩, hothers⟩ := List.forall_mem_cons.mp hnames
      obtain ⟨number, hnumber, hname⟩ := numberedName_eq i
      obtain ⟨more, heq, hmore⟩ := optionalSegments_cons (numberedName i) names
      rw [heq, hname] at hsuffix
      simp only [List.cons_append] at hsuffix
      rcases List.suffix_cons_iff.mp hsuffix with rfl | hsuffix
      · exact ⟨[[':'], ['s'], ['e'], ['g']], by simp [insideSegments], by simp [Foresight.Fits]⟩
      rcases List.suffix_cons_iff.mp hsuffix with rfl | hsuffix
      · exact ⟨[['s'], ['e'], ['g']], by simp [insideSegments], by simp [Foresight.Fits]⟩
      rcases List.suffix_cons_iff.mp hsuffix with rfl | hsuffix
      · exact ⟨[['e']], by simp [insideSegments], by simp [Foresight.Fits]⟩
      rcases List.suffix_cons_iff.mp hsuffix with rfl | hsuffix
      · exact ⟨[['g']], by simp [insideSegments], by simp [Foresight.Fits]⟩
      rcases isInside_number hnumber hsuffix rest with hinside | hsuffix
      · exact hinside
      rcases List.suffix_cons_iff.mp hsuffix with rfl | hsuffix
      · refine ⟨[['?'], ['/', '?', '#']], by simp [insideSegments], List.mem_singleton_self _, ?_⟩
        rcases hmore with ⟨-, rfl⟩ | ⟨-, rfl⟩
        · exact fits_closing hrest
        · exact ⟨List.mem_cons_self, trivial⟩
      rcases hmore with ⟨-, rfl⟩ | ⟨hne, rfl⟩
      · exact absurd (List.suffix_nil.mp hsuffix) htext
      rcases List.suffix_cons_iff.mp hsuffix with rfl | hsuffix
      · obtain ⟨other, names, rfl⟩ := List.exists_cons_of_ne_nil hne
        obtain ⟨more, heq, -⟩ := optionalSegments_cons other names
        rw [heq]
        exact ⟨[['/'], [':']], by simp [insideSegments], by simp [Foresight.Fits]⟩
      · exact ih hothers hsuffix

/-- Optional segments behind a slash, or at the start, in the place of a run of stars. -/
def expansion : Patch where
  Piece piece := ∃ names, names ≠ [] ∧ Numbered names ∧ piece = optionalSegments names
  old := '*'
  last := '?'
  opens := ['/']
  closes := endsSegment
  start := [[':'], ['s'], ['e'], ['g']]
  inner := insideSegments
  ends_last := by
    rintro _ ⟨names, hne, -, rfl⟩
    exact List.getLast?_eq_some_iff.mp (getLast?_optionalSegments hne)
  fits_start := by
    rintro _ rest ⟨names, hne, hnames, rfl⟩
    obtain ⟨name, names, rfl⟩ := List.exists_cons_of_ne_nil hne
    obtain ⟨⟨i, rfl⟩, -⟩ := List.forall_mem_cons.mp hnames
    obtain ⟨number, -, hname⟩ := numberedName_eq i
    obtain ⟨more, heq, -⟩ := optionalSegments_cons (numberedName i) names
    rw [heq, hname]
    simp [Foresight.Fits]
  fits_inner := by
    rintro first second rest ⟨names, -, hnames, heq⟩ - hsecond hcloses
    exact isInside_of_suffix hnames (heq ▸ List.suffix_append first second) hsecond hcloses
  old_not_word := by decide

/-! ## No rule fires anew -/

theorem mem_optionalSegments (hnames : Numbered names) {c : Char}
    (h : c ∈ optionalSegments names) : c ∈ [':', '?', '/'] ∨ isNameChar c := by
  induction names with
  | nil => cases h
  | cons name names ih =>
      obtain ⟨⟨i, rfl⟩, hothers⟩ := List.forall_mem_cons.mp hnames
      obtain ⟨more, heq, hmore⟩ := optionalSegments_cons (numberedName i) names
      rw [heq, List.mem_cons, List.mem_append, List.mem_cons] at h
      rcases h with rfl | hname | rfl | hmem
      · exact .inl List.mem_cons_self
      · exact .inr (isNameChar_of_mem_numberedName hname)
      · exact .inl (by simp)
      · rcases hmore with ⟨-, rfl⟩ | ⟨-, rfl⟩
        · cases hmem
        · rcases List.mem_cons.mp hmem with rfl | hmem
          · exact .inl (by simp)
          · exact ih hothers hmem

theorem ne_of_mem_optionalSegments (hnames : Numbered names) {c d : Char}
    (h : c ∈ optionalSegments names) (hmark : d ∉ [':', '?', '/']) (hname : ¬ isNameChar d) :
    c ≠ d := by
  rintro rfl
  exact (mem_optionalSegments hnames h).elim hmark hname

/-- Each segment is read as a parameter, and the question mark behind it ends its name. -/
theorem scanOutside_optionalSegments (hnames : Numbered names) (facts : Facts) (rest : List Char) :
    scanOutside facts .plain (optionalSegments names ++ rest) = scanOutside facts .plain rest := by
  induction names with
  | nil => rfl
  | cons name names ih =>
      obtain ⟨⟨i, rfl⟩, hothers⟩ := List.forall_mem_cons.mp hnames
      obtain ⟨more, heq, hmore⟩ := optionalSegments_cons (numberedName i) names
      have hsegment : scanOutside facts .plain (':' :: (numberedName i ++ '?' :: (more ++ rest))) =
          scanOutside facts .plain (more ++ rest) := by
        have hcolon : scanOutside facts .plain (':' :: (numberedName i ++ '?' :: (more ++ rest))) =
            scanOutside facts .name (numberedName i ++ '?' :: (more ++ rest)) := rfl
        rw [hcolon, Facts.scanOutside_name fun c => isNameChar_of_mem_numberedName]
        rfl
      rw [heq]
      simp only [List.cons_append, List.append_assoc]
      rw [hsegment]
      rcases hmore with ⟨-, rfl⟩ | ⟨-, rfl⟩
      · rfl
      · exact ih hothers

theorem seamless_expansion : Seamless expansion where
  piece_flat := by
    rintro _ ⟨names, -, hnames, rfl⟩ c hc
    have hne {d : Char} := @ne_of_mem_optionalSegments names hnames c d hc
    exact ⟨hne (by decide) (by decide), hne (by decide) (by decide), hne (by decide) (by decide)⟩
  old_flat := by decide
  opens_apart := List.all_iff_forall_prop.mp (by decide)
  scan_piece := by
    rintro _ ⟨names, -, hnames, rfl⟩ facts rest
    exact scanOutside_optionalSegments hnames facts rest
  scan_escaped := by
    intro hopens
    exact absurd hopens (by decide)
  scan_old facts rest := ⟨facts.addWildcard, .addWildcard facts, rfl⟩

theorem expansion_keeps : ∀ e ∈ markers, expansion.keeps e := by decide +kernel

/-! ## The patch of a pattern -/

/-- Filling names in where the text was cut patches it, with as many names as the runs ask for. -/
def Expands (before : Option Char) (text : List Char) (cuts : List Chunk) : Prop :=
  ∀ names, Numbered names → names.length = segmentsPerRun * cuts.count .run →
    expansion.Patched before text (fillRuns names cuts)

variable {before : Option Char} {text : List Char} {cuts : List Chunk}

theorem Expands.nil (before : Option Char) : Expands before [] [] :=
  fun _ _ _ => .nil before

theorem Expands.char (c : Char) (h : Expands (some c) text cuts) :
    Expands before (c :: text) (.char c :: cuts) := by
  intro names hnames hlength
  have hcount : (Chunk.char c :: cuts).count .run = cuts.count .run := count_run_chars [c] cuts
  rw [hcount] at hlength
  exact .keep c (h names hnames hlength)

/-- Stars make a run, or they stay. -/
theorem Expands.stars {opens closes : Bool} (stars : Nat)
    (hopens : opens → ∀ c ∈ before, c ∈ expansion.opens)
    (hcloses : closes → ∀ names, ∀ c ∈ (fillRuns names cuts).head?, endsSegment c)
    (h : ∀ before, Expands before text cuts) :
    Expands before (List.replicate stars '*' ++ text)
      (Chunk.ofStars stars opens closes ++ cuts) := by
  unfold Chunk.ofStars
  split
  next hrun =>
    rw [Bool.and_eq_true, Bool.and_eq_true, decide_eq_true_eq] at hrun
    obtain ⟨⟨hstars, hopen⟩, hclose⟩ := hrun
    obtain ⟨n, rfl⟩ := Nat.exists_eq_add_of_le' (Nat.le_of_succ_le hstars)
    intro names hnames hlength
    have hcount : names.length = segmentsPerRun + segmentsPerRun * cuts.count .run := by
      rw [hlength, Nat.add_comm, ← Nat.mul_succ]
      exact congrArg (segmentsPerRun * ·) (count_run_cons cuts)
    have htake : names.take segmentsPerRun ≠ [] := by
      intro hnil
      have hzero := congrArg List.length hnil
      rw [List.length_take, hcount] at hzero
      exact absurd hzero (by simp [segmentsPerRun])
    refine .put n (hopens hopen) ⟨_, htake, ?_, rfl⟩ (hcloses hclose _) (h _ _ ?_ ?_)
    · exact fun name hname => hnames name (List.mem_of_mem_take hname)
    · exact fun name hname => hnames name (List.mem_of_mem_drop hname)
    · rw [List.length_drop, hcount, Nat.add_sub_cancel_left]
  next hstay =>
    clear hopens hcloses hstay
    induction stars generalizing before with
    | zero => exact h before
    | succ stars ih => exact .char '*' ih

theorem opens_of_slash {c : Char} (h : (c == '/') = true) : ∀ d ∈ some c, d ∈ expansion.opens := by
  rintro d ⟨⟩
  rw [beq_iff_eq] at h
  rw [h]
  exact List.mem_singleton_self '/'

theorem expands_cut (depth : Nat) (opens : Bool) (stars : Nat) (text : List Char)
    (hopens : opens → ∀ c ∈ before, c ∈ expansion.opens) :
    Expands before (List.replicate stars '*' ++ text) (cut depth opens stars text) := by
  fun_induction cut depth opens stars text generalizing before with
  | case1 depth opens stars =>
      have hstars : Expands before (List.replicate stars '*' ++ [])
          (Chunk.ofStars stars opens true ++ []) :=
        .stars stars hopens (by rintro _ names c ⟨⟩) fun before => .nil before
      rwa [List.append_nil (Chunk.ofStars _ _ _)] at hstars
  | case2 depth opens stars =>
      exact .stars stars hopens Bool.noConfusion fun before => .char '\\' (.nil _)
  | case3 depth opens stars c cs ih =>
      exact .stars stars hopens Bool.noConfusion fun before =>
        .char '\\' (.char c (ih opens_of_slash))
  | case4 depth opens stars c cs _ _ hstar ih =>
      obtain ⟨rfl, rfl⟩ := hstar
      have hstars := ih hopens
      rwa [List.replicate_succ', List.append_assoc] at hstars
  | case5 depth opens stars c cs =>
      rename_i ih
      refine .stars stars hopens ?_ fun before => .char c (ih opens_of_slash)
      rintro hends names d ⟨⟩
      exact hends

theorem expandRuns_patched (text : List Char) : expansion.Patched none text (expandRuns text) := by
  have hcut : Expands none text (chunks text) := expands_cut 0 true 0 text nofun
  refine hcut _ ?_ (length_freshNames _ _)
  exact fun name hname => numbered_of_mem_freshNames hname

/-! ## No run is left -/

theorem count_ofStars {stars : Nat} {opens closes : Bool}
    (h : ¬ (decide (stars ≥ 2) && opens && closes)) :
    (Chunk.ofStars stars opens closes).count .run = 0 := by
  rw [Chunk.ofStars, if_neg h, ← List.append_nil (List.replicate _ _), ← List.map_replicate,
    count_run_chars]
  rfl

/-- A word without stars holds no run and ends none. -/
theorem exists_count_cut_word {word : List Char} (h : ∀ c ∈ word, c ∉ "\\*()".toList)
    (depth : Nat) (opens : Bool) (rest : List Char) : ∃ opens',
      (cut depth opens 0 (word ++ rest)).count .run = (cut depth opens' 0 rest).count .run := by
  induction word generalizing opens with
  | nil => exact ⟨opens, rfl⟩
  | cons c word ih =>
      obtain ⟨hc, hword⟩ := List.forall_mem_cons.mp h
      have hne (d : Char) (hd : d ∈ "\\*()".toList) : c ≠ d := by
        rintro rfl
        exact hc hd
      obtain ⟨opens', hcount⟩ := ih hword (c == '/')
      refine ⟨opens', ?_⟩
      rw [List.cons_append, cut_plain (hne _ (by decide)) fun h => hne '*' (by decide) h.1,
        depthBehind, if_neg (hne _ (by decide)), if_neg (hne _ (by decide)), List.count_append,
        count_ofStars (by simp), Nat.zero_add]
      exact (count_run_chars [c] _).trans hcount

theorem cut_replicate {depth stars : Nat} (hdepth : 0 < stars → depth = 0) (opens : Bool)
    (rest : List Char) :
    cut depth opens 0 (List.replicate stars '*' ++ rest) = cut depth opens stars rest := by
  induction stars generalizing rest with
  | zero => rfl
  | succ stars ih =>
      obtain rfl := hdepth (Nat.succ_pos stars)
      rw [List.replicate_succ', List.append_assoc, ih fun _ => rfl]
      exact cut_star opens stars rest

/-- Where stars have become segments there is no run, and where they stayed there is none
either. -/
theorem count_cut_stars {depth stars : Nat} {opens closes : Bool} (hnames : Numbered names)
    (hdepth : 0 < stars → depth = 0)
    (hsegments : ∀ names opens, Numbered names →
      (cut depth opens 0 (fillRuns names cuts)).count .run = 0)
    (hstars : ¬ (decide (stars ≥ 2) && opens && closes) →
      (cut depth opens stars (fillRuns names cuts)).count .run = 0) :
    (cut depth opens 0 (fillRuns names (Chunk.ofStars stars opens closes ++ cuts))).count .run =
      0 := by
  by_cases hrun : decide (stars ≥ 2) && opens && closes
  · rw [Chunk.ofStars, if_pos hrun, List.singleton_append, fillRuns]
    have htake : Numbered (names.take segmentsPerRun) :=
      fun name hname => hnames name (List.mem_of_mem_take hname)
    have hdrop : Numbered (names.drop segmentsPerRun) :=
      fun name hname => hnames name (List.mem_of_mem_drop hname)
    have hword : ∀ c ∈ optionalSegments (names.take segmentsPerRun), c ∉ "\\*()".toList := by
      intro c hc hmem
      have hmarks : ∀ d ∈ "\\*()".toList, d ∉ [':', '?', '/'] ∧ ¬ isNameChar d :=
        List.all_iff_forall_prop.mp (by decide)
      obtain ⟨hmark, hname⟩ := hmarks c hmem
      exact ne_of_mem_optionalSegments htake hc hmark hname rfl
    obtain ⟨opens', hcount⟩ := exists_count_cut_word hword depth opens
      (fillRuns (names.drop segmentsPerRun) cuts)
    rw [hcount, hsegments _ _ hdrop]
  · rw [Chunk.ofStars, if_neg hrun, ← List.map_replicate, fillRuns_chars, cut_replicate hdepth]
    exact hstars hrun

theorem count_cut_expanded (hnames : Numbered names) (depth : Nat) (opens : Bool) (stars : Nat)
    (text : List Char) (hdepth : 0 < stars → depth = 0) :
    (cut depth opens 0 (fillRuns names (cut depth opens stars text))).count .run = 0 := by
  fun_induction cut depth opens stars text generalizing names with
  | case1 depth opens stars =>
      rw [← List.append_nil (Chunk.ofStars _ _ _)]
      refine count_cut_stars hnames hdepth (fun _ opens _ => ?_) fun h => ?_
      · exact count_ofStars (by simp)
      · exact count_ofStars h
  | case2 depth opens stars =>
      have hescape (opens : Bool) (stars : Nat) (names : List (List Char)) :
          (cut depth opens stars (fillRuns names [.char '\\'])).count .run = 0 := by
        rw [fillRuns, fillRuns, cut, ofStars_of_false (.inr rfl), count_run_chars]
        rfl
      exact count_cut_stars hnames hdepth (fun _ _ _ => hescape _ _ _) fun _ => hescape _ _ _
  | case3 depth opens stars c cs ih =>
      have hescape (opens : Bool) (stars : Nat) {names : List (List Char)}
          (hnames : Numbered names) : (cut depth opens stars (fillRuns names
            (.char '\\' :: .char c :: cut depth (c == '/') 0 cs))).count .run = 0 := by
        rw [fillRuns, fillRuns, count_cut_escaped]
        exact ih hnames (by simp)
      exact count_cut_stars hnames hdepth (fun _ _ h => hescape _ _ h) fun _ => hescape _ _ hnames
  | case4 depth opens stars c cs _ _ hstar ih =>
      exact ih hnames fun _ => hstar.2
  | case5 depth opens stars c cs hend hnext hstar =>
      rename_i ih
      have hescape := Facts.ne_escape hend hnext
      have hchar (opens : Bool) {stars : Nat} {names : List (List Char)} (hnames : Numbered names)
          (hrun : ¬ (decide (stars ≥ 2) && opens && endsSegment c)) :
          (cut depth opens stars (fillRuns names
            (.char c :: cut (depthBehind depth c) (c == '/') 0 cs))).count .run = 0 := by
        rw [fillRuns, cut_plain hescape hstar, List.count_append, count_ofStars hrun, Nat.zero_add]
        exact (count_run_chars [c] _).trans (ih hnames (by simp))
      exact count_cut_stars hnames hdepth (fun _ _ h => hchar _ h (by simp)) fun h =>
        hchar _ hnames h

theorem runCount_expandRuns (text : List Char) : runCount (expandRuns text) = 0 :=
  count_cut_expanded (fun _ hname => numbered_of_mem_freshNames hname) 0 true 0 text
    fun h => absurd h (Nat.lt_irrefl 0)

end

end RouteAudit.Remedy
