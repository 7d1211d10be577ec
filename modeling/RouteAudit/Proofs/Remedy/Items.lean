import Mathlib.Data.Bool.AllAny
import RouteAudit.Proofs.Remedy.Edits
import RouteAudit.Proofs.Remedy.Rework

/-! # The repairs item by item

Each repair goes through a text without reading it as a template. It does reach the items that
the text is read as, since bodies are told apart by the same parentheses and backslashes.
-/

namespace RouteAudit.Remedy

open Pattern (isNameStart isNameChar)
open Regex.Reader (BodiesAlike)
open Template (Balanced)

/-! ## What writes an item -/

/-- A character of a name, or one that writes a part of an item that is no character itself. -/
def isInert (c : Char) : Bool :=
  isNameChar c || [':', '?', '*', '+', '\x7b', '\x7d'].contains c

theorem isInert_of_mem_modifier {modifier : Option Modifier} {c : Char}
    (h : c ∈ Modifier.spelling modifier) : isInert c := by
  cases modifier with
  | none => cases h
  | some modifier =>
      obtain rfl := List.mem_singleton.mp h
      cases modifier <;> rfl

/-- An item is a character, or it is written with characters that stand for nothing, around its
body if it has one. -/
inductive Shape (item : Item) : Prop where
  | char (c : Char) (escaped : Bool) : item = .char c escaped → Shape item
  | plain : encodedItem item = item → (∀ c ∈ item.spelling, isInert c) → Shape item
  | body (before body after : List Char) :
      item.spelling = before ++ '(' :: body ++ ')' :: after → (∀ c ∈ before, isInert c) →
        (∀ c ∈ after, isInert c) → Item.isBody body →
          (encodedItem item).spelling = before ++ '(' :: encodedBody body ++ ')' :: after →
            (∀ other, BodiesAlike body other → Item.isBody other →
              ∃ item', SameItem item item' ∧
                item'.spelling = before ++ '(' :: other ++ ')' :: after) → Shape item

theorem shape_of_stands {item : Item} {rest : List Char} (h : item.stands rest) : Shape item := by
  cases item with
  | char c escaped => exact .char c escaped rfl
  | param name body modifier =>
      obtain ⟨-, hname⟩ := Template.name_of_stands h
      have hbefore : ∀ c ∈ ':' :: name, isInert c := by
        refine List.forall_mem_cons.mpr ⟨rfl, fun c hc => ?_⟩
        rw [isInert, hname c hc]
        rfl
      cases body with
      | none =>
          refine .plain rfl fun c hc => ?_
          rw [Item.spelling, Item.bodySpelling, List.append_nil] at hc
          exact (List.mem_append.mp hc).elim (hbefore c) isInert_of_mem_modifier
      | some body =>
          have hbody := (Item.stands_param.mp h).2.2.1
          have hspelling (body : List Char) : (Item.param name (some body) modifier).spelling =
              ':' :: name ++ '(' :: body ++ ')' :: Modifier.spelling modifier := by
            simp [Item.spelling, Item.bodySpelling]
          exact .body (':' :: name) body (Modifier.spelling modifier) (hspelling body) hbefore
            (fun c => isInert_of_mem_modifier) hbody (hspelling _) fun other halike hother =>
              ⟨_, .param name modifier halike hother, hspelling other⟩
  | group body modifier =>
      have hbody := (Item.stands_group.mp h).1
      have hspelling (body : List Char) : (Item.group body modifier).spelling =
          [] ++ '(' :: body ++ ')' :: Modifier.spelling modifier := by
        simp [Item.spelling, Item.bodySpelling]
      exact .body [] body (Modifier.spelling modifier) (hspelling body) (List.forall_mem_nil _)
        (fun c => isInert_of_mem_modifier) hbody (hspelling _) fun other halike hother =>
          ⟨_, .group modifier halike hother, hspelling other⟩
  | wildcard | blockOpen => exact .plain rfl (List.all_eq_true.mp (by decide))
  | blockClose modifier =>
      exact .plain rfl (List.forall_mem_cons.mpr ⟨rfl, fun c => isInert_of_mem_modifier⟩)

section

variable {text body rest : List Char} {c : Char} {depth : Nat} {items : Template}

theorem isInert_ne {d : Char} (h : isInert c) (hd : isInert d = false) : c ≠ d := by
  rintro rfl
  rw [h] at hd
  cases hd

/-! ## Pipes in groups -/

theorem escapePipes_outside (hescape : c ≠ '\\') (hopen : c ≠ '(') (hclose : c ≠ ')')
    (rest : List Char) : (escapePipes 0 (c :: rest)).1 = c :: (escapePipes 0 rest).1 := by
  rw [escapePipes_plain hescape (fun h => absurd h.2 (by decide)), depthBehind, if_neg hopen,
    if_neg hclose]

theorem escapePipes_inert (h : ∀ c ∈ text, isInert c) (rest : List Char) :
    (escapePipes 0 (text ++ rest)).1 = text ++ (escapePipes 0 rest).1 := by
  induction text with
  | nil => rfl
  | cons c text ih =>
      obtain ⟨hc, htext⟩ := List.forall_mem_cons.mp h
      rw [List.cons_append, escapePipes_outside (isInert_ne hc rfl) (isInert_ne hc rfl)
        (isInert_ne hc rfl), ih htext, List.cons_append]

/-- The pipes of a body get backslashes, and the group closes where it did. -/
theorem escapePipes_body (h : Balanced depth body) (rest : List Char) : ∃ other,
    (escapePipes (depth + 1) (body ++ ')' :: rest)).1 = other ++ ')' :: (escapePipes 0 rest).1 ∧
      Balanced depth other ∧ BodiesAlike body other := by
  have hstep {depth : Nat} {c : Char} (hescape : c ≠ '\\') (hpipe : c ≠ '|') (cs : List Char) :
      (escapePipes depth (c :: cs)).1 = c :: (escapePipes (depthBehind depth c) cs).1 := by
    rw [escapePipes_plain hescape fun h => hpipe h.1]
  induction h with
  | nil => exact ⟨[], hstep (by decide) (by decide) rest, .nil, .nil⟩
  | escape c _ ih =>
      obtain ⟨other, hother, hbalanced, halike⟩ := ih
      exact ⟨'\\' :: c :: other, congrArg ('\\' :: c :: ·) hother, hbalanced.escape c,
        halike.escape c⟩
  | opening _ ih =>
      obtain ⟨other, hother, hbalanced, halike⟩ := ih
      refine ⟨'(' :: other, ?_, hbalanced.opening, halike.char (by decide)⟩
      exact (hstep (by decide) (by decide) _).trans (congrArg ('(' :: ·) hother)
  | closing _ ih =>
      obtain ⟨other, hother, hbalanced, halike⟩ := ih
      refine ⟨')' :: other, ?_, hbalanced.closing, halike.char (by decide)⟩
      exact (hstep (by decide) (by decide) _).trans (congrArg (')' :: ·) hother)
  | @char depth body c hescape hopen hclose _ ih =>
      obtain ⟨other, hother, hbalanced, halike⟩ := ih
      by_cases hpipe : c = '|'
      · subst hpipe
        refine ⟨'\\' :: '|' :: other, ?_, hbalanced.escape '|', halike.pipe⟩
        rw [List.cons_append, escapePipes, if_pos ⟨rfl, Nat.succ_pos depth⟩]
        · exact congrArg ('\\' :: '|' :: ·) hother
        · exact fun heq => absurd heq hescape
        · exact fun _ _ heq => absurd heq hescape
      · refine ⟨c :: other, ?_, hbalanced.char hescape hopen hclose, halike.char hescape⟩
        rw [List.cons_append, hstep hescape hpipe, depthBehind, if_neg hopen, if_neg hclose, hother,
          List.cons_append]

theorem reworked_escapePipes (hstands : items.stands []) (free : Bool) : ∃ items',
    (escapePipes 0 (Template.spelling items)).1 = Template.spelling items' ∧
      Reworked free [] items items' := by
  induction items generalizing free with
  | nil => exact ⟨[], rfl, .nil free⟩
  | cons item items ih =>
      obtain ⟨hitem, hitems⟩ := Template.stands_cons.mp hstands
      obtain ⟨items', hspelling, hreworked⟩ := ih hitems item.firm
      rw [Template.spelling_cons]
      cases shape_of_stands hitem with
      | char c escaped heq =>
          subst heq
          refine ⟨.char c escaped :: items', ?_, .keep (.refl _) hreworked⟩
          cases escaped with
          | true => exact congrArg ('\\' :: c :: ·) hspelling
          | false =>
              obtain ⟨⟨hescape, hopen, hclose, -⟩, -⟩ := Template.standsBefore_char.mp hitem
              exact (escapePipes_outside hescape hopen hclose _).trans (congrArg (c :: ·) hspelling)
      | plain _ hplain =>
          refine ⟨item :: items', ?_, .keep (.refl _) hreworked⟩
          rw [escapePipes_inert hplain, hspelling, Template.spelling_cons]
      | body before body after hitem' hbefore hafter hbody _ hsame =>
          obtain ⟨hsome, hbalanced⟩ := Template.isBody_iff.mp hbody
          obtain ⟨other, hother, hbalanced', halike⟩ :=
            escapePipes_body hbalanced (after ++ Template.spelling items)
          have hsome' : other ≠ [] := List.ne_nil_of_length_pos
            (Nat.lt_of_lt_of_le (List.length_pos_of_ne_nil hsome) halike.length_le)
          obtain ⟨item', hsame, hitem''⟩ :=
            hsame other halike (Template.isBody_iff.mpr ⟨hsome', hbalanced'⟩)
          refine ⟨item' :: items', ?_, .keep hsame hreworked⟩
          have hopen (rest : List Char) :
              (escapePipes 0 ('(' :: rest)).1 = '(' :: (escapePipes 1 rest).1 := rfl
          rw [hitem', Template.spelling_cons, hitem'']
          simp only [List.append_assoc, List.cons_append]
          rw [escapePipes_inert hbefore, hopen, hother, escapePipes_inert hafter, hspelling]

/-! ## Double wildcards -/

theorem fillRuns_chars (names : List (List Char)) (text : List Char) (cuts : List Chunk) :
    fillRuns names (text.map .char ++ cuts) = text ++ fillRuns names cuts := by
  induction text with
  | nil => rfl
  | cons c text ih => exact congrArg (c :: ·) ih

theorem count_run_chars (text : List Char) (cuts : List Chunk) :
    (text.map Chunk.char ++ cuts).count .run = cuts.count .run := by
  induction text with
  | nil => rfl
  | cons c text ih => exact ih

theorem spelling_stars (stars : Nat) (items : Template) :
    Template.spelling (List.replicate stars .wildcard ++ items) =
      List.replicate stars '*' ++ Template.spelling items := by
  induction stars with
  | zero => rfl
  | succ stars ih => exact congrArg ('*' :: ·) ih

theorem ofStars_of_false {opens closes : Bool} (h : opens = false ∨ closes = false) (stars : Nat) :
    Chunk.ofStars stars opens closes = (List.replicate stars '*').map .char := by
  rw [Chunk.ofStars, if_neg, List.map_replicate]
  rcases h with rfl | rfl <;> simp

theorem cut_star (opens : Bool) (stars : Nat) (rest : List Char) :
    cut 0 opens stars ('*' :: rest) = cut 0 opens (stars + 1) rest := by
  rw [cut]
  · rfl
  · exact fun h => absurd h (by decide)
  · exact fun _ _ h => absurd h (by decide)

theorem cut_plain (hescape : c ≠ '\\') (hstar : ¬ (c = '*' ∧ depth = 0)) (opens : Bool)
    (stars : Nat) (rest : List Char) : cut depth opens stars (c :: rest) =
      Chunk.ofStars stars opens (endsSegment c) ++
        .char c :: cut (depthBehind depth c) (c == '/') 0 rest := by
  rw [cut, if_neg hstar]
  · rfl
  · exact fun h => absurd h hescape
  · exact fun _ _ h => absurd h hescape

/-- An escaped character ends the run before it, and stars before it make none. -/
theorem count_cut_escaped (depth : Nat) (opens : Bool) (stars : Nat) (c : Char)
    (rest : List Char) : (cut depth opens stars ('\\' :: c :: rest)).count .run =
      (cut depth (c == '/') 0 rest).count .run := by
  rw [cut, ofStars_of_false (.inr rfl), count_run_chars]
  rfl

/-- What is no star ends the stars before it. -/
theorem cut_behind_stars (hescape : c ≠ '\\') (hstar : c ≠ '*') (opens : Bool) (stars : Nat)
    (rest : List Char) : cut 0 opens stars (c :: rest) =
      Chunk.ofStars stars opens (endsSegment c) ++ cut 0 false 0 (c :: rest) := by
  rw [cut_plain hescape fun h => hstar h.1, cut_plain hescape fun h => hstar h.1]
  rfl

/-- Stars that do not start a segment stay. -/
theorem cut_stars (depth stars : Nat) (text : List Char) :
    cut depth false stars text =
      (List.replicate stars '*').map .char ++ cut depth false 0 text := by
  have hofStars (stars : Nat) (closes : Bool) := @ofStars_of_false false closes (.inl rfl) stars
  induction text generalizing stars with
  | nil => exact (hofStars stars true).trans (List.append_nil _).symm
  | cons c text ih =>
      by_cases hescape : c = '\\'
      · subst hescape
        cases text <;> rw [cut, cut, hofStars, hofStars] <;> rfl
      by_cases hstar : c = '*' ∧ depth = 0
      · obtain ⟨rfl, rfl⟩ := hstar
        rw [cut_star, cut_star, ih, ih 1, List.replicate_succ', List.map_append, List.append_assoc]
        rfl
      · rw [cut_plain hescape hstar, cut_plain hescape hstar, hofStars, hofStars]
        rfl

theorem cut_inert (h : ∀ c ∈ text, isInert c) (rest : List Char) :
    cut 0 false 0 (text ++ rest) = text.map .char ++ cut 0 false 0 rest := by
  induction text with
  | nil => rfl
  | cons c text ih =>
      obtain ⟨hc, htext⟩ := List.forall_mem_cons.mp h
      rw [List.cons_append]
      by_cases hstar : c = '*'
      · subst hstar
        rw [cut_star, cut_stars, ih htext]
        rfl
      · have hslash : (c == '/') = false := beq_eq_false_iff_ne.mpr (isInert_ne hc rfl)
        rw [cut_plain (isInert_ne hc rfl) (fun h => hstar h.1), depthBehind,
          if_neg (isInert_ne hc rfl), if_neg (isInert_ne hc rfl), hslash, ih htext,
          ofStars_of_false (.inl rfl)]
        rfl

/-- The body of a group is not cut. -/
theorem cut_body (h : Balanced depth body) (rest : List Char) (opens : Bool) :
    cut (depth + 1) opens 0 (body ++ ')' :: rest) =
      (body ++ [')']).map .char ++ cut 0 false 0 rest := by
  have hstep {depth : Nat} {c : Char} (hescape : c ≠ '\\') (opens : Bool) (cs : List Char) :
      cut (depth + 1) opens 0 (c :: cs) =
        .char c :: cut (depthBehind (depth + 1) c) (c == '/') 0 cs := by
    rw [cut_plain hescape (fun h => absurd h.2 (Nat.succ_ne_zero depth))]
    cases opens <;> rfl
  induction h generalizing opens with
  | nil => exact hstep (by decide) opens rest
  | @escape depth body c _ ih =>
      have hescape : cut (depth + 1) opens 0 ('\\' :: c :: (body ++ ')' :: rest)) =
          .char '\\' :: .char c :: cut (depth + 1) (c == '/') 0 (body ++ ')' :: rest) := by
        cases opens <;> rfl
      exact hescape.trans (congrArg (.char '\\' :: .char c :: ·) (ih _))
  | opening _ ih => exact (hstep (by decide) opens _).trans (congrArg (.char '(' :: ·) (ih _))
  | closing _ ih => exact (hstep (by decide) opens _).trans (congrArg (.char ')' :: ·) (ih _))
  | @char depth body c hescape hopen hclose _ ih =>
      rw [List.cons_append, hstep hescape, depthBehind, if_neg hopen, if_neg hclose, ih]
      rfl

/-- What writes an item with a part that is no character is not cut. -/
theorem cut_item {item : Item} {behind : List Char} (h : item.stands behind)
    (hchar : ∀ c escaped, item ≠ .char c escaped) (rest : List Char) :
    cut 0 false 0 (item.spelling ++ rest) = item.spelling.map .char ++ cut 0 false 0 rest := by
  cases shape_of_stands h with
  | char c escaped heq => exact absurd heq (hchar c escaped)
  | plain _ hplain => exact cut_inert hplain rest
  | body before body after hitem hbefore hafter hbody _ _ =>
      have hopen (cs : List Char) : cut 0 false 0 ('(' :: cs) = .char '(' :: cut 1 false 0 cs := rfl
      rw [hitem]
      simp only [List.append_assoc, List.cons_append, List.map_append, List.map_cons]
      rw [cut_inert hbefore, hopen, cut_body (Template.isBody_iff.mp hbody).2, cut_inert hafter]
      simp

theorem first_of_item (item : Item) (hchar : ∀ c escaped, item ≠ .char c escaped)
    (hwildcard : item ≠ .wildcard) :
    ∃ c more, item.spelling = c :: more ∧ c ≠ '\\' ∧ c ≠ '*' ∧ endsSegment c = false := by
  cases item with
  | char c escaped => exact absurd rfl (hchar c escaped)
  | wildcard => exact absurd rfl hwildcard
  | param | group | blockOpen | blockClose =>
      exact ⟨_, _, rfl, by decide, by decide, rfl⟩

/-- What a row of chunks becomes when names are filled in: the items with runs of wildcards
replaced, wherever they stand. -/
def Fills (cuts : List Chunk) (items : Template) : Prop :=
  ∀ names : List (List Char), names.length = segmentsPerRun * cuts.count .run →
    (∀ name ∈ names, IsName name) → ∃ items',
      fillRuns names cuts = Template.spelling items' ∧ ∀ free, Reworked free names items items'

theorem Fills.nil : Fills [] [] := by
  intro names hlength _
  obtain rfl := List.length_eq_zero_iff.mp hlength
  exact ⟨[], rfl, .nil⟩

theorem Reworked.stars {names : List (List Char)} {items items' : Template} {free : Bool}
    (h : ∀ free, Reworked free names items items') (stars : Nat) :
    Reworked free names (List.replicate stars .wildcard ++ items)
      (List.replicate stars .wildcard ++ items') := by
  induction stars generalizing free with
  | zero => exact h free
  | succ stars ih => exact .keep (.refl .wildcard) ih

/-- Stars before other chunks are filled in as a run, or stay. -/
theorem fills_stars {cuts : List Chunk} (h : Fills cuts items) {stars : Nat}
    {opens closes free : Bool} (hopens : opens → free) {names : List (List Char)}
    (hlength : names.length =
      segmentsPerRun * (Chunk.ofStars stars opens closes ++ cuts).count .run)
    (hnames : ∀ name ∈ names, IsName name) : ∃ items',
      fillRuns names (Chunk.ofStars stars opens closes ++ cuts) = Template.spelling items' ∧
        Reworked free names (List.replicate stars .wildcard ++ items) items' := by
  unfold Chunk.ofStars at hlength ⊢
  split at hlength
  next hrun =>
    rw [if_pos hrun]
    simp only [Bool.and_eq_true, decide_eq_true_eq] at hrun
    rw [List.singleton_append, count_run_cons, Nat.mul_succ] at hlength
    have hdrop : (names.drop segmentsPerRun).length = segmentsPerRun * cuts.count .run := by
      rw [List.length_drop]
      omega
    obtain ⟨items', hspelling, hreworked⟩ := h _ hdrop fun name hname =>
      hnames name (List.mem_of_mem_drop hname)
    refine ⟨optionalItems (names.take segmentsPerRun) ++ items', ?_, ?_⟩
    · rw [List.singleton_append, fillRuns, hspelling, Template.spelling_append,
        spelling_optionalItems]
    · have htake : names.take segmentsPerRun ≠ [] := by
        refine List.ne_nil_of_length_pos ?_
        rw [List.length_take, hlength, segmentsPerRun]
        omega
      obtain ⟨stars, rfl⟩ : ∃ n, stars = n + 1 := Nat.exists_eq_succ_of_ne_zero (by omega)
      have hrest := Reworked.run stars htake
        (fun name hname => hnames name (List.mem_of_mem_take hname)) (hreworked true)
      rw [List.take_append_drop] at hrest
      rwa [hopens hrun.1.2]
  next hrun =>
    rw [if_neg hrun]
    have hstars : List.replicate stars (Chunk.char '*') =
        (List.replicate stars '*').map .char := List.map_replicate.symm
    rw [hstars, count_run_chars] at hlength
    obtain ⟨items', hspelling, hreworked⟩ := h names hlength hnames
    refine ⟨List.replicate stars .wildcard ++ items', ?_, .stars hreworked stars⟩
    rw [hstars, fillRuns_chars, hspelling, spelling_stars]

/-- An item behind which no stars wait stays, and what follows is filled in wherever it stands. -/
theorem Fills.keep {item : Item} {cuts : List Chunk}
    (h : ∀ names : List (List Char), names.length = segmentsPerRun * cuts.count .run →
      (∀ name ∈ names, IsName name) → ∃ items',
        fillRuns names cuts = Template.spelling items' ∧ Reworked item.firm names items items') :
    Fills (item.spelling.map .char ++ cuts) (item :: items) := by
  intro names hlength hnames
  rw [count_run_chars] at hlength
  obtain ⟨items', hspelling, hreworked⟩ := h names hlength hnames
  refine ⟨item :: items', ?_, fun free => .keep (.refl item) hreworked⟩
  rw [fillRuns_chars, hspelling, Template.spelling_cons]

/-- An item that is no star ends the stars before it and is not cut. A segment starts behind it only
where it is firm. -/
theorem cut_spelling {item : Item} {behind : List Char} (hitem : item.stands behind)
    (hwildcard : item ≠ .wildcard) : ∃ closes starts : Bool, (starts → item.firm) ∧
      ∀ (opens : Bool) (stars : Nat) (rest : List Char),
        cut 0 opens stars (item.spelling ++ rest) =
          Chunk.ofStars stars opens closes ++ (item.spelling.map .char ++ cut 0 starts 0 rest) := by
  have hfirst := first_of_item item
  cases item with
  | char c escaped =>
      cases escaped with
      | true => exact ⟨false, c == '/', fun _ => rfl, fun _ _ _ => rfl⟩
      | false =>
          obtain ⟨⟨hescape, hopen, hclose, hstar, -⟩, -⟩ := Template.standsBefore_char.mp hitem
          refine ⟨endsSegment c, c == '/', fun hslash => ?_, fun opens stars rest => ?_⟩
          · rw [beq_iff_eq] at hslash
            subst hslash
            rfl
          · rw [Item.spelling, List.singleton_append, cut_plain hescape fun h => hstar h.1,
              depthBehind, if_neg hopen, if_neg hclose]
            rfl
  | wildcard => exact absurd rfl hwildcard
  | param | group | blockOpen | blockClose =>
      obtain ⟨c, more, hmore, hescape, hstar, hends⟩ := hfirst (by simp) (by simp)
      refine ⟨false, false, Bool.noConfusion, fun opens stars rest => ?_⟩
      have hcut := cut_item hitem (by simp) rest
      rw [hmore, List.cons_append] at hcut
      rw [hmore, List.cons_append, cut_behind_stars hescape hstar, hends, hcut]

/-- Cutting and filling in reworks the items. Stars read before them are among them, and only
where a segment starts. -/
theorem reworked_cut (hstands : items.stands []) {opens free : Bool} {stars : Nat}
    (hopens : opens → free) (hstars : opens = false → stars = 0) {names : List (List Char)}
    (hlength : names.length =
      segmentsPerRun * (cut 0 opens stars (Template.spelling items)).count .run)
    (hnames : ∀ name ∈ names, IsName name) : ∃ items',
      fillRuns names (cut 0 opens stars (Template.spelling items)) = Template.spelling items' ∧
        Reworked free names (List.replicate stars .wildcard ++ items) items' := by
  induction items generalizing opens free stars names with
  | nil =>
      rw [Template.spelling_nil, cut] at hlength ⊢
      rw [← List.append_nil (Chunk.ofStars stars opens true)] at hlength ⊢
      exact fills_stars .nil hopens hlength hnames
  | cons item items ih =>
      obtain ⟨hitem, hitems⟩ := Template.stands_cons.mp hstands
      have hfills {starts : Bool} (hfirm : starts → item.firm) :
          Fills (item.spelling.map .char ++ cut 0 starts 0 (Template.spelling items))
            (item :: items) :=
        .keep fun names hlength hnames => ih hitems hfirm (fun _ => rfl) hlength hnames
      rw [Template.spelling_cons] at hlength ⊢
      by_cases hwildcard : item = .wildcard
      · subst hwildcard
        rw [Item.spelling, List.singleton_append, cut_star] at hlength ⊢
        cases hopen : opens with
        | true =>
            rw [hopen] at hlength
            obtain ⟨items', hspelling, hreworked⟩ := @ih hitems true free (stars + 1)
              (fun _ => hopens hopen) Bool.noConfusion names hlength hnames
            rw [List.replicate_succ', List.append_assoc] at hreworked
            exact ⟨items', hspelling, hreworked⟩
        | false =>
            obtain rfl := hstars hopen
            rw [hopen, cut_stars] at hlength
            rw [cut_stars]
            obtain ⟨items', hspelling, hreworked⟩ :=
              @hfills false Bool.noConfusion names hlength hnames
            exact ⟨items', hspelling, hreworked free⟩
      · obtain ⟨closes, starts, hfirm, hcut⟩ := cut_spelling hitem hwildcard
        rw [hcut] at hlength ⊢
        exact fills_stars (hfills hfirm) hopens hlength hnames

theorem isName_numbered (i : Nat) : IsName (numberedName i) :=
  ⟨rfl, fun _ => isNameChar_of_mem_numberedName⟩

/-- Expanding double wildcards reworks the items, with the names that are made up for them. -/
theorem reworked_expandRuns (hstands : items.stands []) : ∃ items',
    expandRuns (Template.spelling items) = Template.spelling items' ∧
      Reworked true (freshNames (takenNames (Template.spelling items))
        (segmentsPerRun * runCount (Template.spelling items))) items items' := by
  refine reworked_cut hstands (fun _ => rfl) (fun _ => rfl) (length_freshNames _ _) ?_
  intro name hname
  obtain ⟨i, rfl⟩ := numbered_of_mem_freshNames hname
  exact isName_numbered i

/-! ## Traversal -/

theorem encodeFrom_plain {before : Option Char} (hc : c ≠ '.') (rest : List Char) :
    encodeFrom false before (c :: rest) = c :: encodeFrom false (some c) rest :=
  encodeFrom_cons fun h => not_startsWithDots hc rest (Bool.and_eq_true_iff.mp h).2

theorem encodeFrom_dots {before : Option Char}
    (h : startsSegment before && startsWithDots (c :: rest)) :
    encodeFrom false before (c :: rest) = "%2E%2E".toList ++ encodeFrom true (some c) rest := by
  rw [encodeFrom, if_neg Bool.false_ne_true, if_pos h]

theorem encodeFrom_inert (h : ∀ c ∈ text, isInert c) (before : Option Char) (rest : List Char) :
    encodeFrom false before (text ++ rest) =
      text ++ encodeFrom false (text.getLast?.or before) rest := by
  induction text generalizing before with
  | nil => rfl
  | cons c text ih =>
      obtain ⟨hc, htext⟩ := List.forall_mem_cons.mp h
      rw [List.cons_append, encodeFrom_plain (isInert_ne hc rfl), ih htext, List.getLast?_cons]
      cases text.getLast? <;> rfl

theorem startsSegment_of_isInert (h : isInert c) : startsSegment (some c) = false := by
  simp [startsSegment, isInert_ne h (d := '/') rfl, isInert_ne h (d := '\\') rfl]

theorem startsSegment_inert (h : ∀ c ∈ text, isInert c) {before : Option Char}
    (hbefore : startsSegment before = false) :
    startsSegment (text.getLast?.or before) = false := by
  cases hlast : text.getLast? with
  | none => exact hbefore
  | some c => exact startsSegment_of_isInert (h c (List.mem_of_getLast? hlast))

/-- Where two dots fill a segment before a parenthesis that closes, what follows it does not
matter. -/
theorem startsWithDots_closing (h : startsWithDots (c :: (body ++ ')' :: rest)))
    (other : List Char) : startsWithDots (c :: (body ++ ')' :: other)) := by
  obtain ⟨behind, heq, hends⟩ := startsWithDots_iff.mp h
  obtain ⟨rfl, hbody⟩ := List.cons.inj heq
  cases body with
  | nil => exact absurd (List.cons.inj hbody).1 (by decide)
  | cons d body =>
      obtain ⟨rfl, rfl⟩ := List.cons.inj hbody
      refine startsWithDots_iff.mpr ⟨body ++ ')' :: other, rfl, ?_⟩
      cases body <;> exact hends

theorem Balanced.append_word {word : List Char} (hword : ∀ c ∈ word, c ∉ "\\()".toList)
    (h : Balanced depth body) : Balanced depth (word ++ body) := by
  induction word with
  | nil => exact h
  | cons c word ih =>
      obtain ⟨hc, hrest⟩ := List.forall_mem_cons.mp hword
      have hne (d : Char) (hd : d ∈ "\\()".toList) : c ≠ d := by
        rintro rfl
        exact hc hd
      exact .char (hne _ (by decide)) (hne _ (by decide)) (hne _ (by decide)) (ih hrest)

/-- In a body dots are encoded whatever follows it, and the group closes where it did. Where the
first dot has been encoded already, nothing may be left of the body. -/
def EncodesBody (depth : Nat) (body : List Char) : Prop :=
  ∀ second before, (second = true → body.head? = some '.') → ∃ body', Balanced depth body' ∧
    (second = false → body ≠ [] → body' ≠ []) ∧ ∀ rest,
      encodeFrom second before (body ++ ')' :: rest) =
        body' ++ ')' :: encodeFrom false (some ')') rest

/-- A character in a body, and what follows it there: it stays, or dots are encoded from it on. -/
theorem EncodesBody.cons (h : EncodesBody depth body) {before : Option Char} (c : Char) :
    ∃ d word body', (∀ c ∈ word, c ∉ "\\()".toList) ∧ (d = c ∨ d = '%') ∧
      Balanced depth body' ∧ ∀ rest, encodeFrom false before (c :: (body ++ ')' :: rest)) =
        d :: (word ++ (body' ++ ')' :: encodeFrom false (some ')') rest)) := by
  by_cases hdots : startsSegment before && startsWithDots (c :: (body ++ [')']))
  · obtain ⟨hstarts, hbody⟩ := Bool.and_eq_true_iff.mp hdots
    have hdot : body.head? = some '.' := by
      obtain ⟨behind, heq, -⟩ := startsWithDots_iff.mp hbody
      cases body with
      | nil => exact absurd (List.cons.inj (List.cons.inj heq).2).1 (by decide)
      | cons d body => rw [(List.cons.inj (List.cons.inj heq).2).1, List.head?_cons]
    obtain ⟨body', hbalanced, -, hencoded⟩ := h true (some c) fun _ => hdot
    refine ⟨'%', "2E%2E".toList, body', List.all_iff_forall_prop.mp (by decide), .inr rfl,
      hbalanced, fun rest => ?_⟩
    have hrest := startsWithDots_closing hbody rest
    rw [encodeFrom_dots (Bool.and_eq_true_iff.mpr ⟨hstarts, hrest⟩), hencoded]
    rfl
  · obtain ⟨body', hbalanced, -, hencoded⟩ := h false (some c) nofun
    refine ⟨c, [], body', nofun, .inl rfl, hbalanced, fun rest => ?_⟩
    rw [encodeFrom_cons, hencoded, List.nil_append]
    intro hrest
    obtain ⟨hstarts, hbody⟩ := Bool.and_eq_true_iff.mp hrest
    exact hdots (Bool.and_eq_true_iff.mpr ⟨hstarts, startsWithDots_closing hbody []⟩)

theorem encodesBody (h : Balanced depth body) : EncodesBody depth body := by
  induction h with
  | nil =>
      intro second before hsecond
      cases second with
      | true => cases hsecond rfl
      | false => exact ⟨[], .nil, fun _ => id, fun rest => encodeFrom_plain (by decide) rest⟩
  | escape c _ ih =>
      intro second before hsecond
      cases second with
      | true => exact absurd (Option.some.inj (hsecond rfl)) (by decide)
      | false =>
          obtain ⟨d, word, body', hword, -, hbalanced, hencoded⟩ := ih.cons c
          refine ⟨'\\' :: d :: (word ++ body'), (Balanced.append_word hword hbalanced).escape d,
            nofun, fun rest => ?_⟩
          rw [List.cons_append, List.cons_append, encodeFrom_plain (by decide), hencoded]
          simp
  | opening _ ih =>
      intro second before hsecond
      cases second with
      | true => exact absurd (Option.some.inj (hsecond rfl)) (by decide)
      | false =>
          obtain ⟨body', hbalanced, -, hencoded⟩ := ih false (some '(') nofun
          refine ⟨'(' :: body', hbalanced.opening, nofun, fun rest => ?_⟩
          rw [List.cons_append, encodeFrom_plain (by decide), hencoded, List.cons_append]
  | closing _ ih =>
      intro second before hsecond
      cases second with
      | true => exact absurd (Option.some.inj (hsecond rfl)) (by decide)
      | false =>
          obtain ⟨body', hbalanced, -, hencoded⟩ := ih false (some ')') nofun
          refine ⟨')' :: body', hbalanced.closing, nofun, fun rest => ?_⟩
          rw [List.cons_append, encodeFrom_plain (by decide), hencoded, List.cons_append]
  | @char depth body c hescape hopen hclose _ ih =>
      intro second before hsecond
      cases second with
      | true =>
          obtain ⟨body', hbalanced, -, hencoded⟩ := ih false (some c) nofun
          exact ⟨body', hbalanced, nofun, hencoded⟩
      | false =>
          obtain ⟨d, word, body', hword, hd, hbalanced, hencoded⟩ := ih.cons c
          have hflat {e : Char} (hc : c ≠ e) (hmark : '%' ≠ e) : d ≠ e := by
            rcases hd with rfl | rfl
            · exact hc
            · exact hmark
          refine ⟨d :: (word ++ body'), .char (hflat hescape (by decide)) (hflat hopen (by decide))
            (hflat hclose (by decide)) (Balanced.append_word hword hbalanced), nofun,
            fun rest => ?_⟩
          rw [List.cons_append, hencoded]
          simp

theorem encodedBody_spec (h : Item.isBody body) : Item.isBody (encodedBody body) ∧ ∀ rest,
    encodeFrom false (some '(') (body ++ ')' :: rest) =
      encodedBody body ++ ')' :: encodeFrom false (some ')') rest := by
  obtain ⟨hsome, hbalanced⟩ := Template.isBody_iff.mp h
  obtain ⟨body', hbalanced', hsome', hencoded⟩ := encodesBody hbalanced false (some '(') nofun
  have hbody : encodedBody body = body' := by
    rw [encodedBody, hencoded []]
    exact List.dropLast_concat
  rw [hbody]
  exact ⟨Template.isBody_iff.mpr ⟨hsome' rfl hsome, hbalanced'⟩, hencoded⟩

/-- In what writes an item that is no character only its body is encoded, and no segment starts
behind it. -/
theorem encodeFrom_item {item : Item} {behind : List Char} (h : item.stands behind)
    (hchar : ∀ c escaped, item ≠ .char c escaped)
    (before : Option Char) (rest : List Char) : ∃ last, startsSegment last = false ∧
      encodeFrom false before (item.spelling ++ rest) =
        (encodedItem item).spelling ++ encodeFrom false last rest := by
  cases shape_of_stands h with
  | char c escaped heq => exact absurd heq (hchar c escaped)
  | plain hencoded hplain =>
      rw [hencoded]
      obtain ⟨c, text, hitem⟩ := List.exists_cons_of_ne_nil item.spelling_ne_nil
      rw [hitem] at hplain ⊢
      obtain ⟨hc, htext⟩ := List.forall_mem_cons.mp hplain
      refine ⟨_, startsSegment_inert htext (startsSegment_of_isInert hc), ?_⟩
      rw [List.cons_append, encodeFrom_plain (isInert_ne hc rfl), encodeFrom_inert htext]
      rfl
  | body start body after hitem hstart hafter hbody hencoded _ =>
      refine ⟨after.getLast?.or (some ')'), startsSegment_inert hafter rfl, ?_⟩
      rw [hitem, hencoded]
      simp only [List.append_assoc, List.cons_append]
      rw [encodeFrom_inert hstart, encodeFrom_plain (by decide), (encodedBody_spec hbody).2,
        encodeFrom_inert hafter]

theorem first_dot (h : Template.spelling items = '.' :: rest) :
    ∃ items', items = .char '.' false :: items' := by
  cases items with
  | nil => cases h
  | cons item items =>
      rw [Template.spelling_cons] at h
      cases item with
      | char c escaped =>
          cases escaped with
          | true => exact absurd (List.cons.inj h).1 (by decide)
          | false =>
              obtain rfl := (List.cons.inj h).1
              exact ⟨items, rfl⟩
      | param | group | wildcard | blockOpen | blockClose =>
          exact absurd (List.cons.inj h).1 (by decide)

/-- Encoding makes items of the text of some items, whose bodies are encoded apart from the rest.
Where a dot is left out that has been encoded with the one before it, what is reworked are the items
behind it. -/
def Encoded (second free : Bool) (before : Option Char) (items : Template) : Prop :=
  ∃ items', encodeFrom second before (Template.spelling items) = Template.spelling items' ∧
    Reworked free [] ((if second then items.tail else items).map encodedItem) items'

section

variable {free escaped : Bool} {before last : Option Char} {item : Item}

theorem firm_encodedItem (item : Item) : (encodedItem item).firm = item.firm := by
  unfold encodedItem
  split <;> rfl

theorem Encoded.keep (h : Encoded false item.firm last items)
    (hencode : encodeFrom false before (item.spelling ++ Template.spelling items) =
      (encodedItem item).spelling ++ encodeFrom false last (Template.spelling items)) :
    Encoded false free before (item :: items) := by
  obtain ⟨items', hspelling, hreworked⟩ := h
  rw [← firm_encodedItem] at hreworked
  refine ⟨encodedItem item :: items', ?_, .keep (.refl _) hreworked⟩
  rw [Template.spelling_cons, hencode, hspelling, Template.spelling_cons]

/-- Two dots are encoded behind a slash or a backslash. -/
theorem Encoded.dots (hdots : startsWithDots (c :: Template.spelling items))
    (hallowed : free || escaped)
    (h : ∀ more, items = .char '.' false :: more → Encoded true true (some '.') items)
    (hencode : encodeFrom false before ((Item.char c escaped).spelling ++ Template.spelling items) =
      (if escaped then ['\\'] else []) ++
        ("%2E%2E".toList ++ encodeFrom true (some c) (Template.spelling items))) :
    Encoded false free before (.char c escaped :: items) := by
  obtain ⟨behind, heq, -⟩ := startsWithDots_iff.mp hdots
  obtain ⟨rfl, htext⟩ := List.cons.inj heq
  obtain ⟨more, rfl⟩ := first_dot htext
  obtain ⟨items', hspelling, hreworked⟩ := h more rfl
  refine ⟨.char '%' escaped :: encodedDots ++ items', ?_, .dots hallowed hreworked⟩
  rw [Template.spelling_cons, hencode, hspelling, List.cons_append, Template.spelling_cons,
    Template.spelling_append]
  cases escaped <;> rfl

theorem Encoded.escape (hrest : Encoded false (Item.char c true).firm (some c) items)
    (h : ∀ more, items = .char '.' false :: more → Encoded true true (some '.') items) :
    Encoded false free before (.char c true :: items) := by
  have hescape : encodeFrom false before ((Item.char c true).spelling ++ Template.spelling items) =
      '\\' :: encodeFrom false (some '\\') (c :: Template.spelling items) :=
    encodeFrom_plain (by decide) _
  by_cases hdots : startsWithDots (c :: Template.spelling items)
  · refine .dots hdots (Bool.or_true _) h ?_
    rw [hescape, encodeFrom_dots (Bool.and_eq_true_iff.mpr ⟨rfl, hdots⟩)]
    rfl
  · refine hrest.keep ?_
    rw [hescape, encodeFrom_cons fun h => hdots (Bool.and_eq_true_iff.mp h).2]
    rfl

theorem Encoded.plain (hrest : Encoded false (Item.char c false).firm (some c) items)
    (h : ∀ more, items = .char '.' false :: more → Encoded true true (some '.') items)
    (hfree : startsSegment before → free) :
    Encoded false free before (.char c false :: items) := by
  by_cases hdots : startsSegment before && startsWithDots (c :: Template.spelling items)
  · obtain ⟨hstarts, hcdots⟩ := Bool.and_eq_true_iff.mp hdots
    refine .dots hcdots ?_ h (encodeFrom_dots hdots)
    rw [hfree hstarts]
    rfl
  · exact hrest.keep (encodeFrom_cons hdots)

end

theorem firm_of_startsSegment (hescape : c ≠ '\\') (h : startsSegment (some c)) :
    (Item.char c false).firm := by
  simp only [startsSegment, Option.all_some, Bool.or_eq_true, beq_iff_eq, hescape, or_false] at h
  subst h
  rfl

/-- Encoding traversal reworks the items, whatever stands before them. -/
theorem reworked_encodeFrom (hstands : items.stands [])
    {second free : Bool} {before : Option Char}
    (hfree : second = false → startsSegment before → free)
    (hsecond : second = true → ∃ rest, items = .char '.' false :: rest) :
    Encoded second free before items := by
  induction items generalizing second free before with
  | nil =>
      cases second with
      | true => exact nomatch hsecond rfl
      | false => exact ⟨[], rfl, .nil free⟩
  | cons item items ih =>
      obtain ⟨hitem, hitems⟩ := Template.stands_cons.mp hstands
      have hnext {free : Bool} {last : Option Char} (hlast : startsSegment last → free) :
          Encoded false free last items := ih hitems (fun _ => hlast) nofun
      have hsecond' (more : Template) (heq : items = .char '.' false :: more) :
          Encoded true true (some '.') items := ih hitems nofun fun _ => ⟨more, heq⟩
      cases second with
      | true =>
          obtain ⟨rest, heq⟩ := hsecond rfl
          obtain ⟨rfl, -⟩ := List.cons.inj heq
          obtain ⟨items', hspelling, hreworked⟩ := @hnext free (some '.') nofun
          exact ⟨items', hspelling, hreworked⟩
      | false =>
          cases item with
          | char c escaped =>
              cases escaped with
              | true => exact (hnext fun _ => rfl).escape hsecond'
              | false =>
                  have hescape := (Template.standsBefore_char.mp hitem).1.1
                  exact (hnext (firm_of_startsSegment hescape)).plain hsecond' (hfree rfl)
          | param | group | wildcard | blockOpen | blockClose =>
              obtain ⟨last, hlast, hencoded⟩ :=
                encodeFrom_item hitem nofun before (Template.spelling items)
              exact (hnext fun hstarts => by simp [hlast] at hstarts).keep hencoded

theorem reworked_encodeTraversal (hstands : items.stands []) : ∃ items',
    encodeTraversal (Template.spelling items) = Template.spelling items' ∧
      Reworked true [] (items.map encodedItem) items' :=
  @reworked_encodeFrom items hstands false true none (fun _ _ => rfl) nofun

end

end RouteAudit.Remedy
