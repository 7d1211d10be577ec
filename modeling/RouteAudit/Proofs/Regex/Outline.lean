import RouteAudit.Proofs.Regex.Alike

/-! # Texts that close what they open

Going through a text character by character tells roughly where groups and classes open and close:
a parenthesis between brackets is a member, one behind a backslash stands for itself, and one in
the header of a group opens none (`Outline`). It does not tell whether anything in between means
something. Where it says that a text closes what it opens, the reader does not get beyond the end
of the text with anything that begins in it, and takes the same if the text stands alone (`Stays`).
-/

namespace RouteAudit.Regex

/-- Where in a pattern a character stands. Of a bracket it is told how many others are around it. -/
inductive Place where
  | plain
  | escape
  /-- Right behind an opening parenthesis. -/
  | opening
  /-- Behind the question mark there. -/
  | header
  /-- In the name of a group. -/
  | name
  /-- Right behind an opening bracket. -/
  | bracket (around : Nat)
  /-- Right behind the caret there. -/
  | negated (around : Nat)
  /-- Behind the hyphens there. -/
  | hyphens (around : Nat)
  | members (around : Nat)
  | memberEscape (around : Nat)
  /-- Behind a hyphen among the members. -/
  | range (around : Nat)
  /-- Behind the parenthesis that closes the group around it all. -/
  | closed
  deriving Repr, DecidableEq

/-- How far a text has been gone through: how many groups have been opened in it, and where the
next character stands. -/
structure Outline where
  depth : Nat
  place : Place
  deriving Repr, DecidableEq

namespace Place

/-- Goes past a character among the members of a bracket. -/
def afterMember (around : Nat) : Char → Place
  | '\\' => .memberEscape around
  | '[' => .bracket (around + 1)
  | ']' =>
    match around with
    | 0 => .plain
    | around + 1 => .members around
  | '-' => .range around
  | _ => .members around

/-- Goes past the first member of a bracket, which a closing bracket is too. -/
def afterFirst (around : Nat) : Char → Place
  | ']' => .members around
  | '-' => .hyphens around
  | c => afterMember around c

end Place

namespace Outline

/-- Goes past a character that stands between constructs. -/
def afterPlain (depth : Nat) : Char → Outline
  | '\\' => ⟨depth, .escape⟩
  | '(' => ⟨depth + 1, .opening⟩
  | ')' =>
    match depth with
    | 0 => ⟨0, .closed⟩
    | depth + 1 => ⟨depth, .plain⟩
  | '[' => ⟨depth, .bracket 0⟩
  | _ => ⟨depth, .plain⟩

/-- Goes past a character in the header of a group, which may also be a setting of its own. Blanks
and comments have to count. -/
def afterHeader? (depth : Nat) : Char → Option Outline
  | 'x' => none
  | '<' => some ⟨depth, .name⟩
  | ':' => some ⟨depth, .plain⟩
  | ')' =>
    match depth with
    | 0 => none
    | depth + 1 => some ⟨depth, .plain⟩
  | _ => some ⟨depth, .header⟩

/-- Goes past a character. A bracket right behind a hyphen may open a class or end a range. -/
def step? (o : Outline) (c : Char) : Option Outline :=
  match o.place with
  | .plain => some (afterPlain o.depth c)
  | .escape => some { o with place := .plain }
  | .opening => some (if c = '?' then { o with place := .header } else afterPlain o.depth c)
  | .header => afterHeader? o.depth c
  | .name => some (if c = '>' then { o with place := .plain } else o)
  | .bracket around =>
    some { o with place := if c = '^' then .negated around else Place.afterFirst around c }
  | .negated around => some { o with place := Place.afterFirst around c }
  | .hyphens around =>
    some { o with place := if c = '-' then .hyphens around else Place.afterMember around c }
  | .members around => some { o with place := Place.afterMember around c }
  | .memberEscape around => some { o with place := .members around }
  | .range around => if c = '[' then none else some { o with place := Place.afterMember around c }
  | .closed => none

/-- Whether the text ends with the parenthesis that closes the group around it. -/
def closes (o : Outline) : List Char → Bool
  | [] => o.place == .closed
  | c :: cs => (o.step? c).any (·.closes cs)

end Outline

section

variable {α β : Type} {o p : Outline} {c : Char} {cs tail rest word : List Char}
  {depth around : Nat}

namespace Outline

theorem closes_cons : o.closes (c :: cs) ↔ ∃ p, o.step? c = some p ∧ p.closes cs := by
  rw [closes, Option.any_eq_true]

theorem closes_plain : closes ⟨depth, .plain⟩ (c :: cs) = (afterPlain depth c).closes cs := rfl

theorem closes_opening : closes ⟨depth, .opening⟩ (c :: cs) =
    (if c = '?' then closes ⟨depth, .header⟩ cs else closes ⟨depth, .plain⟩ (c :: cs)) := by
  show closes (if c = '?' then _ else _) cs = _
  split <;> rfl

theorem closes_header : closes ⟨depth, .header⟩ (c :: cs) =
    (afterHeader? depth c).any (·.closes cs) := rfl

theorem closes_name : closes ⟨depth, .name⟩ (c :: cs) =
    closes ⟨depth, if c = '>' then .plain else .name⟩ cs := by
  show closes (if c = '>' then _ else _) cs = _
  split <;> rfl

theorem closes_bracket : closes ⟨depth, .bracket around⟩ (c :: cs) =
    (if c = '^' then closes ⟨depth, .negated around⟩ cs
      else closes ⟨depth, .negated around⟩ (c :: cs)) := by
  show closes ⟨depth, if c = '^' then _ else _⟩ cs = _
  split <;> rfl

theorem closes_negated : closes ⟨depth, .negated around⟩ (c :: cs) =
    closes ⟨depth, Place.afterFirst around c⟩ cs := rfl

theorem closes_hyphens : closes ⟨depth, .hyphens around⟩ (c :: cs) =
    (if c = '-' then closes ⟨depth, .hyphens around⟩ cs
      else closes ⟨depth, .members around⟩ (c :: cs)) := by
  show closes ⟨depth, if c = '-' then _ else _⟩ cs = _
  split <;> rfl

theorem closes_members : closes ⟨depth, .members around⟩ (c :: cs) =
    closes ⟨depth, Place.afterMember around c⟩ cs := rfl

theorem closes_range : closes ⟨depth, .range around⟩ (c :: cs) =
    (c != '[' && closes ⟨depth, .members around⟩ (c :: cs)) := by
  show (if c = '[' then none else some _ : Option Outline).any (·.closes cs) = _
  by_cases hc : c = '['
  · simp [hc]
  · rw [if_neg hc, bne_iff_ne.mpr hc]
    rfl

theorem ne_nil_of_closes (ho : o.place ≠ .closed) (h : o.closes cs) : cs ≠ [] := by
  rintro rfl
  exact ho (beq_iff_eq.mp h)

/-- Nothing stands behind the end. -/
theorem eq_nil_of_closed (h : closes ⟨depth, .closed⟩ cs) : cs = [] := by
  cases cs with
  | nil => rfl
  | cons c cs => cases h

theorem members_of_range (h : closes ⟨depth, .range around⟩ cs) :
    closes ⟨depth, .members around⟩ cs := by
  cases cs with
  | nil => cases h
  | cons c cs =>
      rw [closes_range, Bool.and_eq_true] at h
      exact h.2

/-- A place where characters without a meaning of their own are passed. -/
structure Idle (o : Outline) : Prop where
  unclosed : o.place ≠ .closed
  skip : ∀ {c cs}, Unicode.isSign c = false → o.closes (c :: cs) → o.closes cs

theorem idle_plain (depth : Nat) : Idle ⟨depth, .plain⟩ where
  unclosed := nofun
  skip {c cs} hc h := by
    have hplain : afterPlain depth c = ⟨depth, .plain⟩ := by
      unfold afterPlain
      split <;> first | rfl | cases hc
    rwa [closes_plain, hplain] at h

theorem idle_members (depth around : Nat) : Idle ⟨depth, .members around⟩ where
  unclosed := nofun
  skip {c cs} hc h := by
    rw [closes_members] at h
    unfold Place.afterMember at h
    split at h
    case h_4 => exact members_of_range h
    case h_5 => exact h
    all_goals cases hc

/-- A word without signs lies in the text if it begins there. -/
theorem Idle.append (ho : o.Idle) (hword : ∀ c ∈ word, Unicode.isSign c = false) (h : o.closes cs)
    (heq : cs ++ tail = word ++ rest) :
    ∃ behind, cs = word ++ behind ∧ rest = behind ++ tail ∧ o.closes behind := by
  induction word generalizing cs with
  | nil => exact ⟨cs, rfl, heq.symm, h⟩
  | cons c word ih =>
      obtain ⟨hc, hwords⟩ := List.forall_mem_cons.mp hword
      cases cs with
      | nil => exact absurd rfl (ne_nil_of_closes ho.unclosed h)
      | cons d cs =>
          obtain ⟨rfl, hrest⟩ := List.cons.inj heq
          obtain ⟨behind, rfl, hbehind⟩ := ih hwords (ho.skip hc h) hrest
          exact ⟨behind, rfl, hbehind⟩

end Outline

/-- What is read of a text that closes what it opens is read of it alone too, and the rest of the
text closes what it opens from another outline on. -/
def Stays (read : List Char → Option (α × List Char)) (o : Outline) (after : α → Outline) : Prop :=
  ∀ {tail cs rest : List Char} {a : α}, o.closes cs → read (cs ++ tail) = some (a, rest) →
    ∃ behind, rest = behind ++ tail ∧ read cs = some (a, behind) ∧ (after a).closes behind ∧
      behind.length ≤ cs.length

/-! ## Escapes -/

variable {flags : Flags}

theorem next_of_strict (h : flags.loose = false) (cs : List Char) : flags.next cs = cs := by
  rw [Flags.next, h]
  rfl

theorem takeCounted_of_strict (keep : Char → Bool) (cs : List Char) :
    takeCounted false keep false cs = cs.span keep := by
  induction cs with
  | nil => rfl
  | cons c cs ih =>
      rw [takeCounted, ih]
      cases hc : keep c <;> simp [hc, List.span_eq_takeWhile_dropWhile]

/-- What is taken without a sign, up to a character that is none, lies in the text. -/
theorem Outline.Idle.span (ho : o.Idle) (h : o.closes cs) {inside : List Char} {keep : Char → Bool}
    {stop : Char} (hstop : Unicode.isSign stop = false)
    (hinside : ∀ c ∈ inside, Unicode.isSign c = false)
    (hspan : (cs ++ tail).span keep = (inside, stop :: rest)) :
    ∃ behind, rest = behind ++ tail ∧ cs.span keep = (inside, stop :: behind) ∧ o.closes behind ∧
      behind.length < cs.length := by
  obtain ⟨heq, hkeep, hends⟩ := Text.span_eq_iff.mp hspan
  have hword : ∀ c ∈ inside ++ [stop], Unicode.isSign c = false :=
    List.forall_mem_append.mpr ⟨hinside, List.forall_mem_singleton.mpr hstop⟩
  rw [List.append_cons] at heq
  obtain ⟨behind, rfl, hrest, hbehind⟩ := ho.append hword h heq
  refine ⟨behind, hrest, Text.span_eq_iff.mpr ⟨by simp, hkeep, hends⟩, hbehind, ?_⟩
  simp only [List.length_append, List.length_singleton]
  omega

section

variable (hstrict : flags.loose = false)
include hstrict

theorem stays_takeHex? (ho : o.Idle) (n : Nat) : Stays (takeHex? flags n) o fun _ => o := by
  induction n with
  | zero =>
      intro tail cs rest digits h htake
      obtain ⟨rfl, rfl⟩ := Prod.mk.inj (Option.some.inj htake)
      exact ⟨cs, rfl, rfl, h, Nat.le_refl _⟩
  | succ n ih =>
      intro tail cs rest digits h htake
      cases cs with
      | nil => exact absurd rfl (Outline.ne_nil_of_closes ho.unclosed h)
      | cons c cs =>
      rw [takeHex?, next_of_strict hstrict] at htake
      obtain ⟨value, hvalue, htake⟩ := Option.bind_eq_some_iff.mp htake
      obtain ⟨⟨more, last⟩, hmore, heq⟩ := Option.bind_eq_some_iff.mp htake
      obtain ⟨rfl, rfl⟩ := Prod.mk.inj (Option.some.inj heq)
      obtain ⟨behind, rfl, hread, hbehind, hlength⟩ :=
        ih (ho.skip (not_isSign_of_hexValue? hvalue) h) hmore
      refine ⟨behind, rfl, ?_, hbehind, by rw [List.length_cons]; omega⟩
      rw [takeHex?, next_of_strict hstrict]
      simp [hvalue, hread]

theorem stays_readHex? (ho : o.Idle) (digits : Nat) :
    Stays (readHex? flags digits) o fun _ => o := by
  intro tail cs rest escaped h hread
  cases cs with
  | nil => exact absurd rfl (Outline.ne_nil_of_closes ho.unclosed h)
  | cons c cs =>
  by_cases hc : c = '\x7b'
  · subst hc
    simp only [readHex?, List.cons_append, next_of_strict hstrict, hstrict,
      takeCounted_of_strict] at hread ⊢
    split at hread
    next inside last hspan =>
      obtain ⟨d, hd, heq⟩ := Option.map_eq_some_iff.mp hread
      obtain ⟨rfl, rfl⟩ := Prod.mk.inj heq
      obtain ⟨behind, rfl, hspan', hbehind, hlength⟩ :=
        ho.span (ho.skip rfl h) rfl (not_isSign_of_charOfHex? hd) hspan
      refine ⟨behind, rfl, ?_, hbehind, ?_⟩
      · simp only [hspan', hd, Option.map_some]
      · rw [List.length_cons]
        omega
    next => cases hread
  · have hdigits (cs : List Char) : readHex? flags digits (c :: cs) =
        (takeHex? flags digits (c :: cs)).bind fun taken =>
          (charOfHex? taken.1).bind fun d => some (.char d (digits == 2), taken.2) := by
      rw [readHex?, next_of_strict hstrict]
      split
      next heq => exact absurd (List.cons.inj heq).1 hc
      next =>
        simp only [next_of_strict hstrict]
        rfl
    rw [List.cons_append, hdigits] at hread
    obtain ⟨⟨inside, last⟩, htake, hread⟩ := Option.bind_eq_some_iff.mp hread
    obtain ⟨d, hd, heq⟩ := Option.bind_eq_some_iff.mp hread
    obtain ⟨rfl, rfl⟩ := Prod.mk.inj (Option.some.inj heq)
    obtain ⟨behind, rfl, hread, hbehind, hlength⟩ := stays_takeHex? hstrict ho digits h htake
    refine ⟨behind, rfl, ?_, hbehind, hlength⟩
    rw [hdigits, hread]
    simp only [Option.bind_some, hd]

theorem stays_readProperty? (ho : o.Idle) (negated : Bool) :
    Stays (readProperty? flags negated) o fun _ => o := by
  intro tail cs rest escaped h hread
  cases cs with
  | nil => exact absurd rfl (Outline.ne_nil_of_closes ho.unclosed h)
  | cons c cs =>
  by_cases hc : c = '\x7b'
  · subst hc
    simp only [readProperty?, List.cons_append, next_of_strict hstrict, hstrict,
      takeCounted_of_strict] at hread ⊢
    split at hread
    next inside last hspan =>
      obtain ⟨set, hset, heq⟩ := Option.map_eq_some_iff.mp hread
      obtain ⟨rfl, rfl⟩ := Prod.mk.inj heq
      obtain ⟨behind, rfl, hspan', hbehind, hlength⟩ :=
        ho.span (ho.skip rfl h) rfl (not_isSign_of_propertyClass? hset) hspan
      refine ⟨behind, rfl, ?_, hbehind, ?_⟩
      · simp only [hspan', hset, Option.map_some]
      · rw [List.length_cons]
        omega
    next => cases hread
  · have hescape : c ≠ '\\' := by
      rintro rfl
      rw [List.cons_append, readProperty?, next_of_strict hstrict] at hread
      cases hread
    have hletter (cs : List Char) : readProperty? flags negated (c :: cs) =
        (propertyClass? flags negated [c]).map fun set => (.set set, cs) := by
      rw [readProperty?, next_of_strict hstrict]
      split
      next heq => cases heq
      next heq => exact absurd (List.cons.inj heq).1 hc
      next heq => exact absurd (List.cons.inj heq).1 hescape
      next heq =>
        obtain ⟨rfl, rfl⟩ := List.cons.inj heq
        rw [next_of_strict hstrict]
    rw [List.cons_append, hletter] at hread
    obtain ⟨set, hset, heq⟩ := Option.map_eq_some_iff.mp hread
    obtain ⟨rfl, rfl⟩ := Prod.mk.inj heq
    have hc := not_isSign_of_propertyClass? hset c List.mem_cons_self
    refine ⟨cs, rfl, ?_, ho.skip hc h, by simp⟩
    rw [hletter, hset]
    rfl

theorem stays_readWordEdge? (ho : o.Idle) : Stays (readWordEdge? flags) o fun _ => o := by
  intro tail cs rest escaped h hread
  cases cs with
  | nil => exact absurd rfl (Outline.ne_nil_of_closes ho.unclosed h)
  | cons c cs =>
  by_cases hc : c = '\x7b'
  · subst hc
    have hinside := ho.skip rfl h
    cases cs with
    | nil => exact absurd rfl (Outline.ne_nil_of_closes ho.unclosed hinside)
    | cons d cs =>
    simp only [readWordEdge?, List.cons_append, next_of_strict hstrict, hstrict,
      takeCounted_of_strict] at hread ⊢
    split at hread
    next hname =>
      rw [if_pos hname]
      split at hread
      next name last hspan =>
        obtain ⟨look, hlook, heq⟩ := Option.map_eq_some_iff.mp hread
        obtain ⟨rfl, rfl⟩ := Prod.mk.inj heq
        have hname : ∀ c ∈ name, Unicode.isSign c = false := fun c hc =>
          Unicode.not_isSign_of (p := fun c => c.isAlpha || c == '-') (by decide)
            ((Text.span_eq_iff.mp hspan).2.1 c hc)
        rw [← List.cons_append] at hspan
        obtain ⟨behind, rfl, hspan', hbehind, hlength⟩ := ho.span hinside rfl hname hspan
        refine ⟨behind, rfl, ?_, hbehind, ?_⟩
        · simp only [hspan', hlook, Option.map_some]
        · rw [List.length_cons]
          omega
      next => cases hread
    next hname =>
      rw [if_neg hname]
      obtain ⟨rfl, rfl⟩ := Prod.mk.inj (Option.some.inj hread)
      exact ⟨_, rfl, rfl, h, Nat.le_refl _⟩
  · have hplain (cs : List Char) : readWordEdge? flags (c :: cs) =
        some (.look (.wordEdge flags.unicode), c :: cs) := by
      unfold readWordEdge?
      dsimp only
      split
      next heq => exact absurd (List.cons.inj heq).1 hc
      next => rfl
    rw [List.cons_append, hplain] at hread
    obtain ⟨rfl, rfl⟩ := Prod.mk.inj (Option.some.inj hread)
    exact ⟨_, rfl, hplain cs, h, Nat.le_refl _⟩

/-- An escape stays in the text with all that it takes behind its first character. -/
theorem stays_readEscape? (ho : o.Idle) (h : o.closes cs) {c : Char} {escaped : Escaped}
    (hread : readEscape? flags (c :: (cs ++ tail)) = some (escaped, rest)) :
    ∃ behind, rest = behind ++ tail ∧ readEscape? flags (c :: cs) = some (escaped, behind) ∧
      o.closes behind ∧ behind.length ≤ cs.length := by
  unfold readEscape? at hread ⊢
  dsimp only at hread ⊢
  split at hread
  next hescapable =>
    obtain ⟨rfl, rfl⟩ := Prod.mk.inj (Option.some.inj hread)
    exact ⟨cs, rfl, if_pos hescapable, h, Nat.le_refl _⟩
  next hescapable =>
    rw [if_neg hescapable]
    split at hread
    · exact stays_readHex? hstrict ho 2 h hread
    · exact stays_readHex? hstrict ho 4 h hread
    · exact stays_readHex? hstrict ho 8 h hread
    · exact stays_readProperty? hstrict ho false h hread
    · exact stays_readProperty? hstrict ho true h hread
    case h_14 => exact stays_readWordEdge? hstrict ho h hread
    case h_18 =>
      obtain ⟨set, hset, heq⟩ := Option.map_eq_some_iff.mp hread
      obtain ⟨rfl, rfl⟩ := Prod.mk.inj heq
      refine ⟨cs, rfl, ?_, h, Nat.le_refl _⟩
      rw [hset]
      rfl
    all_goals
      obtain ⟨rfl, rfl⟩ := Prod.mk.inj (Option.some.inj hread)
      exact ⟨cs, rfl, rfl, h, Nat.le_refl _⟩

end

end

end RouteAudit.Regex
