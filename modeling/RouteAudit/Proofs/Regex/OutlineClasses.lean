import RouteAudit.Proofs.Regex.AlikeClasses
import RouteAudit.Proofs.Regex.Outline

/-! # Classes that close in the text they open in

The outline of a bracket is that of the reader: where it says that a text closes what it opens, a
class is read up to its last bracket, as far as the outline has it, and no farther.
-/

namespace RouteAudit.Regex

section

variable {o : Outline} {c : Char} {cs tail rest : List Char} {depth around : Nat} {flags : Flags}

namespace Outline

theorem members_of_negated (hhyphen : c ≠ '-') (hclose : c ≠ ']')
    (h : closes ⟨depth, .negated around⟩ (c :: cs)) :
    closes ⟨depth, .members around⟩ (c :: cs) := by
  rw [closes_negated] at h
  unfold Place.afterFirst at h
  split at h
  next => exact absurd rfl hclose
  next => exact absurd rfl hhyphen
  next => exact h

/-- A character that is neither a bracket nor a backslash is passed among members. -/
theorem members_of_cons (hopen : c ≠ '[') (hclose : c ≠ ']') (hescape : c ≠ '\\')
    (h : closes ⟨depth, .members around⟩ (c :: cs)) : closes ⟨depth, .members around⟩ cs := by
  rw [closes_members] at h
  unfold Place.afterMember at h
  split at h
  next => exact absurd rfl hescape
  next => exact absurd rfl hopen
  next => exact absurd rfl hclose
  next => exact members_of_range h
  next => exact h

end Outline

theorem leadingHyphens_cons (hc : c ≠ '-') (fuel : Nat) (items : List ClassPart)
    (cs : List Char) :
    Bracket.leadingHyphens flags fuel items (c :: cs) = some (items, c :: cs) := by
  unfold Bracket.leadingHyphens
  split
  next heq => cases heq
  next heq => exact absurd (List.cons.inj heq).1 hc
  next => rfl

theorem openItems?_of_items {negated : Bool} {items : List ClassPart}
    (hread : Bracket.leadingHyphens flags cs.length [] cs = some (items, rest))
    (hsome : items ≠ []) :
    Bracket.openItems? flags negated cs = some (⟨negated, items, none⟩, rest) := by
  rw [Bracket.openItems?, hread]
  cases items with
  | nil => exact absurd rfl hsome
  | cons => rfl

/-! ## Members -/

section

variable (hstrict : flags.loose = false)
include hstrict

theorem stays_readClassAtom? (h : Outline.closes ⟨depth, .members around⟩ cs)
    (hopen : cs.head? ≠ some '[') (hclose : cs.head? ≠ some ']') {a : ClassAtom}
    (hread : ClassAtom.read? flags (cs ++ tail) = some (a, rest)) :
    ∃ behind, rest = behind ++ tail ∧ ClassAtom.read? flags cs = some (a, behind) ∧
      Outline.closes ⟨depth, .members around⟩ behind ∧ behind.length < cs.length := by
  cases cs with
  | nil => cases h
  | cons c cs =>
  by_cases hc : c = '\\'
  · subst hc
    cases cs with
    | nil => cases h
    | cons c cs =>
    have hbehind : Outline.closes ⟨depth, .members around⟩ cs := h
    rw [List.cons_append, List.cons_append, ClassAtom.read?] at hread
    rw [ClassAtom.read?]
    split at hread
    next d asByte last hescape =>
      split at hread
      next hallowed =>
        obtain ⟨rfl, rfl⟩ := Prod.mk.inj (Option.some.inj hread)
        obtain ⟨behind, rfl, hescape, hbehind, hlength⟩ :=
          stays_readEscape? hstrict (Outline.idle_members _ _) hbehind hescape
        refine ⟨behind, rfl, by simp only [hescape, if_pos hallowed], hbehind, ?_⟩
        simp only [List.length_cons]
        omega
      next => cases hread
    next set last hescape =>
      obtain ⟨rfl, rfl⟩ := Prod.mk.inj (Option.some.inj hread)
      obtain ⟨behind, rfl, hescape, hbehind, hlength⟩ :=
        stays_readEscape? hstrict (Outline.idle_members _ _) hbehind hescape
      refine ⟨behind, rfl, by simp only [hescape], hbehind, ?_⟩
      simp only [List.length_cons]
      omega
    next => cases hread
    next => cases hread
  · have hplain (cs : List Char) : ClassAtom.read? flags (c :: cs) =
        if flags.unicode || c.toNat < 128 then some (.char c, cs) else none := by
      rw [ClassAtom.read?]
      exact hc
    rw [List.cons_append, hplain] at hread
    split at hread
    next hallowed =>
      obtain ⟨rfl, rfl⟩ := Prod.mk.inj (Option.some.inj hread)
      refine ⟨cs, rfl, (hplain cs).trans (if_pos hallowed), ?_, Nat.lt_succ_self _⟩
      exact Outline.members_of_cons (by simpa using hopen) (by simpa using hclose) hc h
    next => cases hread

theorem afterHyphen?_strict (cs : List Char) : afterHyphen? flags cs = cs.head? := by
  rw [afterHyphen?, hstrict]
  rfl

/-- What ends a range is one member: an opening bracket has no place behind the hyphen. -/
theorem stays_rangeEnd (h : Outline.closes ⟨depth, .range around⟩ cs)
    (hclose : cs.head? ≠ some ']') {last : ClassAtom}
    (hread : ClassAtom.read? flags (cs ++ tail) = some (last, rest)) :
    ∃ behind, rest = behind ++ tail ∧ ClassAtom.read? flags cs = some (last, behind) ∧
      Outline.closes ⟨depth, .members around⟩ behind ∧ behind.length < cs.length := by
  cases cs with
  | nil => cases h
  | cons c cs =>
      have hopen : (c :: cs).head? ≠ some '[' := by
        rintro heq
        obtain rfl := Option.some.inj heq
        cases h
      exact stays_readClassAtom? hstrict (Outline.members_of_range h) hopen hclose hread

theorem stays_readRange? (h : Outline.closes ⟨depth, .members around⟩ cs)
    (hopen : cs.head? ≠ some '[') (hclose : cs.head? ≠ some ']') {set : CharSet}
    (hread : readRange? flags (cs ++ tail) = some (set, rest)) :
    ∃ behind, rest = behind ++ tail ∧ readRange? flags cs = some (set, behind) ∧
      Outline.closes ⟨depth, .members around⟩ behind ∧ behind.length < cs.length := by
  obtain ⟨⟨first, last⟩, hfirst, hread⟩ := Option.bind_eq_some_iff.mp hread
  obtain ⟨behind, rfl, hfirst, hbehind, hlength⟩ :=
    stays_readClassAtom? hstrict h hopen hclose hfirst
  simp only [readRange?, hfirst, Option.bind_eq_bind, Option.bind_some]
  cases behind with
  | nil => cases hbehind
  | cons d behind =>
  simp only [List.cons_append, next_of_strict hstrict] at hread ⊢
  by_cases hd : d = '-'
  · subst hd
    have hrange : Outline.closes ⟨depth, .range around⟩ behind := hbehind
    cases behind with
    | nil => cases hrange
    | cons e behind =>
    simp only [afterHyphen?_strict hstrict, List.cons_append, List.head?_cons] at hread ⊢
    split at hread
    next hitself =>
      rw [if_pos hitself]
      obtain ⟨rfl, rfl⟩ := Prod.mk.inj (Option.some.inj hread)
      exact ⟨_, rfl, rfl, hbehind, hlength⟩
    next hitself =>
      rw [if_neg hitself]
      obtain ⟨⟨second, last⟩, hsecond, hread⟩ := Option.bind_eq_some_iff.mp hread
      rw [← List.cons_append] at hsecond
      obtain ⟨behind', rfl, hsecond, hbehind', hlength'⟩ :=
        stays_rangeEnd hstrict hrange (fun heq => hitself (.inl heq)) hsecond
      simp only [hsecond, Option.bind_some]
      cases first with
      | set => cases hread
      | char first =>
      cases second with
      | set => cases hread
      | char second =>
          dsimp only at hread ⊢
          split at hread
          next hle =>
            obtain ⟨rfl, rfl⟩ := Prod.mk.inj (Option.some.inj hread)
            refine ⟨behind', rfl, by rw [if_pos hle], hbehind', ?_⟩
            simp only [List.length_cons] at hlength hlength'
            omega
          next => cases hread
  · split at hread
    next heq => cases heq
    next heq => exact absurd (List.cons.inj heq).1 hd
    next =>
      obtain ⟨rfl, rfl⟩ := Prod.mk.inj (Option.some.inj hread)
      refine ⟨d :: behind, rfl, ?_, hbehind, hlength⟩
      split
      next heq => cases heq
      next heq => exact absurd (List.cons.inj heq).1 hd
      next => rfl

/-! ## Openings -/

/-- The hyphens right behind an opening are members up to the last one. -/
theorem stays_leadingHyphens {fuel fuel' : Nat} {items found : List ClassPart}
    (h : Outline.closes ⟨depth, .hyphens around⟩ cs) (hfuel : cs.length ≤ fuel)
    (hfuel' : cs.length ≤ fuel')
    (hread : Bracket.leadingHyphens flags fuel items (cs ++ tail) = some (found, rest))
    (hitems : items ≠ []) : ∃ behind, rest = behind ++ tail ∧
      Bracket.leadingHyphens flags fuel' items cs = some (found, behind) ∧ found ≠ [] ∧
        Outline.closes ⟨depth, .members around⟩ behind ∧ behind.length ≤ cs.length := by
  induction cs generalizing fuel fuel' items with
  | nil => cases h
  | cons c cs ih =>
      obtain ⟨fuel, rfl⟩ : ∃ more, fuel = more + 1 :=
        Nat.exists_eq_succ_of_ne_zero (by rw [List.length_cons] at hfuel; omega)
      obtain ⟨fuel', rfl⟩ : ∃ more, fuel' = more + 1 :=
        Nat.exists_eq_succ_of_ne_zero (by rw [List.length_cons] at hfuel'; omega)
      rw [Outline.closes_hyphens] at h
      by_cases hc : c = '-'
      · subst hc
        rw [List.cons_append, Bracket.leadingHyphens, next_of_strict hstrict] at hread
        obtain ⟨behind, rfl, hread, hfound, hbehind, hlength⟩ :=
          ih h (Nat.le_of_succ_le_succ hfuel) (Nat.le_of_succ_le_succ hfuel') hread
            (List.cons_ne_nil _ _)
        rw [Bracket.leadingHyphens, next_of_strict hstrict]
        exact ⟨behind, rfl, hread, hfound, hbehind, Nat.le_succ_of_le hlength⟩
      · rw [if_neg hc] at h
        rw [List.cons_append, leadingHyphens_cons hc] at hread
        obtain ⟨rfl, rfl⟩ := Prod.mk.inj (Option.some.inj hread)
        exact ⟨c :: cs, rfl, leadingHyphens_cons hc _ _ _, hitems, h, Nat.le_refl _⟩

theorem stays_openItems? (h : Outline.closes ⟨depth, .negated around⟩ cs) {negated : Bool}
    {bracket : Bracket}
    (hread : Bracket.openItems? flags negated (cs ++ tail) = some (bracket, rest)) :
    ∃ behind, rest = behind ++ tail ∧
      Bracket.openItems? flags negated cs = some (bracket, behind) ∧
        Outline.closes ⟨depth, .members around⟩ behind ∧ behind.length ≤ cs.length := by
  cases cs with
  | nil => cases h
  | cons c cs =>
  by_cases hhyphen : c = '-'
  · subst hhyphen
    have hstep (cs : List Char) :
        Bracket.leadingHyphens flags ('-' :: cs).length [] ('-' :: cs) =
          Bracket.leadingHyphens flags cs.length [⟨.single '-', 0⟩] cs := by
      rw [List.length_cons, Bracket.leadingHyphens, next_of_strict hstrict]
    obtain ⟨⟨found, last⟩, hhyphens, -⟩ := Option.bind_eq_some_iff.mp hread
    have hfuel : cs.length ≤ (cs ++ tail).length := by simp
    obtain ⟨behind, rfl, hbehind, hfound, hmembers, hlength⟩ := stays_leadingHyphens hstrict h
      hfuel (Nat.le_refl _) ((hstep _).symm.trans hhyphens) (List.cons_ne_nil _ _)
    rw [openItems?_of_items hhyphens hfound] at hread
    obtain ⟨rfl, rfl⟩ := Prod.mk.inj (Option.some.inj hread)
    exact ⟨behind, rfl, openItems?_of_items ((hstep _).trans hbehind) hfound, hmembers,
      Nat.le_succ_of_le hlength⟩
  · simp only [Bracket.openItems?, List.cons_append, leadingHyphens_cons hhyphen,
      Option.bind_eq_bind, Option.bind_some] at hread ⊢
    by_cases hclose : c = ']'
    · subst hclose
      have hmembers : Outline.closes ⟨depth, .members around⟩ cs := h
      cases cs with
      | nil => cases hmembers
      | cons d cs =>
      simp only [next_of_strict hstrict, List.cons_append] at hread ⊢
      obtain ⟨rfl, rfl⟩ := Prod.mk.inj (Option.some.inj hread)
      exact ⟨d :: cs, rfl, rfl, hmembers, Nat.le_succ _⟩
    · split at hread
      next heq => exact absurd (List.cons.inj heq).1 hclose
      next =>
        obtain ⟨rfl, rfl⟩ := Prod.mk.inj (Option.some.inj hread)
        refine ⟨c :: cs, rfl, ?_, Outline.members_of_negated hhyphen hclose h, Nat.le_refl _⟩
        split
        next heq => exact absurd (List.cons.inj heq).1 hclose
        next => rfl

theorem stays_openBracket? (h : Outline.closes ⟨depth, .bracket around⟩ cs) {bracket : Bracket}
    (hread : Bracket.open? flags (cs ++ tail) = some (bracket, rest)) :
    ∃ behind, rest = behind ++ tail ∧ Bracket.open? flags cs = some (bracket, behind) ∧
      Outline.closes ⟨depth, .members around⟩ behind ∧ behind.length ≤ cs.length := by
  cases cs with
  | nil => cases h
  | cons c cs =>
  rw [Outline.closes_bracket] at h
  rw [open?_eq] at hread ⊢
  by_cases hc : c = '^'
  · subst hc
    have hnegation (cs : List Char) : Bracket.negation flags ('^' :: cs) = (true, cs) := by
      rw [Bracket.negation, next_of_strict hstrict]
      simp only [next_of_strict hstrict]
    rw [List.cons_append, hnegation] at hread
    rw [hnegation]
    obtain ⟨behind, hbehind⟩ := stays_openItems? hstrict h hread
    exact ⟨behind, hbehind.1, hbehind.2.1, hbehind.2.2.1, Nat.le_succ_of_le hbehind.2.2.2⟩
  · rw [if_neg hc] at h
    have hnegation (cs : List Char) : Bracket.negation flags (c :: cs) = (false, c :: cs) := by
      rw [Bracket.negation, next_of_strict hstrict]
      split
      next heq => exact absurd (List.cons.inj heq).1 hc
      next => rfl
    rw [List.cons_append, hnegation, ← List.cons_append] at hread
    rw [hnegation]
    exact stays_openItems? hstrict h hread

end

/-! ## Brackets -/

/-- A named class lies in the text if it begins there. -/
theorem Outline.append_asciiClassText (h : closes ⟨depth, .bracket (around + 1)⟩ cs)
    {negated : Bool} {name : List Char} {set : CharSet}
    (hset : asciiClass? (String.ofList name) = some set)
    (heq : cs ++ tail = asciiClassText negated name ++ rest) :
    ∃ behind, cs = asciiClassText negated name ++ behind ∧ rest = behind ++ tail ∧
      closes ⟨depth, .members around⟩ behind := by
  let word : List Char := (if negated then ['^'] else []) ++ name ++ [':']
  have htext (rest : List Char) :
      asciiClassText negated name ++ rest = ':' :: (word ++ ']' :: rest) := by
    simp [asciiClassText, word]
  have hword : ∀ c ∈ word, Unicode.isSign c = false := by
    have hname (c : Char) (hc : c ∈ name) : Unicode.isSign c = false :=
      Unicode.not_isSign_of (p := fun c => c.isLower) (by decide) (isLower_of_asciiClass? hset c hc)
    intro c hc
    simp only [word, List.mem_append, List.mem_singleton] at hc
    rcases hc with (hc | hc) | rfl
    · cases negated with
      | true =>
          obtain rfl := List.mem_singleton.mp hc
          rfl
      | false => cases hc
    · exact hname c hc
    · rfl
  rw [htext] at heq
  cases cs with
  | nil => cases h
  | cons c cs =>
  obtain ⟨rfl, hwords⟩ := List.cons.inj heq
  have hmembers : closes ⟨depth, .members (around + 1)⟩ cs := h
  obtain ⟨behind, rfl, hrest, hbehind⟩ := (idle_members _ _).append hword hmembers hwords
  cases behind with
  | nil => cases hbehind
  | cons d behind =>
  obtain ⟨rfl, rfl⟩ := List.cons.inj hrest
  exact ⟨behind, (htext behind).symm, rfl, hbehind⟩

/-- A named class that is read with more behind it is read alone. -/
theorem stays_readAsciiClass? (h : Outline.closes ⟨depth, .bracket (around + 1)⟩ cs)
    {negated : Bool} {set : CharSet}
    (hread : readAsciiClass? (cs ++ tail) = some (negated, set, rest)) :
    ∃ behind, rest = behind ++ tail ∧ readAsciiClass? cs = some (negated, set, behind) ∧
      Outline.closes ⟨depth, .members around⟩ behind ∧ behind.length ≤ cs.length := by
  obtain ⟨name, hset, hword⟩ := readAsciiClass?_spec hread
  obtain ⟨behind, rfl, rfl, hbehind⟩ := Outline.append_asciiClassText h hset hword
  refine ⟨behind, rfl, readAsciiClass?_of_text hset _, hbehind, ?_⟩
  rw [List.length_append]
  exact Nat.le_add_left _ _

/-- What names no class with more behind it names none alone. -/
theorem readAsciiClass?_of_append (h : readAsciiClass? (cs ++ tail) = none) :
    readAsciiClass? cs = none := by
  cases hread : readAsciiClass? cs with
  | none => rfl
  | some found =>
      obtain ⟨negated, set, last⟩ := found
      obtain ⟨name, hset, rfl⟩ := readAsciiClass?_spec hread
      rw [List.append_assoc, readAsciiClass?_of_text hset] at h
      cases h

section

variable (hstrict : flags.loose = false)
include hstrict

theorem stays_readBracket? {fuel fuel' : Nat} {outer : List Bracket} {bracket : Bracket}
    {part : ClassPart} (hfuel : cs.length < fuel')
    (h : Outline.closes ⟨depth, .members outer.length⟩ cs)
    (hread : readBracket? flags fuel outer bracket (cs ++ tail) = some (part, rest)) :
    ∃ behind, rest = behind ++ tail ∧
      readBracket? flags fuel' outer bracket cs = some (part, behind) ∧
        Outline.closes ⟨depth, .plain⟩ behind ∧ behind.length ≤ cs.length := by
  induction fuel generalizing fuel' outer bracket cs with
  | zero => cases hread
  | succ fuel ih =>
  obtain ⟨fuel', rfl⟩ : ∃ more, fuel' = more + 1 := Nat.exists_eq_succ_of_ne_zero (by omega)
  cases cs with
  | nil => cases h
  | cons c cs =>
  have hshorter : cs.length < fuel' := Nat.lt_of_succ_lt_succ hfuel
  rw [readBracket?, next_of_strict hstrict] at hread
  split at hread
  case h_1 heq => cases heq
  case h_2 heq =>
    obtain ⟨rfl, rfl⟩ := List.cons.inj heq
    have hbracket : Outline.closes ⟨depth, .bracket (outer.length + 1)⟩ cs := h
    rw [readBracket?, next_of_strict hstrict]
    simp only
    split at hread
    next negated set last hnamed =>
      obtain ⟨behind, rfl, hnamed, hbehind, hlength⟩ := stays_readAsciiClass? hbracket hnamed
      obtain ⟨closed, hclosed, hread⟩ := Option.bind_eq_some_iff.mp hread
      obtain ⟨behind', rfl, hread, hplain, hlength'⟩ :=
        ih (Nat.lt_of_le_of_lt hlength hshorter) hbehind hread
      simp only [hnamed, hclosed, Option.bind_eq_bind, Option.bind_some]
      exact ⟨behind', rfl, hread, hplain, by rw [List.length_cons]; omega⟩
    next hnone =>
      obtain ⟨⟨inner, last⟩, hinner, hread⟩ := Option.bind_eq_some_iff.mp hread
      obtain ⟨behind, rfl, hinner, hbehind, hlength⟩ :=
        stays_openBracket? hstrict hbracket hinner
      have hinside : Outline.closes ⟨depth, .members (bracket :: outer).length⟩ behind := hbehind
      obtain ⟨behind', rfl, hread, hplain, hlength'⟩ :=
        ih (Nat.lt_of_le_of_lt hlength hshorter) hinside hread
      simp only [readAsciiClass?_of_append hnone, hinner, Option.bind_eq_bind, Option.bind_some]
      exact ⟨behind', rfl, hread, hplain, by rw [List.length_cons]; omega⟩
  case h_3 heq =>
    obtain ⟨rfl, rfl⟩ := List.cons.inj heq
    obtain ⟨closed, hclosed, hread⟩ := Option.bind_eq_some_iff.mp hread
    rw [readBracket?, next_of_strict hstrict]
    simp only [hclosed, Option.bind_eq_bind, Option.bind_some]
    cases outer with
    | nil =>
        obtain ⟨rfl, rfl⟩ := Prod.mk.inj (Option.some.inj hread)
        exact ⟨cs, rfl, rfl, h, Nat.le_succ _⟩
    | cons enclosing outer =>
        have hmembers : Outline.closes ⟨depth, .members outer.length⟩ cs := h
        obtain ⟨behind, rfl, hread, hplain, hlength⟩ := ih hshorter hmembers hread
        exact ⟨behind, rfl, hread, hplain, Nat.le_succ_of_le hlength⟩
  case h_4 heq | h_5 heq | h_6 heq =>
    obtain ⟨rfl, hsecond⟩ := List.cons.inj heq
    have hcs := Outline.members_of_cons (by decide) (by decide) (by decide) h
    cases cs with
    | nil => cases hcs
    | cons d cs =>
    obtain ⟨rfl, rfl⟩ := List.cons.inj hsecond
    have hmembers := Outline.members_of_cons (by decide) (by decide) (by decide) hcs
    obtain ⟨behind, rfl, hread, hplain, hlength⟩ :=
      ih (Nat.lt_of_succ_lt hshorter) hmembers hread
    rw [readBracket?, next_of_strict hstrict]
    exact ⟨behind, rfl, hread, hplain, by simp only [List.length_cons]; omega⟩
  case h_7 hopen hclose hand hhyphen htilde =>
    obtain ⟨⟨set, last⟩, hrange, hread⟩ := Option.bind_eq_some_iff.mp hread
    have hlonger {more : List Char} (heq : flags.next (c :: cs) = more) :
        c :: cs ++ tail = more ++ tail := by rw [← heq, next_of_strict hstrict]
    have hnotOpen : (c :: cs).head? ≠ some '[' := fun heq =>
      hopen (cs ++ tail) (by rw [Option.some.inj heq]; rfl)
    have hnotClose : (c :: cs).head? ≠ some ']' := fun heq =>
      hclose (cs ++ tail) (by rw [Option.some.inj heq]; rfl)
    obtain ⟨behind, rfl, hrange, hbehind, hlength⟩ :=
      stays_readRange? hstrict h hnotOpen hnotClose hrange
    have hsome : flags.next (c :: cs) ≠ [] := by
      rw [next_of_strict hstrict]
      exact List.cons_ne_nil c cs
    obtain ⟨behind', rfl, hread, hplain, hlength'⟩ :=
      ih (Nat.lt_of_lt_of_le hlength hshorter) hbehind hread
    rw [readBracket?_range fuel' outer bracket hsome (fun _ heq => hopen _ (hlonger heq))
      (fun _ heq => hclose _ (hlonger heq)) (fun _ heq => hand _ (hlonger heq))
      (fun _ heq => hhyphen _ (hlonger heq)) (fun _ heq => htilde _ (hlonger heq)),
      next_of_strict hstrict, hrange]
    exact ⟨behind', rfl, hread, hplain, by omega⟩

/-- A class lies in the text if it begins there. -/
theorem stays_readClass? : Stays (readClass? flags) ⟨depth, .bracket 0⟩ fun _ =>
    ⟨depth, .plain⟩ := by
  intro tail cs rest part h hread
  obtain ⟨⟨bracket, last⟩, hopen, hread⟩ := Option.bind_eq_some_iff.mp hread
  obtain ⟨behind, rfl, hopen, hbehind, hlength⟩ := stays_openBracket? hstrict h hopen
  have hinside : Outline.closes ⟨depth, .members ([] : List Bracket).length⟩ behind := hbehind
  obtain ⟨behind', rfl, hread, hplain, hlength'⟩ :=
    stays_readBracket? hstrict (Nat.lt_succ_of_le hlength) hinside hread
  refine ⟨behind', rfl, ?_, hplain, Nat.le_trans hlength' hlength⟩
  rw [readClass?, hopen]
  exact hread

end

end

end RouteAudit.Regex
