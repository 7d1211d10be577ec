import RouteAudit.Proofs.Regex.Alike

/-! # Classes read alike

A pipe between brackets is a member with a backslash and without one, so the brackets of texts
that are alike list the same.
-/

namespace RouteAudit.Regex

variable {tail text other rest : List Char} {flags : Flags}

/-! ## Words -/

/-- What the longer text starts with, the shorter one starts with too, if it has nothing that a
backslash or the end of the shorter one could explain. -/
theorem Alike.of_append {word behind : List Char}
    (hword : ∀ c ∈ word, c ≠ '\\' ∧ c ≠ ')') (h : Alike tail text (word ++ behind)) :
    ∃ rest, text = word ++ rest ∧ Alike tail rest behind := by
  induction word generalizing text with
  | nil => exact ⟨text, rfl, h⟩
  | cons c word ih =>
      obtain ⟨⟨hescape, hclose⟩, hword⟩ := List.forall_mem_cons.mp hword
      obtain ⟨cs, rfl, hcs⟩ := h.cons_of hescape
      obtain ⟨rest, rfl, hbehind⟩ := ih hword (hcs hclose)
      exact ⟨rest, rfl, hbehind⟩

theorem Alike.append {word : List Char} (hword : ∀ c ∈ word, c ≠ '\\' ∧ c ≠ '|')
    (h : Alike tail (word ++ rest) other) (hrest : rest ≠ []) :
    ∃ behind, other = word ++ behind ∧ Alike tail rest behind := by
  induction word generalizing other with
  | nil => exact ⟨other, rfl, h⟩
  | cons c word ih =>
      obtain ⟨⟨hescape, hpipe⟩, hword⟩ := List.forall_mem_cons.mp hword
      obtain ⟨cs, rfl, hcs⟩ := h.cons_inv (by simp [hrest]) hescape hpipe
      obtain ⟨behind, rfl, hbehind⟩ := ih hword hcs
      exact ⟨behind, rfl, hbehind⟩

/-! ## Named classes -/

/-- How a named class is written. -/
def asciiClassText (negated : Bool) (name : List Char) : List Char :=
  ':' :: (if negated then ['^'] else []) ++ name ++ [':', ']']

theorem isLower_of_asciiClass? {name : List Char} {set : CharSet}
    (h : asciiClass? (String.ofList name) = some set) : ∀ c ∈ name, c.isLower := by
  have hall : ∀ word : String, (asciiClass? word).isSome → ∀ c ∈ word.toList, c.isLower := by
    intro word hword
    unfold asciiClass? at hword
    dsimp only at hword
    split at hword
    case h_15 => cases hword
    all_goals exact List.all_eq_true.mp (by decide)
  have hname := hall (String.ofList name) (by rw [h]; rfl)
  rwa [String.toList_ofList] at hname

theorem readAsciiClass?_spec {negated : Bool} {set : CharSet}
    (h : readAsciiClass? text = some (negated, set, rest)) : ∃ name,
      asciiClass? (String.ofList name) = some set ∧ text = asciiClassText negated name ++ rest := by
  unfold readAsciiClass? at h
  split at h
  next cs =>
    dsimp only at h
    split at h
    next name last hspan =>
      obtain ⟨found, hset, heq⟩ := Option.map_eq_some_iff.mp h
      have hcs := (Text.span_eq_iff.mp hspan).1
      simp only [Prod.mk.injEq] at heq
      obtain ⟨hnegated, rfl, rfl⟩ := heq
      refine ⟨name, hset, ?_⟩
      split at hcs
      next cs =>
        obtain rfl : true = negated := hnegated
        dsimp only at hcs
        rw [hcs]
        simp [asciiClassText]
      next hcaret =>
        rw [← hnegated]
        simpa [asciiClassText] using hcs
    next => cases h
  next => cases h

theorem readAsciiClass?_of_text {negated : Bool} {name : List Char} {set : CharSet}
    (hset : asciiClass? (String.ofList name) = some set) (rest : List Char) :
    readAsciiClass? (asciiClassText negated name ++ rest) = some (negated, set, rest) := by
  have hname := isLower_of_asciiClass? hset
  have hspan : (name ++ ':' :: ']' :: rest).span (· ≠ ':') = (name, ':' :: ']' :: rest) := by
    refine Text.span_eq_iff.mpr ⟨rfl, ?_, by simp⟩
    intro c hc
    rw [decide_eq_true_eq]
    rintro rfl
    exact absurd (hname _ hc) (by decide)
  cases negated with
  | true =>
      have htext : asciiClassText true name ++ rest =
          ':' :: '^' :: (name ++ ':' :: ']' :: rest) := by
        simp [asciiClassText]
      rw [htext, readAsciiClass?]
      simp only [hspan, hset, Option.map_some]
  | false =>
      have htext : asciiClassText false name ++ rest = ':' :: (name ++ ':' :: ']' :: rest) := by
        simp [asciiClassText]
      have hcaret (cs : List Char) : name ++ ':' :: ']' :: rest ≠ '^' :: cs := by
        intro heq
        cases name with
        | nil => cases heq
        | cons c name =>
            obtain rfl := (List.cons.inj heq).1
            exact absurd (hname _ List.mem_cons_self) (by decide)
      rw [htext, readAsciiClass?]
      · simp only [hspan, hset, Option.map_some]
      · exact hcaret

theorem mem_asciiClassText {negated : Bool} {name : List Char} {set : CharSet} {c : Char}
    (hset : asciiClass? (String.ofList name) = some set) (hc : c ∈ asciiClassText negated name) :
    c ≠ '\\' ∧ c ≠ '|' ∧ c ≠ ')' := by
  have hname := isLower_of_asciiClass? hset
  have hcases : c ∈ [':', '^', ']'] ∨ c.isLower := by
    cases negated <;> simp only [asciiClassText, Bool.false_eq_true, if_true, if_false,
      List.nil_append, List.cons_append, List.mem_cons, List.mem_append] at hc ⊢ <;> grind
  rcases hcases with hsign | hlower
  · simp at hsign
    rcases hsign with rfl | rfl | rfl <;> decide
  · refine ⟨?_, ?_, ?_⟩ <;> rintro rfl <;> exact absurd hlower (by decide)

/-- A named class is read alike, and where there is none there is none in the longer text. -/
theorem readAsciiClass?_alike (h : Alike tail text other) :
    (∀ negated set rest, readAsciiClass? text = some (negated, set, rest) → rest ≠ [] →
      ∃ behind, readAsciiClass? other = some (negated, set, behind) ∧ Alike tail rest behind) ∧
    (readAsciiClass? text = none → readAsciiClass? other = none) := by
  refine ⟨?_, ?_⟩
  · intro negated set rest hread hrest
    obtain ⟨name, hset, rfl⟩ := readAsciiClass?_spec hread
    obtain ⟨behind, rfl, halike⟩ := h.append
      (fun c hc => ⟨(mem_asciiClassText hset hc).1, (mem_asciiClassText hset hc).2.1⟩) hrest
    exact ⟨behind, readAsciiClass?_of_text hset behind, halike⟩
  · intro hnone
    cases hread : readAsciiClass? other with
    | none => rfl
    | some found =>
        obtain ⟨negated, set, behind⟩ := found
        obtain ⟨name, hset, rfl⟩ := readAsciiClass?_spec hread
        obtain ⟨rest, rfl, -⟩ := h.of_append
          fun c hc => ⟨(mem_asciiClassText hset hc).1, (mem_asciiClassText hset hc).2.2⟩
        rw [readAsciiClass?_of_text hset] at hnone
        cases hnone

/-! ## Items and ranges -/

theorem readClassAtom?_alike (flags : Flags) : ReadsAlike (ClassAtom.read? flags) := by
  intro tail text other rest classAtom h hread hrest
  cases h with
  | stop =>
      rw [ClassAtom.read?] at hread
      · split at hread
        · exact absurd (Prod.mk.inj (Option.some.inj hread)).2.symm hrest
        · cases hread
      · simp
  | @escape text other c h =>
      rw [ClassAtom.read?] at hread ⊢
      split at hread
      next d asByte last hescape =>
        split at hread
        next hallowed =>
          obtain ⟨rfl, rfl⟩ := Prod.mk.inj (Option.some.inj hread)
          obtain ⟨behind, hbehind, halike⟩ := readEscape?_alike h hescape hrest
          exact ⟨behind, by simp only [hbehind, if_pos hallowed], halike⟩
        next => cases hread
      next set last hescape =>
        obtain ⟨rfl, rfl⟩ := Prod.mk.inj (Option.some.inj hread)
        obtain ⟨behind, hbehind, halike⟩ := readEscape?_alike h hescape hrest
        exact ⟨behind, by simp only [hbehind], halike⟩
      next => cases hread
      next => cases hread
  | @char text other c hc h =>
      have hplain (cs : List Char) : ClassAtom.read? flags (c :: cs) =
          if flags.unicode || c.toNat < 128 then some (.char c, cs) else none := by
        rw [ClassAtom.read?]
        exact hc
      rw [hplain] at hread ⊢
      split at hread
      next hallowed =>
        obtain ⟨rfl, rfl⟩ := Prod.mk.inj (Option.some.inj hread)
        exact ⟨other, if_pos hallowed, h⟩
      next => cases hread
  | @pipe text other h =>
      have hpipe : (flags.unicode || decide ('|'.toNat < 128)) = true := by simp
      have hplain : ClassAtom.read? flags ('|' :: text) = some (.char '|', text) := if_pos hpipe
      rw [hplain] at hread
      obtain ⟨rfl, rfl⟩ := Prod.mk.inj (Option.some.inj hread)
      have hescape : readEscape? flags ('|' :: other) = some (.char '|' false, other) := rfl
      exact ⟨other, by rw [ClassAtom.read?]; simp only [hescape, if_pos hpipe], h⟩

/-- Whether a hyphen stands for itself is seen alike: a pipe and its backslash are neither a
closing bracket nor a hyphen. -/
theorem firstMark?_alike (h : Alike tail text other) (inComment : Bool) :
    firstMark? inComment text = firstMark? inComment other ∨
      firstMark? inComment text = some '|' ∧ firstMark? inComment other = some '\\' := by
  induction h generalizing inComment with
  | stop => cases inComment <;> exact .inl rfl
  | escape => cases inComment <;> exact .inl rfl
  | @char text other c hc _ ih =>
      rw [firstMark?, firstMark?]
      split
      next => exact ih inComment
      next =>
        split
        next => exact ih true
        next => exact .inl rfl
  | pipe => cases inComment <;> exact .inr ⟨rfl, rfl⟩

theorem afterHyphen?_alike (flags : Flags) (h : Alike tail text other) {c : Char}
    (hescape : c ≠ '\\') (hpipe : c ≠ '|') :
    afterHyphen? flags text = some c ↔ afterHyphen? flags other = some c := by
  have hhead : text.head? = some c ↔ other.head? = some c := by
    cases h with
    | stop | escape | char => rfl
    | pipe => simp [hescape.symm, hpipe.symm]
  unfold afterHyphen?
  split
  next =>
    rcases firstMark?_alike h false with heq | ⟨htext, hother⟩
    · rw [heq]
      cases firstMark? false other with
      | none => exact hhead
      | some mark => rfl
    · rw [htext, hother]
      simp [hescape.symm, hpipe.symm]
  next => exact hhead

theorem readRange?_alike (flags : Flags) : ReadsAlike (readRange? flags) := by
  intro tail text other rest set h hread hrest
  obtain ⟨⟨first, last⟩, hfirst, hread⟩ := Option.bind_eq_some_iff.mp hread
  dsimp only at hread
  have hnext : flags.next last ≠ [] := by
    intro hnil
    rw [hnil] at hread
    cases hread
  obtain ⟨behind, hbehind, halike⟩ := readClassAtom?_alike flags h hfirst (ne_nil_of_next hnext)
  have hnextAlike := next_alike halike hnext
  split at hread
  next heq => exact absurd heq hnext
  next after heq =>
    rw [heq] at hnextAlike
    obtain ⟨after', heq', hafter'⟩ :=
      hnextAlike.cons_inv_of_ne (by decide) (by decide) (by decide)
    have hclose := afterHyphen?_alike flags hafter' (c := ']') (by decide) (by decide)
    have hhyphen := afterHyphen?_alike flags hafter' (c := '-') (by decide) (by decide)
    simp only [readRange?, hbehind, heq', Option.bind_eq_bind, Option.bind_some, ← hclose,
      ← hhyphen]
    split at hread
    next hitself =>
      obtain ⟨rfl, rfl⟩ := Prod.mk.inj (Option.some.inj hread)
      rw [if_pos hitself]
      exact ⟨_, rfl, .char (by decide) hafter'⟩
    next hitself =>
      rw [if_neg hitself]
      obtain ⟨⟨second, last'⟩, hsecond, hread⟩ := Option.bind_eq_some_iff.mp hread
      have hend : flags.next after ≠ [] := by
        intro hnil
        rw [hnil] at hsecond
        cases hsecond
      cases first with
      | set => cases hread
      | char first =>
      cases second with
      | set => cases hread
      | char second =>
          dsimp only at hread
          split at hread
          next hle =>
            obtain ⟨rfl, rfl⟩ := Prod.mk.inj (Option.some.inj hread)
            obtain ⟨behind', hbehind', halike'⟩ :=
              readClassAtom?_alike flags (next_alike hafter' hend) hsecond hrest
            refine ⟨behind', ?_, halike'⟩
            simp only [hbehind', Option.bind_some, if_pos hle]
          next => cases hread
  next hhyphen =>
    obtain ⟨rfl, rfl⟩ := Prod.mk.inj (Option.some.inj hread)
    refine ⟨_, ?_, hnextAlike⟩
    simp only [readRange?, hbehind, Option.bind_eq_bind, Option.bind_some]
    split
    next heq =>
      rw [heq] at hnextAlike
      exact absurd rfl hnextAlike.other_ne_nil
    next after heq =>
      rw [heq] at hnextAlike
      obtain ⟨_, hcs, -⟩ := hnextAlike.cons_of (by decide)
      exact absurd hcs (hhyphen _)
    next => rfl

/-! ## Brackets -/

theorem leadingHyphens_alike {fuel fuel' : Nat} {items found : List ClassPart}
    (h : Alike tail text other) (hfuel : text.length ≤ fuel) (hfuel' : other.length ≤ fuel')
    (hread : Bracket.leadingHyphens flags fuel items text = some (found, rest)) :
    ∃ behind, Bracket.leadingHyphens flags fuel' items other = some (found, behind) ∧
      Alike tail rest behind := by
  induction fuel generalizing text other items fuel' with
  | zero => exact absurd (List.length_eq_zero_iff.mp (Nat.le_zero.mp hfuel)) h.ne_nil
  | succ fuel ih =>
      obtain ⟨fuel', rfl⟩ : ∃ more, fuel' = more + 1 :=
        Nat.exists_eq_succ_of_ne_zero (by have := List.length_pos_iff.mpr h.other_ne_nil; omega)
      unfold Bracket.leadingHyphens at hread
      split at hread
      next => cases hread
      next cs heq =>
        obtain rfl := Nat.succ.inj heq
        obtain ⟨ds, rfl, halike⟩ := h.cons_inv_of_ne (by decide) (by decide) (by decide)
        have hnext : flags.next cs ≠ [] := by
          intro hnil
          rw [hnil, Bracket.leadingHyphens] at hread
          cases hread
        simp only [List.length_cons] at hfuel hfuel'
        have hlength : (flags.next cs).length ≤ fuel :=
          Nat.le_trans (length_next_le flags cs) (by omega)
        have hlength' : (flags.next ds).length ≤ fuel' :=
          Nat.le_trans (length_next_le flags ds) (by omega)
        have hrest := ih (next_alike halike hnext) hlength hlength' hread
        rwa [Bracket.leadingHyphens]
      next hnil hhyphen =>
        obtain ⟨rfl, rfl⟩ := Prod.mk.inj (Option.some.inj hread)
        refine ⟨other, ?_, h⟩
        unfold Bracket.leadingHyphens
        split
        next => exact absurd rfl h.other_ne_nil
        next ds heq =>
          obtain ⟨cs, rfl, -⟩ := h.cons_of (by decide)
          exact (hhyphen _ _ rfl rfl).elim
        next => rfl

/-- Reads the opening of a bracket from behind its negation. -/
def Bracket.openItems? (flags : Flags) (negated : Bool) (cs : List Char) :
    Option (Bracket × List Char) := do
  let (items, cs) ← leadingHyphens flags cs.length [] cs
  match items, cs with
  | [], ']' :: cs =>
    match flags.next cs with
    | [] => none
    | cs => some (⟨negated, [⟨.single ']', 0⟩], none⟩, cs)
  | items, cs => some (⟨negated, items, none⟩, cs)

/-- Reads the negation of a bracket. -/
def Bracket.negation (flags : Flags) (cs : List Char) : Bool × List Char :=
  match flags.next cs with
  | '^' :: cs => (true, flags.next cs)
  | cs => (false, cs)

theorem open?_eq (flags : Flags) (cs : List Char) : Bracket.open? flags cs =
    Bracket.openItems? flags (Bracket.negation flags cs).1 (Bracket.negation flags cs).2 := rfl

/-- A negation is read alike. -/
theorem negation_alike (h : Alike tail text other) (hrest : (Bracket.negation flags text).2 ≠ []) :
    (Bracket.negation flags other).1 = (Bracket.negation flags text).1 ∧
      Alike tail (Bracket.negation flags text).2 (Bracket.negation flags other).2 := by
  unfold Bracket.negation at hrest ⊢
  split at hrest
  next cs hnext =>
    obtain ⟨ds, hnext', halike⟩ :=
      next_cons_alike h hnext (ne_nil_of_next hrest) (by decide) (by decide)
    simp only [hnext', true_and]
    exact next_alike halike hrest
  next hcaret =>
    have halike := next_alike h hrest
    split
    next ds heq =>
      rw [heq] at halike
      obtain ⟨cs, hnext, -⟩ := halike.cons_of (by decide)
      exact (hcaret cs hnext).elim
    next => exact ⟨rfl, halike⟩

theorem openItems?_alike (h : Alike tail text other) {negated : Bool} {bracket : Bracket}
    (hread : Bracket.openItems? flags negated text = some (bracket, rest)) : ∃ behind,
      Bracket.openItems? flags negated other = some (bracket, behind) ∧ Alike tail rest behind := by
  obtain ⟨⟨items, last⟩, hhyphens, hread⟩ := Option.bind_eq_some_iff.mp hread
  obtain ⟨last', hlast', halike⟩ :=
    leadingHyphens_alike h (Nat.le_refl _) (Nat.le_refl _) hhyphens
  rw [Bracket.openItems?, hlast']
  simp only [Option.bind_eq_bind, Option.bind_some]
  dsimp only at hread
  split at hread
  next cs =>
    split at hread
    next => cases hread
    next hnext =>
      obtain ⟨rfl, rfl⟩ := Prod.mk.inj (Option.some.inj hread)
      obtain ⟨ds, rfl, hds⟩ := halike.cons_inv_of_ne (by decide) (by decide) (by decide)
      have hbehind := next_alike hds hnext
      refine ⟨flags.next ds, ?_, hbehind⟩
      simp only
      split
      next hnil =>
        rw [hnil] at hbehind
        exact absurd rfl hbehind.other_ne_nil
      next => rfl
  next hmember =>
    obtain ⟨rfl, rfl⟩ := Prod.mk.inj (Option.some.inj hread)
    refine ⟨last', ?_, halike⟩
    split
    next cs =>
      obtain ⟨_, rfl, -⟩ := halike.cons_of (by decide)
      exact (hmember _ rfl rfl).elim
    next => rfl

theorem openBracket?_alike (h : Alike tail text other) {bracket : Bracket}
    (hread : Bracket.open? flags text = some (bracket, rest)) : ∃ behind,
      Bracket.open? flags other = some (bracket, behind) ∧ Alike tail rest behind := by
  rw [open?_eq] at hread ⊢
  have hrest : (Bracket.negation flags text).2 ≠ [] := by
    intro hnil
    rw [hnil] at hread
    cases hread
  obtain ⟨hnegated, halike⟩ := negation_alike h hrest
  rw [hnegated]
  exact openItems?_alike halike hread

@[simp]
theorem readBracket?_nil (fuel : Nat) (outer : List Bracket) (bracket : Bracket) :
    readBracket? flags fuel outer bracket [] = none := by
  cases fuel with
  | zero => rfl
  | succ fuel => rw [readBracket?, next_nil]

theorem ne_nil_of_readBracket? {fuel : Nat} {outer : List Bracket} {bracket : Bracket}
    {found : ClassPart × List Char} (h : readBracket? flags fuel outer bracket text = some found) :
    text ≠ [] := by
  rintro rfl
  rw [readBracket?_nil] at h
  cases h

/-- What is neither a bracket nor an operator is a range. -/
theorem readBracket?_range (fuel : Nat) (outer : List Bracket) (bracket : Bracket)
    (hnext : flags.next text ≠ []) (hopen : ∀ more, flags.next text = '[' :: more → False)
    (hclose : ∀ more, flags.next text = ']' :: more → False)
    (hand : ∀ more, flags.next text = '&' :: '&' :: more → False)
    (hhyphen : ∀ more, flags.next text = '-' :: '-' :: more → False)
    (htilde : ∀ more, flags.next text = '~' :: '~' :: more → False) :
    readBracket? flags (fuel + 1) outer bracket text =
      (readRange? flags (flags.next text)).bind fun (set, rest) =>
        readBracket? flags fuel outer (bracket.push ⟨set, 0⟩) rest := by
  rw [readBracket?]
  split <;> first | rfl | grind

/-- More fuel changes nothing where a bracket is read alike. -/
theorem readBracket?_alike {fuel fuel' : Nat} (hfuel : fuel ≤ fuel') {outer : List Bracket}
    {bracket : Bracket} {part : ClassPart} (h : Alike tail text other)
    (hread : readBracket? flags fuel outer bracket text = some (part, rest)) (hrest : rest ≠ []) :
    ∃ behind, readBracket? flags fuel' outer bracket other = some (part, behind) ∧
      Alike tail rest behind := by
  induction fuel generalizing fuel' outer bracket text other with
  | zero => cases hread
  | succ fuel ih =>
  obtain ⟨fuel', rfl⟩ : ∃ more, fuel' = more + 1 := Nat.exists_eq_succ_of_ne_zero (by omega)
  have hfuel := Nat.le_of_succ_le_succ hfuel
  have halike (hsome : flags.next text ≠ []) := next_alike h hsome
  rw [readBracket?] at hread
  split at hread
  case h_1 => cases hread
  case h_2 cs hnext =>
    rw [hnext] at halike
    obtain ⟨ds, hother, hds⟩ := (halike nofun).cons_inv_of_ne (by decide) (by decide) (by decide)
    obtain ⟨hnamed, hunnamed⟩ := readAsciiClass?_alike hds
    rw [readBracket?, hother]
    simp only
    split at hread
    next negated set last hname =>
      obtain ⟨closed, hclosed, hread⟩ := Option.bind_eq_some_iff.mp hread
      obtain ⟨behind, hbehind, hlast⟩ := hnamed _ _ _ hname (ne_nil_of_readBracket? hread)
      simp only [hbehind, hclosed, Option.bind_eq_bind, Option.bind_some]
      exact ih hfuel hlast hread
    next hname =>
      obtain ⟨⟨inner, last⟩, hopen, hread⟩ := Option.bind_eq_some_iff.mp hread
      obtain ⟨behind, hbehind, hlast⟩ := openBracket?_alike hds hopen
      simp only [hunnamed hname, hbehind, Option.bind_eq_bind, Option.bind_some]
      exact ih hfuel hlast hread
  case h_3 cs hnext =>
    rw [hnext] at halike
    obtain ⟨ds, hother, hds⟩ := (halike nofun).cons_inv_of_ne (by decide) (by decide) (by decide)
    obtain ⟨closed, hclosed, hread⟩ := Option.bind_eq_some_iff.mp hread
    rw [readBracket?, hother]
    simp only [hclosed, Option.bind_eq_bind, Option.bind_some]
    split at hread
    next =>
      obtain ⟨rfl, rfl⟩ := Prod.mk.inj (Option.some.inj hread)
      exact ⟨ds, rfl, hds⟩
    next => exact ih hfuel hds hread
  case h_4 hnext | h_5 hnext | h_6 hnext =>
    rw [hnext] at halike
    obtain ⟨ds, hother, hds⟩ := (halike nofun).cons_cons_inv_of_ne (by decide) (by decide)
    rw [readBracket?, hother]
    exact ih hfuel hds hread
  case h_7 hsome hopen hclose hand hhyphen htilde =>
    have halike := halike hsome
    obtain ⟨⟨set, last⟩, hrange, hread⟩ := Option.bind_eq_some_iff.mp hread
    obtain ⟨behind, hbehind, hlast⟩ :=
      readRange?_alike flags halike hrange (ne_nil_of_readBracket? hread)
    rw [readBracket?_range fuel' outer bracket halike.other_ne_nil
      (halike.ne_cons (by decide) hopen) (halike.ne_cons (by decide) hclose)
      (halike.ne_cons_cons (by decide) (by decide) (by decide) hand)
      (halike.ne_cons_cons (by decide) (by decide) (by decide) hhyphen)
      (halike.ne_cons_cons (by decide) (by decide) (by decide) htilde), hbehind]
    exact ih hfuel hlast hread

theorem readClass?_alike (flags : Flags) : ReadsAlike (readClass? flags) := by
  intro tail text other rest part h hread hrest
  obtain ⟨⟨bracket, last⟩, hopen, hread⟩ := Option.bind_eq_some_iff.mp hread
  obtain ⟨behind, hbehind, halike⟩ := openBracket?_alike h hopen
  obtain ⟨behind', hclose, halike'⟩ :=
    readBracket?_alike (Nat.succ_le_succ h.length_le) halike hread hrest
  refine ⟨behind', ?_, halike'⟩
  rw [readClass?, hbehind]
  exact hclose

end RouteAudit.Regex
