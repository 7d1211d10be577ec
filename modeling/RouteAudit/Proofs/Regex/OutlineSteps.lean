import RouteAudit.Proofs.Regex.OutlineClasses
import RouteAudit.Proofs.Regex.Steps

/-! # Constructs that stay in the text they begin in

Whatever a step of the reader takes from a text that closes what it opens, it takes from the text
alone, and the outline knows how many groups are open afterwards (`stays_ofText?`).
-/

namespace RouteAudit.Regex

open Reader

section

variable {o : Outline} {c : Char} {cs tail rest : List Char} {depth : Nat} {flags : Flags}

/-- A character that is no end lies in the text. -/
theorem Outline.exists_cons {p : Outline} (h : o.closes cs) (heq : cs ++ tail = c :: rest)
    (hp : o.step? c = some p) :
    ∃ behind, cs = c :: behind ∧ rest = behind ++ tail ∧ p.closes behind := by
  cases cs with
  | nil =>
      rw [step?, beq_iff_eq.mp h] at hp
      cases hp
  | cons d cs =>
      obtain ⟨rfl, rfl⟩ := List.cons.inj heq
      obtain ⟨q, hq, h⟩ := closes_cons.mp h
      obtain rfl := Option.some.inj (hp.symm.trans hq)
      exact ⟨cs, rfl, rfl, h⟩

/-- What is dropped from the start of a text without a sign is dropped from it alone. -/
theorem Outline.Idle.dropWhile (ho : o.Idle) {p : Char → Bool}
    (hp : ∀ c, p c → Unicode.isSign c = false) (h : o.closes cs) (tail : List Char) :
    (cs ++ tail).dropWhile p = cs.dropWhile p ++ tail ∧ (cs ++ tail).takeWhile p = cs.takeWhile p ∧
      o.closes (cs.dropWhile p) := by
  induction cs with
  | nil => exact absurd rfl (ne_nil_of_closes ho.unclosed h)
  | cons c cs ih =>
      rw [List.cons_append, List.dropWhile_cons, List.dropWhile_cons, List.takeWhile_cons,
        List.takeWhile_cons]
      cases hc : p c with
      | true =>
          obtain ⟨hdrop, htake, hclosed⟩ := ih (ho.skip (hp c hc) h)
          exact ⟨hdrop, congrArg _ htake, hclosed⟩
      | false => exact ⟨rfl, rfl, h⟩

/-- The mark of a lazy repetition is looked for in the text. -/
theorem stays_readGreed (ho : o.Idle) (h : o.closes cs) (tail : List Char) : ∃ behind,
    readGreed (cs ++ tail) = ((readGreed cs).1, behind ++ tail) ∧ (readGreed cs).2 = behind ∧
      o.closes behind ∧ behind.length ≤ cs.length := by
  cases cs with
  | nil => exact absurd rfl (Outline.ne_nil_of_closes ho.unclosed h)
  | cons c cs =>
  by_cases hc : c = '?'
  · subst hc
    exact ⟨cs, rfl, rfl, ho.skip rfl h, Nat.le_succ _⟩
  · have hgreedy (cs : List Char) : readGreed (c :: cs) = (true, c :: cs) := by
      unfold readGreed
      split
      next heq => exact absurd (List.cons.inj heq).1 hc
      next => rfl
    rw [List.cons_append, hgreedy, hgreedy]
    exact ⟨c :: cs, rfl, rfl, h, Nat.le_refl _⟩

section

variable (hstrict : flags.loose = false)
include hstrict

theorem stays_readCount? (ho : o.Idle) : Stays (readCount? flags) o fun _ => o := by
  intro tail cs rest count h hread
  have hcount (cs : List Char) : readCount? flags cs =
      let digits := (cs.dropWhile Text.isBlank).takeWhile Char.isDigit
      if digits.isEmpty then none
      else
        let n := digits.foldl (fun n d => 10 * n + (d.toNat - '0'.toNat)) 0
        if n < UInt32.size then
          some (n, ((cs.dropWhile Text.isBlank).dropWhile Char.isDigit).dropWhile Text.isBlank)
        else none := by
    simp only [readCount?, hstrict, takeCounted_of_strict, next_of_strict hstrict,
      List.span_eq_takeWhile_dropWhile]
  have hblank (c : Char) (hc : Text.isBlank c) : Unicode.isSign c = false :=
    Unicode.not_isSign_of (p := fun c => Text.isBlank c) (by decide) hc
  have hdigit (c : Char) (hc : c.isDigit) : Unicode.isSign c = false :=
    Unicode.not_isSign_of (p := fun c => c.isDigit) (by decide) hc
  obtain ⟨hstart, -, hclosed⟩ := ho.dropWhile hblank h tail
  obtain ⟨hdrop, htake, hclosed⟩ := ho.dropWhile hdigit hclosed tail
  obtain ⟨hend, -, hclosed⟩ := ho.dropWhile hblank hclosed tail
  rw [hcount, hstart, hdrop, htake, hend] at hread
  rw [hcount]
  dsimp only at hread ⊢
  split at hread
  next => cases hread
  next hsome =>
    split at hread
    next hsize =>
      obtain ⟨rfl, rfl⟩ := Prod.mk.inj (Option.some.inj hread)
      refine ⟨_, rfl, by rw [if_neg hsome, if_pos hsize], hclosed, ?_⟩
      exact (List.length_dropWhile_le _ _).trans
        ((List.length_dropWhile_le _ _).trans (List.length_dropWhile_le _ _))
    next => cases hread

/-- One count is both bounds. -/
theorem readBounds?_of_close {count : Nat}
    (h : readCount? flags cs = some (count, '\x7d' :: rest)) :
    readBounds? flags cs = some (count, some count, rest) := by
  rw [readBounds?, next_of_strict hstrict, h]
  rfl

/-- A count and a comma leave the second bound open. -/
theorem readBounds?_of_open {count : Nat}
    (h : readCount? flags cs = some (count, ',' :: '\x7d' :: rest)) :
    readBounds? flags cs = some (count, none, rest) := by
  rw [readBounds?, next_of_strict hstrict, h]
  simp only [Option.bind_eq_bind, Option.bind_some, next_of_strict hstrict]

/-- The second bound, up to the closing brace. -/
theorem readBounds?_of_comma {count least : Nat} {most : Option Nat} {last : List Char}
    (hcount : readCount? flags cs = some (count, ',' :: rest))
    (hrest : ∀ more, rest = '\x7d' :: more → False) :
    readBounds? flags cs = some (least, most, last) ↔ least = count ∧ ∃ limit,
      most = some limit ∧ readCount? flags rest = some (limit, '\x7d' :: last) ∧
        count ≤ limit := by
  rw [readBounds?, next_of_strict hstrict, hcount]
  simp only [Option.bind_eq_bind, Option.bind_some, next_of_strict hstrict]
  constructor
  · intro hread
    obtain ⟨⟨limit, behind⟩, hlimit, hread⟩ := Option.bind_eq_some_iff.mp hread
    split at hread
    next heq =>
      obtain ⟨rfl, rfl⟩ := Prod.mk.inj heq
      split at hread
      next hle =>
        simp only [Option.some.injEq, Prod.mk.injEq] at hread
        obtain ⟨rfl, rfl, rfl⟩ := hread
        exact ⟨rfl, limit, rfl, hlimit, hle⟩
      next => cases hread
    next => cases hread
  · rintro ⟨rfl, limit, rfl, hlimit, hle⟩
    rw [hlimit]
    exact if_pos hle

theorem stays_readBounds? (ho : o.Idle) (h : o.closes cs) {least : Nat} {most : Option Nat}
    (hread : readBounds? flags (cs ++ tail) = some (least, most, rest)) :
    ∃ behind, rest = behind ++ tail ∧ readBounds? flags cs = some (least, most, behind) ∧
      o.closes behind ∧ behind.length ≤ cs.length := by
  obtain ⟨⟨count, last⟩, hcount, -⟩ := Option.bind_eq_some_iff.mp hread
  rw [next_of_strict hstrict] at hcount
  obtain ⟨behind, rfl, hcount', hbehind, hlength⟩ := stays_readCount? hstrict ho h hcount
  cases behind with
  | nil => exact absurd rfl (Outline.ne_nil_of_closes ho.unclosed hbehind)
  | cons c behind =>
  by_cases hclose : c = '\x7d'
  · subst hclose
    rw [List.cons_append] at hcount
    rw [readBounds?_of_close hstrict hcount, Option.some.injEq, Prod.mk.injEq,
      Prod.mk.injEq] at hread
    obtain ⟨rfl, rfl, rfl⟩ := hread
    exact ⟨behind, rfl, readBounds?_of_close hstrict hcount', ho.skip rfl hbehind,
      Nat.le_of_succ_le hlength⟩
  by_cases hcomma : c = ','
  · subst hcomma
    have hlater := ho.skip rfl hbehind
    cases behind with
    | nil => exact absurd rfl (Outline.ne_nil_of_closes ho.unclosed hlater)
    | cons d behind =>
    rw [List.cons_append] at hcount
    by_cases hopen : d = '\x7d'
    · subst hopen
      rw [readBounds?_of_open hstrict hcount, Option.some.injEq, Prod.mk.injEq,
        Prod.mk.injEq] at hread
      obtain ⟨rfl, rfl, rfl⟩ := hread
      refine ⟨behind, rfl, readBounds?_of_open hstrict hcount', ho.skip rfl hlater, ?_⟩
      simp only [List.length_cons] at hlength
      omega
    · have hnot (more : List Char) : ∀ rest, d :: more = '\x7d' :: rest → False :=
        fun rest heq => hopen (List.cons.inj heq).1
      obtain ⟨rfl, limit, rfl, hlimit, hle⟩ :=
        (readBounds?_of_comma hstrict hcount (hnot _)).mp hread
      obtain ⟨behind', hrest, hlimit', hbehind', hlength'⟩ :=
        stays_readCount? hstrict ho hlater hlimit
      cases behind' with
      | nil => exact absurd rfl (Outline.ne_nil_of_closes ho.unclosed hbehind')
      | cons e behind' =>
      obtain ⟨rfl, rfl⟩ := List.cons.inj hrest
      refine ⟨behind', rfl, ?_, ho.skip rfl hbehind', ?_⟩
      · exact (readBounds?_of_comma hstrict hcount' (hnot _)).mpr ⟨rfl, limit, rfl, hlimit', hle⟩
      · simp only [List.length_cons] at hlength hlength'
        omega
  · simp only [readBounds?, next_of_strict hstrict, hcount, Option.bind_eq_bind,
      Option.bind_some] at hread
    split at hread
    next heq => exact absurd (List.cons.inj heq).1 hclose
    next heq => exact absurd (List.cons.inj heq).1 hcomma
    next => cases hread

end

/-! ## Headers of groups -/

/-- A name has an end in the text. -/
theorem Outline.exists_name (h : closes ⟨depth, .name⟩ cs) : ∃ name behind,
    cs = name ++ '>' :: behind ∧ (∀ c ∈ name, c ≠ '>') ∧ closes ⟨depth, .plain⟩ behind := by
  induction cs with
  | nil => cases h
  | cons c cs ih =>
      rw [closes_name] at h
      split at h
      next hc =>
        subst hc
        exact ⟨[], cs, rfl, List.forall_mem_nil _, h⟩
      next hc =>
        obtain ⟨name, behind, rfl, hname, hbehind⟩ := ih h
        exact ⟨c :: name, behind, rfl, List.forall_mem_cons.mpr ⟨hc, hname⟩, hbehind⟩

theorem stays_readName? : Stays readName? ⟨depth, .name⟩ fun _ => ⟨depth, .plain⟩ := by
  intro tail cs rest found h hread
  obtain ⟨name, behind, rfl, hname, hbehind⟩ := Outline.exists_name h
  have hspan (more : List Char) : (name ++ '>' :: more).span (· ≠ '>') = (name, '>' :: more) :=
    Text.span_eq_iff.mpr ⟨rfl, fun c hc => decide_eq_true (hname c hc), by simp⟩
  rw [List.append_assoc, List.cons_append, readName?, hspan] at hread
  rw [readName?, hspan]
  cases name with
  | nil => cases hread
  | cons first others =>
      dsimp only at hread ⊢
      split at hread
      next hchars =>
        obtain ⟨rfl, rfl⟩ := Prod.mk.inj (Option.some.inj hread)
        refine ⟨behind, rfl, if_pos hchars, hbehind, ?_⟩
        simp only [List.length_append, List.length_cons]
        omega
      next => cases hread

/-- A switch is no end of a header, and none that makes blanks count is let pass. -/
theorem Outline.header_of_switch {which : Flag} (hc : Flag.ofLetter? c = some which)
    (h : closes ⟨depth, .header⟩ (c :: cs)) :
    closes ⟨depth, .header⟩ cs ∧ which ≠ .loose := by
  rw [closes_header] at h
  unfold Flag.ofLetter? at hc
  split at hc
  case h_7 => cases h
  case h_8 => cases hc
  all_goals
    obtain rfl := Option.some.inj hc
    exact ⟨h, by simp⟩

/-- Where a text stands behind the header of a group, or behind a setting of its own, which takes
the closing parenthesis along. -/
def Outline.Headed (depth : Nat) (stop : Char) (behind : List Char) : Prop :=
  if stop = ':' then closes ⟨depth, .plain⟩ behind = true
  else ∃ around, depth = around + 1 ∧ closes ⟨around, .plain⟩ behind

theorem Outline.headed_of_stop (hstop : c = ':' ∨ c = ')')
    (h : closes ⟨depth, .header⟩ (c :: cs)) : Headed depth c cs := by
  rcases hstop with rfl | rfl
  · exact h
  · cases depth with
    | zero => cases h
    | succ around => exact ⟨around, rfl, h⟩

theorem stays_readSwitches? {seen switches : List Flags.Switch} {stop : Char}
    (h : Outline.closes ⟨depth, .header⟩ cs) (hseen : .flag .loose ∉ seen)
    (hread : readSwitches? seen (cs ++ tail) = some (switches, stop, rest)) :
    ∃ behind, rest = behind ++ tail ∧ readSwitches? seen cs = some (switches, stop, behind) ∧
      Outline.Headed depth stop behind ∧ behind.length ≤ cs.length ∧
        .flag .loose ∉ switches := by
  induction cs generalizing seen with
  | nil => cases h
  | cons c cs ih =>
      rw [List.cons_append, readSwitches?] at hread
      rw [readSwitches?]
      split at hread
      next hstop =>
        rw [if_pos hstop]
        split at hread
        next => cases hread
        next hhyphen =>
          rw [if_neg hhyphen]
          simp only [Option.some.injEq, Prod.mk.injEq] at hread
          obtain ⟨rfl, rfl, rfl⟩ := hread
          exact ⟨cs, rfl, rfl, Outline.headed_of_stop hstop h, Nat.le_succ _, by simpa using hseen⟩
      next hstop =>
        rw [if_neg hstop]
        have hgo (switch : Flags.Switch) (hswitch : switch ≠ .flag .loose)
            (h : Outline.closes ⟨depth, .header⟩ cs)
            (hread : (if seen.contains switch then none
              else readSwitches? (switch :: seen) (cs ++ tail)) = some (switches, stop, rest)) :
            ∃ behind, rest = behind ++ tail ∧
              (if seen.contains switch then none else readSwitches? (switch :: seen) cs) =
                some (switches, stop, behind) ∧
              Outline.Headed depth stop behind ∧ behind.length ≤ (c :: cs).length ∧
                .flag .loose ∉ switches := by
          split at hread
          next => cases hread
          next hnew =>
            rw [if_neg hnew]
            obtain ⟨behind, hrest, hshort, hbehind, hlength, hloose⟩ :=
              ih h (by simpa [hseen] using Ne.symm hswitch) hread
            exact ⟨behind, hrest, hshort, hbehind, Nat.le_succ_of_le hlength, hloose⟩
        dsimp only at hread ⊢
        split at hread
        next hhyphen =>
          subst hhyphen
          exact hgo .hyphen (by simp) h hread
        next hhyphen =>
          rw [if_neg hhyphen]
          obtain ⟨switch, hswitch, hread⟩ := Option.bind_eq_some_iff.mp hread
          obtain ⟨which, hwhich, rfl⟩ := Option.map_eq_some_iff.mp hswitch
          obtain ⟨hheader, hloose⟩ := Outline.header_of_switch hwhich h
          rw [Option.bind_eq_bind, hswitch]
          exact hgo (.flag which) (by simpa using hloose) hheader hread

theorem apply_loose {switches : List Flags.Switch} (h : .flag .loose ∉ switches) (flags : Flags)
    (on : Bool) : (flags.apply on switches).loose = flags.loose := by
  induction switches generalizing flags on with
  | nil => rfl
  | cons switch switches ih =>
      rw [List.mem_cons, not_or] at h
      cases switch with
      | hyphen => exact ih h.2 flags false
      | flag which =>
          refine (ih h.2 (flags.switch on which) on).trans ?_
          cases which with
          | loose => exact absurd rfl h.1
          | _ => rfl

namespace Construct

/-- Where a text stands behind what was taken from behind an opening parenthesis. -/
def Enters (depth : Nat) (behind : List Char) : Construct → Prop
  | opening _ flags => flags.loose = false ∧ Outline.closes ⟨depth, .plain⟩ behind
  | setting flags => flags.loose = false ∧
      ∃ around, depth = around + 1 ∧ Outline.closes ⟨around, .plain⟩ behind
  | _ => False

/-- Where a text stands behind a construct taken from it. -/
def Leaves (depth : Nat) (behind : List Char) : Construct → Prop
  | opening _ flags => flags.loose = false ∧ Outline.closes ⟨depth + 1, .plain⟩ behind
  | setting flags => flags.loose = false ∧ Outline.closes ⟨depth, .plain⟩ behind
  | closing => ∃ around, depth = around + 1 ∧ Outline.closes ⟨around, .plain⟩ behind
  | piece _ | repetition _ _ _ | bar => Outline.closes ⟨depth, .plain⟩ behind

theorem Enters.leaves {construct : Construct} {behind : List Char}
    (h : construct.Enters (depth + 1) behind) : construct.Leaves depth behind := by
  cases construct with
  | opening => exact h
  | setting =>
      obtain ⟨hloose, around, hdepth, hbehind⟩ := h
      obtain rfl := Nat.succ.inj hdepth
      exact ⟨hloose, hbehind⟩
  | piece | repetition | bar | closing => exact h.elim

theorem leaves_ofEscaped? {escaped : Escaped} {construct : Construct} {behind : List Char}
    (h : ofEscaped? flags escaped = some construct)
    (hbehind : Outline.closes ⟨depth, .plain⟩ behind) : construct.Leaves depth behind := by
  cases escaped with
  | char c asByte =>
      rw [ofEscaped?] at h
      split at h
      next =>
        obtain rfl := Option.some.inj h
        exact hbehind
      next => cases h
  | set | look =>
      obtain rfl := Option.some.inj h
      exact hbehind

end Construct

theorem stays_ofMark (h : Outline.closes ⟨depth, .plain⟩ cs) {least : Nat} {most : Option Nat}
    {construct : Construct}
    (hread : Construct.ofMark least most (cs ++ tail) = (construct, rest)) :
    ∃ behind, rest = behind ++ tail ∧ Construct.ofMark least most cs = (construct, behind) ∧
      construct.Leaves depth behind ∧ behind.length ≤ cs.length := by
  obtain ⟨behind, hgreed, hrest, hbehind, hlength⟩ :=
    stays_readGreed (Outline.idle_plain depth) h tail
  unfold Construct.ofMark at hread ⊢
  rw [hgreed] at hread
  obtain ⟨rfl, rfl⟩ := Prod.mk.inj hread
  exact ⟨behind, rfl, by rw [← hrest], hbehind, hlength⟩

section

variable (hstrict : flags.loose = false) {construct : Construct}
include hstrict

theorem stays_ofSwitches? (h : Outline.closes ⟨depth, .header⟩ cs)
    (hread : Construct.ofSwitches? flags (cs ++ tail) = some (construct, rest)) :
    ∃ behind, rest = behind ++ tail ∧ Construct.ofSwitches? flags cs = some (construct, behind) ∧
      construct.Enters depth behind ∧ behind.length ≤ cs.length := by
  obtain ⟨⟨switches, stop, last⟩, hswitches, hread⟩ := Option.bind_eq_some_iff.mp hread
  obtain ⟨behind, rfl, hswitches, hheaded, hlength, hloose⟩ :=
    stays_readSwitches? h List.not_mem_nil hswitches
  have hset := (apply_loose hloose flags true).trans hstrict
  simp only [Construct.ofSwitches?, hswitches, Option.bind_eq_bind, Option.bind_some]
  dsimp only at hread
  unfold Outline.Headed at hheaded
  split at hread
  next hstop =>
    obtain ⟨rfl, rfl⟩ := Prod.mk.inj (Option.some.inj hread)
    rw [if_pos hstop] at hheaded ⊢
    exact ⟨behind, rfl, rfl, ⟨hset, hheaded⟩, hlength⟩
  next hstop =>
    rw [if_neg hstop] at hheaded ⊢
    split at hread
    next => cases hread
    next hsome =>
      obtain ⟨rfl, rfl⟩ := Prod.mk.inj (Option.some.inj hread)
      exact ⟨behind, rfl, if_neg hsome, ⟨hset, hheaded⟩, hlength⟩

theorem stays_ofName? (h : Outline.closes ⟨depth, .name⟩ cs)
    (hread : Construct.ofName? flags (cs ++ tail) = some (construct, rest)) :
    ∃ behind, rest = behind ++ tail ∧ Construct.ofName? flags cs = some (construct, behind) ∧
      construct.Enters depth behind ∧ behind.length ≤ cs.length := by
  obtain ⟨⟨name, last⟩, hname, heq⟩ := Option.map_eq_some_iff.mp hread
  obtain ⟨rfl, rfl⟩ := Prod.mk.inj heq
  obtain ⟨behind, rfl, hname, hbehind, hlength⟩ := stays_readName? h hname
  exact ⟨behind, rfl, by rw [Construct.ofName?, hname]; rfl, ⟨hstrict, hbehind⟩, hlength⟩

theorem stays_ofParen? (h : Outline.closes ⟨depth, .opening⟩ cs)
    (hread : Construct.ofParen? flags (cs ++ tail) = some (construct, rest)) :
    ∃ behind, rest = behind ++ tail ∧ Construct.ofParen? flags cs = some (construct, behind) ∧
      construct.Enters depth behind ∧ behind.length ≤ cs.length := by
  unfold Construct.ofParen? at hread
  rw [next_of_strict hstrict] at hread
  split at hread
  case h_1 heq =>
    obtain ⟨behind, rfl, heq, hheader⟩ := Outline.exists_cons h heq rfl
    obtain ⟨behind, rfl, heq, hheader⟩ := Outline.exists_cons hheader heq.symm rfl
    obtain ⟨behind, rfl, rfl, hname⟩ := Outline.exists_cons hheader heq.symm rfl
    obtain ⟨behind', rfl, hread, henters, hlength⟩ := stays_ofName? hstrict hname hread
    refine ⟨behind', rfl, ?_, henters, by simp only [List.length_cons]; omega⟩
    rw [Construct.ofParen?, next_of_strict hstrict]
    exact hread
  case h_6 hbehind hnotBehind heq =>
    obtain ⟨behind, rfl, heq, hheader⟩ := Outline.exists_cons h heq rfl
    obtain ⟨behind, rfl, rfl, hname⟩ := Outline.exists_cons hheader heq.symm rfl
    obtain ⟨behind', rfl, hread, henters, hlength⟩ := stays_ofName? hstrict hname hread
    refine ⟨behind', rfl, ?_, henters, by simp only [List.length_cons]; omega⟩
    rw [ofParen?_name (next_of_strict hstrict _) (fun more heq => hbehind (more ++ tail) ?_)
      (fun more heq => hnotBehind (more ++ tail) ?_)]
    · exact hread
    · rw [heq]
      rfl
    · rw [heq]
      rfl
  case h_7 hnamed _ _ hahead hnotAhead hname heq =>
    obtain ⟨behind, rfl, rfl, hheader⟩ := Outline.exists_cons h heq rfl
    obtain ⟨behind', rfl, hread, henters, hlength⟩ := stays_ofSwitches? hstrict hheader hread
    refine ⟨behind', rfl, ?_, henters, Nat.le_succ_of_le hlength⟩
    rw [ofParen?_switches (next_of_strict hstrict _) (fun more heq => hnamed (more ++ tail) ?_)
      (fun more heq => hname (more ++ tail) ?_) (fun more heq => hahead (more ++ tail) ?_)
      (fun more heq => hnotAhead (more ++ tail) ?_)]
    · exact hread
    all_goals
      rw [heq]
      rfl
  case h_8 hmark =>
    obtain ⟨rfl, rfl⟩ := Prod.mk.inj (Option.some.inj hread)
    cases cs with
    | nil => cases h
    | cons c cs =>
    have hc : c ≠ '?' := by
      rintro rfl
      exact hmark _ rfl
    rw [Outline.closes_opening, if_neg hc] at h
    refine ⟨c :: cs, rfl, ?_, ⟨hstrict, h⟩, Nat.le_refl _⟩
    rw [ofParen?_numbered, next_of_strict hstrict]
    rw [next_of_strict hstrict]
    exact fun more heq => hc (List.cons.inj heq).1
  all_goals cases hread

/-- A construct stays in the text it begins in, unless it is the parenthesis at the end. -/
theorem stays_ofText? (h : Outline.closes ⟨depth, .plain⟩ (c :: cs)) (hstop : ¬ (c = ')' ∧ cs = []))
    (hread : Construct.ofText? flags c (cs ++ tail) = some (construct, rest)) :
    ∃ behind, rest = behind ++ tail ∧ Construct.ofText? flags c cs = some (construct, behind) ∧
      construct.Leaves depth behind ∧ behind.length ≤ cs.length := by
  unfold Construct.ofText? at hread ⊢
  split at hread
  case h_1 =>
    obtain ⟨behind, hrest, hread, henters, hlength⟩ := stays_ofParen? hstrict h hread
    exact ⟨behind, hrest, hread, henters.leaves, hlength⟩
  case h_2 =>
    obtain ⟨rfl, rfl⟩ := Prod.mk.inj (Option.some.inj hread)
    cases depth with
    | zero => exact absurd ⟨rfl, Outline.eq_nil_of_closed h⟩ hstop
    | succ around => exact ⟨cs, rfl, rfl, ⟨around, rfl, h⟩, Nat.le_refl _⟩
  case h_3 =>
    obtain ⟨rfl, rfl⟩ := Prod.mk.inj (Option.some.inj hread)
    exact ⟨cs, rfl, rfl, h, Nat.le_refl _⟩
  case h_4 =>
    obtain ⟨⟨part, last⟩, hclass, heq⟩ := Option.map_eq_some_iff.mp hread
    obtain ⟨rfl, rfl⟩ := Prod.mk.inj heq
    obtain ⟨behind, rfl, hclass, hbehind, hlength⟩ := stays_readClass? hstrict h hclass
    exact ⟨behind, rfl, by rw [hclass]; rfl, hbehind, hlength⟩
  case h_5 | h_6 | h_7 =>
    have hcs : Outline.closes ⟨depth, .plain⟩ cs := h
    obtain ⟨behind, rfl, hmark, hleaves, hlength⟩ := stays_ofMark hcs (Option.some.inj hread)
    exact ⟨behind, rfl, congrArg some hmark, hleaves, hlength⟩
  case h_8 =>
    have hcs : Outline.closes ⟨depth, .plain⟩ cs := h
    obtain ⟨⟨least, most, last⟩, hbounds, heq⟩ := Option.map_eq_some_iff.mp hread
    obtain ⟨behind, rfl, hbounds, hbehind, hlength⟩ :=
      stays_readBounds? hstrict (Outline.idle_plain depth) hcs hbounds
    simp only [next_of_strict hstrict] at heq ⊢
    obtain ⟨behind', rfl, hmark, hleaves, hlength'⟩ := stays_ofMark hbehind heq
    refine ⟨behind', rfl, ?_, hleaves, Nat.le_trans hlength' hlength⟩
    rw [hbounds]
    exact congrArg some hmark
  case h_9 =>
    cases cs with
    | nil => cases h
    | cons d cs =>
    have hcs : Outline.closes ⟨depth, .plain⟩ cs := h
    obtain ⟨⟨escaped, last⟩, hescape, hread⟩ := Option.bind_eq_some_iff.mp hread
    obtain ⟨found, hfound, heq⟩ := Option.map_eq_some_iff.mp hread
    obtain ⟨rfl, rfl⟩ := Prod.mk.inj heq
    obtain ⟨behind, rfl, hescape, hbehind, hlength⟩ :=
      stays_readEscape? hstrict (Outline.idle_plain depth) hcs hescape
    refine ⟨behind, rfl, ?_, Construct.leaves_ofEscaped? hfound hbehind, Nat.le_succ_of_le hlength⟩
    rw [hescape]
    simp only [Option.bind_eq_bind, Option.bind_some, hfound, Option.map_some]
  case h_10 =>
    have hcs : Outline.closes ⟨depth, .plain⟩ cs := h
    obtain ⟨set, hset, heq⟩ := Option.map_eq_some_iff.mp hread
    obtain ⟨rfl, rfl⟩ := Prod.mk.inj heq
    exact ⟨cs, rfl, by rw [hset]; rfl, hcs, Nat.le_refl _⟩
  case h_11 | h_12 =>
    obtain ⟨rfl, rfl⟩ := Prod.mk.inj (Option.some.inj hread)
    exact ⟨cs, rfl, rfl, h, Nat.le_refl _⟩
  case h_13 hopen hclose _ hbracket _ _ _ _ hescape _ _ _ =>
    obtain ⟨rfl, rfl⟩ := Prod.mk.inj (Option.some.inj hread)
    have hplain : Outline.afterPlain depth c = ⟨depth, .plain⟩ := by
      unfold Outline.afterPlain
      split <;> first | rfl | contradiction
    rw [Outline.closes_plain, hplain] at h
    exact ⟨cs, rfl, rfl, h, Nat.le_refl _⟩

end

end

end RouteAudit.Regex
