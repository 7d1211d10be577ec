import RouteAudit.Json.Printer
import RouteAudit.Json.Reader
import RouteAudit.Proofs.Text.Span

/-! # Strings and numbers read back

Each character of a string is read back from what it is escaped to, whatever follows, so a
string is read back up to its closing quote. The digits of a number are read back up to the
first character that could not go on with the number.
-/

namespace RouteAudit.Json

/-! ## Strings -/

theorem hexValue?_hexDigit : ∀ n < 16, Text.hexValue? (Text.hexDigit n) = some n := by decide

/-- Four digits write any code unit. -/
theorem codeUnit?_hexDigits {n : Nat} (h : n < 65536) : ∃ a b c d,
    Text.hexDigits 4 n = [a, b, c, d] ∧ codeUnit? a b c d = some n := by
  refine ⟨_, _, _, _, rfl, ?_⟩
  have hdigit (m : Nat) : Text.hexValue? (Text.hexDigit (m % 16)) = some (m % 16) :=
    hexValue?_hexDigit _ (Nat.mod_lt _ (by decide))
  have hsum : ((n / 16 / 16 / 16 % 16 * 16 + n / 16 / 16 % 16) * 16 + n / 16 % 16) * 16 + n % 16 =
      n := by omega
  simp only [codeUnit?, hdigit, Option.bind_eq_bind, Option.bind_some, Option.pure_def, hsum]

theorem ofCode_toNat {c : Char} (h : c.toNat < 32) : Unit16.ofCode c.toNat = .char c := by
  rw [Unit16.ofCode, if_neg (by omega), Char.ofNat_toNat]

section

variable (rest : List Char)

/-- The units with a character read before them. -/
def withChar (c : Char) : List Unit16 × List Char → List Unit16 × List Char :=
  fun (units, rest) => (.char c :: units, rest)

theorem readUnits?_letter {letter c : Char} (h : letterEscape? letter = some c) :
    readUnits? ('\\' :: letter :: rest) = (readUnits? rest).map (withChar c) := by
  have hletter : letter ≠ 'u' := by
    rintro rfl
    cases h
  rw [readUnits?, h]
  · cases readUnits? rest <;> rfl
  · intro _ _ _ _ _ heq
    exact absurd heq hletter

theorem readUnits?_plain {c : Char} (hquote : c ≠ '"') (hbackslash : c ≠ '\\')
    (hcontrol : ¬ c.toNat < 32) :
    readUnits? (c :: rest) = (readUnits? rest).map (withChar c) := by
  rw [readUnits?, if_neg (not_or.mpr ⟨hbackslash, hcontrol⟩)]
  · rfl
  · exact hquote
  · intro _ _ _ _ _ heq
    exact absurd heq hbackslash
  · intro _ _ heq
    exact absurd heq hbackslash

/-- What a character is escaped to is read as that character. -/
theorem readUnits?_escapeChar (c : Char) :
    readUnits? (escapeChar c ++ rest) = (readUnits? rest).map (withChar c) := by
  unfold escapeChar
  split_ifs with hquote hbackslash hfeed hreturn htab hback hform hcontrol
  · subst hquote; exact readUnits?_letter rest rfl
  · subst hbackslash; exact readUnits?_letter rest rfl
  · subst hfeed; exact readUnits?_letter rest rfl
  · subst hreturn; exact readUnits?_letter rest rfl
  · subst htab; exact readUnits?_letter rest rfl
  · subst hback; exact readUnits?_letter rest rfl
  · subst hform; exact readUnits?_letter rest rfl
  · obtain ⟨x, y, z, w, hdigits, hcode⟩ := codeUnit?_hexDigits (n := c.toNat) (by omega)
    rw [hdigits]
    change readUnits? ('\\' :: 'u' :: x :: y :: z :: w :: rest) = _
    rw [readUnits?, hcode]
    cases readUnits? rest with
    | none => rfl
    | some read => simp [ofCode_toNat hcontrol, withChar]
  · exact readUnits?_plain rest hquote hbackslash hcontrol

theorem readUnits?_quoted (cs : List Char) :
    readUnits? (cs.flatMap escapeChar ++ '"' :: rest) = some (cs.map .char, rest) := by
  induction cs with
  | nil => rw [List.flatMap_nil, List.nil_append, readUnits?]; rfl
  | cons c cs ih => rw [List.flatMap_cons, List.append_assoc, readUnits?_escapeChar, ih]; rfl

theorem charsOfUnits?_chars (cs : List Char) : charsOfUnits? (cs.map .char) = some cs := by
  induction cs with
  | nil => rfl
  | cons c cs ih => rw [List.map_cons, charsOfUnits?, ih]; rfl

/-- A string that was quoted is read back, from after its opening quote. -/
theorem readString?_quoted (s : String) :
    readString? (s.toList.flatMap escapeChar ++ '"' :: rest) = some (some s, rest) := by
  rw [readString?, readUnits?_quoted, Option.map_some]
  dsimp only
  rw [charsOfUnits?_chars, Option.map_some, String.ofList_toList]

end

/-! ## Numbers -/

/-- Text that a number does not go on with. -/
def EndsNumber (rest : List Char) : Prop :=
  ∀ c, rest.head? = some c → c.isDigit = false ∧ c ≠ '.' ∧ c ≠ 'e' ∧ c ≠ 'E'

section

variable {rest : List Char}

theorem span_digits {digits : List Char} (hdigits : ∀ c ∈ digits, c.isDigit)
    (hrest : EndsNumber rest) : (digits ++ rest).span Char.isDigit = (digits, rest) := by
  refine Text.span_eq_iff.mpr ⟨rfl, hdigits, ?_⟩
  intro c hc
  exact Bool.eq_false_iff.mp (hrest c hc).1

/-- A number other than zero does not start with a zero. -/
theorem head_toDigits {n : Nat} (h : n ≠ 0) : (Nat.toDigits 10 n).head? ≠ some '0' := by
  induction n using Nat.strongRecOn with
  | ind n ih =>
      rw [Nat.toDigits_eq_if (by decide)]
      split
      next hlt =>
        have hdigit : ∀ m < 10, m ≠ 0 → Nat.digitChar m ≠ '0' := by decide
        rw [List.head?_cons]
        exact fun heq => hdigit n hlt h (Option.some.inj heq)
      next hle =>
        have hnonempty : Nat.toDigits 10 (n / 10) ≠ [] := Nat.toDigits_ne_nil
        rw [List.head?_append, Option.or_of_isSome (by simp)]
        exact ih (n / 10) (by omega) (by omega)

theorem isDigit_toDigits (n : Nat) : ∀ c ∈ Nat.toDigits 10 n, c.isDigit :=
  fun _ hc => Nat.isDigit_of_mem_toDigits (by decide) (by decide) hc

theorem readWhole?_toDigits (n : Nat) (hrest : EndsNumber rest) :
    readWhole? (Nat.toDigits 10 n ++ rest) = some (Nat.toDigits 10 n, rest) := by
  have hhead : n ≠ 0 → (Nat.toDigits 10 n).head? ≠ some '0' := head_toDigits
  have hnonempty : Nat.toDigits 10 n ≠ [] := Nat.toDigits_ne_nil
  rw [readWhole?, span_digits (isDigit_toDigits n) hrest]
  rcases Nat.eq_zero_or_pos n with rfl | hpos
  · rfl
  · generalize Nat.toDigits 10 n = digits at hnonempty hhead
    cases digits with
    | nil => exact absurd rfl hnonempty
    | cons c digits =>
        have hc : c ≠ '0' := fun heq => hhead (by omega) (by rw [List.head?_cons, heq])
        simp [hc]

theorem readFraction?_end (hrest : EndsNumber rest) : readFraction? rest = some ([], rest) := by
  cases rest with
  | nil => rfl
  | cons c rest =>
      obtain ⟨-, hpoint, -⟩ := hrest c rfl
      rw [readFraction?]
      intro _ heq
      exact hpoint (List.cons.inj heq).1

theorem readExponent?_end (hrest : EndsNumber rest) : readExponent? rest = some ([], rest) := by
  cases rest with
  | nil => rfl
  | cons c rest =>
      obtain ⟨-, -, hlower, hupper⟩ := hrest c rfl
      rw [readExponent?, if_neg (not_or.mpr ⟨hlower, hupper⟩)]

theorem natOfDigits_toDigits (n : Nat) : natOfDigits (Nat.toDigits 10 n) = n :=
  Nat.ofDigitChars_ten_toDigits

/-- A number without fraction and exponent is read from its digits. -/
theorem readNumber?_digits (n : Nat) (hrest : EndsNumber rest) :
    readNumber? (Nat.toDigits 10 n ++ rest) = some (.int n, rest) := by
  have hsign : ∀ cs, Nat.toDigits 10 n ++ rest ≠ '-' :: cs := by
    intro cs heq
    rcases List.append_eq_cons_iff.mp heq with ⟨hnil, -⟩ | ⟨digits, hcons, -⟩
    · exact Nat.toDigits_ne_nil hnil
    · have hdigit : '-'.isDigit := isDigit_toDigits n _ (hcons ▸ List.mem_cons_self)
      cases hdigit
  have hread := readWhole?_toDigits n hrest
  generalize hcs : Nat.toDigits 10 n ++ rest = cs at hsign hread ⊢
  unfold readNumber?
  split
  next digits heq =>
    split at heq
    next => exact absurd rfl (hsign _)
    next =>
      obtain ⟨rfl, rfl⟩ := Prod.mk.inj heq
      simp [hread, readFraction?_end hrest, readExponent?_end hrest, natOfDigits_toDigits]

theorem readNumber?_minus (n : Nat) (hrest : EndsNumber rest) :
    readNumber? ('-' :: Nat.toDigits 10 (n + 1) ++ rest) = some (.int (Int.negSucc n), rest) := by
  have hneg : -((n + 1 : Nat) : Int) = Int.negSucc n := rfl
  have hpos : (n + 1 == 0) = false := rfl
  rw [List.cons_append, readNumber?]
  simp only [readWhole?_toDigits _ hrest, readFraction?_end hrest, readExponent?_end hrest,
    natOfDigits_toDigits, Option.bind_eq_bind, Option.bind_some, Option.pure_def,
    List.isEmpty_nil, hpos, Bool.and_false, Bool.not_false, Bool.and_true, ↓reduceIte, hneg]

theorem toList_toString_ofNat (n : Nat) :
    (toString (Int.ofNat n)).toList = Nat.toDigits 10 n := String.toList_ofList

theorem toList_toString_negSucc (n : Nat) :
    (toString (Int.negSucc n)).toList = '-' :: Nat.toDigits 10 (n + 1) := by
  change ("-" ++ Nat.repr (n + 1)).toList = _
  rw [String.toList_append, Nat.repr_eq_ofList_toDigits, String.toList_ofList,
    String.toList_ofList, List.singleton_append]

/-- A whole number is read back. -/
theorem readNumber?_toString (value : Int) (hrest : EndsNumber rest) :
    readNumber? ((toString value).toList ++ rest) = some (.int value, rest) := by
  cases value with
  | ofNat n =>
      rw [toList_toString_ofNat, readNumber?_digits n hrest]
      rfl
  | negSucc n => rw [toList_toString_negSucc, readNumber?_minus n hrest]

/-- A whole number starts with a digit or a sign. -/
theorem toString_head (value : Int) :
    ∃ c cs, (toString value).toList = c :: cs ∧ (c.isDigit ∨ c = '-') := by
  cases value with
  | ofNat n =>
      have hnonempty : Nat.toDigits 10 n ≠ [] := Nat.toDigits_ne_nil
      obtain ⟨c, cs, hcs⟩ := List.exists_cons_of_ne_nil hnonempty
      exact ⟨c, cs, (toList_toString_ofNat n).trans hcs,
        .inl (isDigit_toDigits n c (hcs ▸ List.mem_cons_self))⟩
  | negSucc n => exact ⟨'-', _, toList_toString_negSucc n, .inr rfl⟩

end

end RouteAudit.Json
