import RouteAudit.Proofs.Text.Span
import RouteAudit.Proofs.Unicode.Names
import RouteAudit.Regex.Reader

/-! # Texts that are read alike

The text of a group can be read apart from what stands behind its closing parenthesis, and a pipe
in it can be given a backslash: each function of the reader takes the same from both texts.
-/

namespace RouteAudit.Regex

/-- A text that ends in a closing parenthesis, and the same text with more behind it, where some
pipes have been given a backslash. A backslash stands together with the character behind it. -/
inductive Alike (tail : List Char) : List Char → List Char → Prop where
  | stop : Alike tail [')'] (')' :: tail)
  | escape {text other : List Char} (c : Char) :
      Alike tail text other → Alike tail ('\\' :: c :: text) ('\\' :: c :: other)
  | char {text other : List Char} {c : Char} :
      c ≠ '\\' → Alike tail text other → Alike tail (c :: text) (c :: other)
  | pipe {text other : List Char} :
      Alike tail text other → Alike tail ('|' :: text) ('\\' :: '|' :: other)

section

variable {tail text other rest : List Char} {flags : Flags} {c : Char}

namespace Alike

theorem ne_nil (h : Alike tail text other) : text ≠ [] := by
  cases h <;> exact List.cons_ne_nil _ _

theorem other_ne_nil (h : Alike tail text other) : other ≠ [] := by
  cases h <;> exact List.cons_ne_nil _ _

theorem length_le (h : Alike tail text other) : text.length ≤ other.length := by
  induction h with
  | stop => simp
  | escape | char | pipe => simp only [List.length_cons]; omega

/-- A character is the same in both texts unless it is a pipe. -/
theorem cons_inv (h : Alike tail (c :: text) other) (htext : text ≠ []) (hescape : c ≠ '\\')
    (hpipe : c ≠ '|') : ∃ behind, other = c :: behind ∧ Alike tail text behind := by
  cases h with
  | stop => exact absurd rfl htext
  | escape => exact absurd rfl hescape
  | char _ hrest => exact ⟨_, rfl, hrest⟩
  | pipe => exact absurd rfl hpipe

theorem nil_inv (h : Alike tail [c] other) : c = ')' ∧ other = ')' :: tail := by
  cases h with
  | stop => exact ⟨rfl, rfl⟩
  | char _ hrest => exact absurd rfl hrest.ne_nil
  | pipe hrest => exact absurd rfl hrest.ne_nil

/-- Behind anything but the last parenthesis the texts go on. -/
theorem cons_inv_of_ne (h : Alike tail (c :: text) other) (hescape : c ≠ '\\') (hpipe : c ≠ '|')
    (hstop : c ≠ ')') : ∃ behind, other = c :: behind ∧ Alike tail text behind := by
  refine h.cons_inv ?_ hescape hpipe
  rintro rfl
  exact hstop h.nil_inv.1

theorem cons_cons_inv_of_ne {d : Char} (h : Alike tail (c :: d :: text) other)
    (hc : c ≠ '\\' ∧ c ≠ '|' ∧ c ≠ ')') (hd : d ≠ '\\' ∧ d ≠ '|' ∧ d ≠ ')') :
    ∃ behind, other = c :: d :: behind ∧ Alike tail text behind := by
  obtain ⟨_, rfl, hnext⟩ := h.cons_inv_of_ne hc.1 hc.2.1 hc.2.2
  obtain ⟨behind, rfl, hbehind⟩ := hnext.cons_inv_of_ne hd.1 hd.2.1 hd.2.2
  exact ⟨behind, rfl, hbehind⟩

/-- What stands first is the same, or a pipe that has been given a backslash. -/
theorem head (h : Alike tail (c :: text) other) :
    ∃ d behind, other = d :: behind ∧ (d = c ∨ c = '|' ∧ d = '\\') := by
  cases h with
  | stop => exact ⟨_, _, rfl, .inl rfl⟩
  | escape => exact ⟨_, _, rfl, .inl rfl⟩
  | char => exact ⟨_, _, rfl, .inl rfl⟩
  | pipe => exact ⟨_, _, rfl, .inr ⟨rfl, rfl⟩⟩

/-- Nothing but a backslash is new at the start of the longer text. -/
theorem cons_of (h : Alike tail text (c :: other)) (hescape : c ≠ '\\') :
    ∃ behind, text = c :: behind ∧ (c ≠ ')' → Alike tail behind other) := by
  cases h with
  | stop => exact ⟨_, rfl, fun hstop => absurd rfl hstop⟩
  | escape => exact absurd rfl hescape
  | char _ hrest => exact ⟨_, rfl, fun _ => hrest⟩
  | pipe => exact absurd rfl hescape

theorem ne_cons (h : Alike tail text other) (hescape : c ≠ '\\')
    (hnot : ∀ more, text = c :: more → False) (more : List Char) (heq : other = c :: more) :
    False := by
  subst heq
  obtain ⟨behind, htext, -⟩ := h.cons_of hescape
  exact hnot behind htext

theorem ne_cons_cons {d : Char} (h : Alike tail text other) (hescape : c ≠ '\\') (hstop : c ≠ ')')
    (hescape' : d ≠ '\\') (hnot : ∀ more, text = c :: d :: more → False) (more : List Char)
    (heq : other = c :: d :: more) : False := by
  subst heq
  obtain ⟨behind, rfl, hnext⟩ := h.cons_of hescape
  obtain ⟨behind, rfl, -⟩ := (hnext hstop).cons_of hescape'
  exact hnot behind rfl

/-- The text can be read apart from anything behind its end. -/
theorem retail (h : Alike tail text other) : ∃ start, other = start ++ ')' :: tail ∧
    ∀ behind, Alike behind text (start ++ ')' :: behind) := by
  induction h with
  | stop => exact ⟨[], rfl, fun _ => .stop⟩
  | escape c _ ih =>
      obtain ⟨start, rfl, hstart⟩ := ih
      exact ⟨'\\' :: c :: start, rfl, fun behind => .escape c (hstart behind)⟩
  | @char _ _ c hc _ ih =>
      obtain ⟨start, rfl, hstart⟩ := ih
      exact ⟨c :: start, rfl, fun behind => .char hc (hstart behind)⟩
  | pipe _ ih =>
      obtain ⟨start, rfl, hstart⟩ := ih
      exact ⟨'\\' :: '|' :: start, rfl, fun behind => .pipe (hstart behind)⟩

theorem append_word {word : List Char} (hword : '\\' ∉ word) (h : Alike tail text other) :
    Alike tail (word ++ text) (word ++ other) := by
  induction word with
  | nil => exact h
  | cons c word ih =>
      rw [List.mem_cons, not_or] at hword
      exact .char (fun heq => hword.1 heq.symm) (ih hword.2)

end Alike

/-- A reader that takes the same from texts that are alike, as long as it leaves something of the
shorter one. -/
def ReadsAlike {α : Type} (read : List Char → Option (α × List Char)) : Prop :=
  ∀ {tail text other rest : List Char} {x : α}, Alike tail text other →
    read text = some (x, rest) → rest ≠ [] →
      ∃ behind, read other = some (x, behind) ∧ Alike tail rest behind

theorem ReadsAlike.map {α β : Type} {read : List Char → Option (α × List Char)} {f : α → β}
    (h : ReadsAlike read) :
    ReadsAlike fun text => (read text).map fun (x, rest) => (f x, rest) := by
  intro tail text other rest y halike hread hrest
  obtain ⟨⟨x, last⟩, hfound, heq⟩ := Option.map_eq_some_iff.mp hread
  obtain ⟨rfl, rfl⟩ := Prod.mk.inj heq
  obtain ⟨behind, hbehind, hlast⟩ := h halike hfound hrest
  exact ⟨behind, by simp [hbehind], hlast⟩

/-! ## Blanks and comments -/

theorem dropLoose_alike (h : Alike tail text other) (inComment : Bool)
    (hrest : dropLoose inComment text ≠ []) :
    Alike tail (dropLoose inComment text) (dropLoose inComment other) := by
  induction h generalizing inComment with
  | stop =>
      cases inComment with
      | true => exact absurd rfl hrest
      | false => exact .stop
  | escape c halike ih =>
      cases inComment with
      | true => exact ih _ hrest
      | false => exact .escape c halike
  | @char text other c hc halike ih =>
      rw [dropLoose] at hrest ⊢
      rw [dropLoose]
      split
      next hcomment =>
        rw [if_pos hcomment] at hrest
        exact ih _ hrest
      next hcomment =>
        rw [if_neg hcomment] at hrest
        split
        next hblank =>
          rw [if_pos hblank] at hrest
          exact ih _ hrest
        next hblank =>
          rw [if_neg hblank] at hrest
          split
          next hsign =>
            rw [if_pos hsign] at hrest
            exact ih _ hrest
          next => exact .char hc halike
  | pipe halike ih =>
      cases inComment with
      | true => exact ih _ hrest
      | false => exact .pipe halike

theorem next_alike (h : Alike tail text other) (hrest : flags.next text ≠ []) :
    Alike tail (flags.next text) (flags.next other) := by
  unfold Flags.next at hrest ⊢
  split
  next hloose =>
    rw [if_pos hloose] at hrest
    exact dropLoose_alike h false hrest
  next => exact h

/-- The next character that counts is the same, unless it is a pipe. -/
theorem next_cons_alike (h : Alike tail text other) (hnext : flags.next text = c :: rest)
    (hrest : rest ≠ []) (hescape : c ≠ '\\') (hpipe : c ≠ '|') :
    ∃ behind, flags.next other = c :: behind ∧ Alike tail rest behind := by
  have halike : Alike tail (flags.next text) (flags.next other) :=
    next_alike h (by rw [hnext]; exact List.cons_ne_nil _ _)
  rw [hnext] at halike
  exact halike.cons_inv hrest hescape hpipe

theorem next_nil (flags : Flags) : flags.next [] = [] := by
  unfold Flags.next
  split <;> rfl

theorem length_next_le (flags : Flags) (cs : List Char) : (flags.next cs).length ≤ cs.length := by
  have hdrop (inComment : Bool) : (dropLoose inComment cs).length ≤ cs.length := by
    fun_induction dropLoose inComment cs <;> grind
  unfold Flags.next
  split
  next => exact hdrop false
  next => exact Nat.le_refl _

theorem ne_nil_of_next (h : flags.next text ≠ []) : text ≠ [] := by
  rintro rfl
  exact h (next_nil flags)

section

variable {loose inComment : Bool} {keep : Char → Bool} {taken : List Char}

/-- How one character is passed or taken by a reader that goes on alike behind it. -/
theorem takeCounted_cons_alike (hstop : keep c = false → Alike tail (c :: text) (c :: other))
    (hgo : ∀ {inComment taken}, takeCounted loose keep inComment text = (taken, rest) →
      '|' ∉ taken → ∃ behind,
        takeCounted loose keep inComment other = (taken, behind) ∧ Alike tail rest behind)
    (htake : takeCounted loose keep inComment (c :: text) = (taken, rest)) (hpipe : '|' ∉ taken) :
    ∃ behind, takeCounted loose keep inComment (c :: other) = (taken, behind) ∧
      Alike tail rest behind := by
  rw [takeCounted] at htake ⊢
  grind

theorem keep_of_mem_takeCounted (htake : takeCounted loose keep inComment text = (taken, rest)) :
    ∀ c ∈ taken, keep c := by
  fun_induction takeCounted loose keep inComment text generalizing taken with
  | case1 =>
      obtain ⟨rfl, -⟩ := Prod.mk.inj htake
      exact nofun
  | case2 _ _ ih => exact ih htake
  | case3 _ _ _ _ _ ih => exact ih htake
  | case4 _ _ _ _ _ _ ih => exact ih htake
  | case5 inComment c cs _ _ _ hkeep more last hmore ih =>
      obtain ⟨rfl, rfl⟩ := Prod.mk.inj htake
      exact List.forall_mem_cons.mpr ⟨hkeep, ih hmore⟩
  | case6 =>
      obtain ⟨rfl, -⟩ := Prod.mk.inj htake
      exact nofun

/-- Characters are taken alike as long as no pipe is among them. -/
theorem takeCounted_alike (hkeep : keep '\\' → keep '|') (h : Alike tail text other)
    (htake : takeCounted loose keep inComment text = (taken, rest)) (hrest : rest ≠ [])
    (hpipe : '|' ∉ taken) : ∃ behind,
      takeCounted loose keep inComment other = (taken, behind) ∧ Alike tail rest behind := by
  have hpipeCounts : Text.isBlank '|' = false := by decide
  have hslashCounts : Text.isBlank '\\' = false := by decide
  induction h generalizing inComment taken with
  | stop =>
      grind [takeCounted, Alike]
  | @escape text other c halike ih =>
      cases inComment with
      | true => exact ih htake hpipe
      | false =>
          by_cases hescape : keep '\\'
          · -- The backslash is taken, so the reader can only stop at another character.
            refine takeCounted_cons_alike (fun hstop => by simp [hescape] at hstop) ?_ htake hpipe
            intro inComment taken htake hpipe
            refine takeCounted_cons_alike (fun hstop => .char ?_ halike) ih htake hpipe
            rintro rfl
            simp [hescape] at hstop
          · refine ⟨'\\' :: c :: other, ?_, ?_⟩ <;> grind [takeCounted, Alike]
  | @char text other c hc halike ih =>
      exact takeCounted_cons_alike (fun _ => .char hc halike) ih htake hpipe
  | pipe halike ih =>
      grind [takeCounted, Alike]

end

/-! ## Escapes -/

theorem takeHex?_alike (flags : Flags) (n : Nat) : ReadsAlike (takeHex? flags n) := by
  induction n with
  | zero =>
      intro tail text other rest digits h htake hrest
      obtain ⟨rfl, rfl⟩ := Prod.mk.inj (Option.some.inj htake)
      exact ⟨other, rfl, h⟩
  | succ n ih =>
      intro tail text other rest digits h htake hrest
      rw [takeHex?] at htake
      split at htake
      · cases htake
      next c cs hnext =>
        obtain ⟨value, hvalue, htake⟩ := Option.bind_eq_some_iff.mp htake
        obtain ⟨⟨more, last⟩, hmore, heq⟩ := Option.bind_eq_some_iff.mp htake
        obtain ⟨rfl, rfl⟩ := Prod.mk.inj (Option.some.inj heq)
        have hcs : cs ≠ [] := by
          rintro rfl
          cases n with
          | zero => exact hrest (Prod.mk.inj (Option.some.inj hmore)).2.symm
          | succ n =>
              rw [takeHex?, next_nil] at hmore
              cases hmore
        obtain ⟨behind, hbehind, halike⟩ := next_cons_alike h hnext hcs
          (by rintro rfl; cases hvalue) (by rintro rfl; cases hvalue)
        obtain ⟨last', htaken, hlast⟩ := ih halike hmore hrest
        refine ⟨last', ?_, hlast⟩
        rw [takeHex?, hbehind]
        simp [hvalue, htaken]

theorem takeHex?_nil {flags : Flags} {n : Nat} {digits : List Char}
    (h : takeHex? flags n [] = some (digits, rest)) : digits = [] := by
  cases n with
  | zero => exact (Prod.mk.inj (Option.some.inj h)).1.symm
  | succ n =>
      rw [takeHex?, next_nil] at h
      cases h

theorem not_isSign_of_hexValue? {n : Nat} (h : Text.hexValue? c = some n) :
    Unicode.isSign c = false :=
  Unicode.not_isSign_of (p := fun c => (Text.hexValue? c).isSome) (by decide) (by rw [h]; rfl)

theorem not_isSign_of_charOfHex? {digits : List Char} (h : charOfHex? digits = some c) :
    ∀ d ∈ digits, Unicode.isSign d = false := by
  have hfold : ∀ (digits : List Char) (n : Nat) {code : Nat},
      digits.foldlM (fun n c => (Text.hexValue? c).map (16 * n + ·)) n = some code →
        ∀ d ∈ digits, Unicode.isSign d = false := by
    intro digits
    induction digits with
    | nil => exact fun _ _ _ => List.forall_mem_nil _
    | cons d digits ih =>
        intro n code hcode
        rw [List.foldlM_cons] at hcode
        obtain ⟨next, hnext, hcode⟩ := Option.bind_eq_some_iff.mp hcode
        obtain ⟨value, hvalue, -⟩ := Option.map_eq_some_iff.mp hnext
        exact List.forall_mem_cons.mpr ⟨not_isSign_of_hexValue? hvalue, ih next hcode⟩
  cases digits with
  | nil => exact List.forall_mem_nil _
  | cons d digits =>
      rw [charOfHex?, if_neg (by simp)] at h
      obtain ⟨code, hcode, -⟩ := Option.bind_eq_some_iff.mp h
      exact hfold _ 0 hcode

/-- What stands between braces is taken alike if there is no pipe in it. -/
theorem takeBraced_alike {loose : Bool} {inside : List Char} (h : Alike tail text other)
    (htake : takeCounted loose (· ≠ '\x7d') false text = (inside, '\x7d' :: rest))
    (hrest : rest ≠ []) (hpipe : '|' ∉ inside) : ∃ behind,
      takeCounted loose (· ≠ '\x7d') false other = (inside, '\x7d' :: behind) ∧
        Alike tail rest behind := by
  obtain ⟨last, htaken, hlast⟩ := takeCounted_alike (fun _ => rfl) h htake (by simp) hpipe
  obtain ⟨behind, rfl, halike⟩ := hlast.cons_inv hrest (by decide) (by decide)
  exact ⟨behind, htaken, halike⟩

theorem readHex?_alike (flags : Flags) (digits : Nat) : ReadsAlike (readHex? flags digits) := by
  intro tail text other rest escaped h hread hrest
  unfold readHex? at hread
  split at hread
  next cs hnext =>
    split at hread
    next inside last htake =>
      obtain ⟨c, hc, heq⟩ := Option.map_eq_some_iff.mp hread
      obtain ⟨rfl, rfl⟩ := Prod.mk.inj heq
      have hcs : cs ≠ [] := by
        rintro rfl
        cases htake
      obtain ⟨braced, hbraced, halike⟩ := next_cons_alike h hnext hcs (by decide) (by decide)
      obtain ⟨behind, htaken, hlast⟩ := takeBraced_alike halike htake (ne_nil_of_next hrest)
        (fun hmem => nomatch not_isSign_of_charOfHex? hc '|' hmem)
      refine ⟨flags.next behind, ?_, next_alike hlast hrest⟩
      rw [readHex?, hbraced]
      simp only [htaken, hc, Option.map_some]
    next => cases hread
  next hbrace =>
    obtain ⟨⟨inside, last⟩, htake, hread⟩ := Option.bind_eq_some_iff.mp hread
    obtain ⟨c, hc, heq⟩ := Option.bind_eq_some_iff.mp hread
    obtain ⟨rfl, rfl⟩ := Prod.mk.inj (Option.some.inj heq)
    have hnext : flags.next text ≠ [] := by
      intro hnil
      rw [hnil] at htake
      rw [takeHex?_nil htake] at hc
      cases hc
    have halike := next_alike h hnext
    obtain ⟨behind, htaken, hlast⟩ := takeHex?_alike flags digits halike htake
      (ne_nil_of_next hrest)
    refine ⟨flags.next behind, ?_, next_alike hlast hrest⟩
    unfold readHex?
    split
    next cs hother =>
      rw [hother] at halike
      obtain ⟨inside, hinside, -⟩ := halike.cons_of (by decide)
      exact absurd hinside (hbrace inside)
    next => simp [htaken, hc]

section

variable {sign : Char} {inside name value : List Char}

theorem splitAtUnequal_of_mem (hsign : sign ≠ '!' ∧ sign ≠ '=') (h : sign ∈ inside)
    (hsplit : WrittenProperty.splitAtUnequal inside = some (name, value)) :
    sign ∈ name ∨ sign ∈ value := by
  fun_induction WrittenProperty.splitAtUnequal inside generalizing name with
  | case1 cs =>
      obtain ⟨rfl, rfl⟩ := Prod.mk.inj (Option.some.inj hsplit)
      exact .inr (by simpa [hsign] using h)
  | case2 c cs _ ih =>
      obtain ⟨⟨start, behind⟩, hstart, heq⟩ := Option.map_eq_some_iff.mp hsplit
      obtain ⟨rfl, rfl⟩ := Prod.mk.inj heq
      rcases List.mem_cons.mp h with rfl | h
      · exact .inl List.mem_cons_self
      · exact (ih h hstart).imp_left (List.mem_cons_of_mem c)
  | case3 => cases hsplit

theorem mem_of_span {stop : Char} {keep : Char → Bool} (h : sign ∈ inside) (hkeep : keep sign)
    (hspan : inside.span keep = (name, stop :: value)) : sign ∈ name ∨ sign ∈ value := by
  obtain ⟨rfl, -, hstop⟩ := Text.span_eq_iff.mp hspan
  rcases List.mem_append.mp h with h | h
  · exact .inl h
  · rcases List.mem_cons.mp h with rfl | h
    · exact absurd hkeep (hstop sign rfl)
    · exact .inr h

theorem which?_of_sign (hsign : Unicode.isSign sign) (h : sign ∈ inside) :
    (WrittenProperty.ofInside inside).which? = none := by
  have hother {c : Char} (hc : Unicode.isSign c = false) : sign ≠ c := by
    rintro rfl
    rw [hc] at hsign
    cases hsign
  have hsplit : sign ≠ '!' ∧ sign ≠ '=' := ⟨hother rfl, hother rfl⟩
  have hcolon : sign ≠ ':' := hother rfl
  unfold WrittenProperty.ofInside
  split
  next name value heq =>
    exact Unicode.Property.ofValue?_of_sign hsign (splitAtUnequal_of_mem hsplit h heq)
  next =>
    cases hspan : inside.span (· ≠ ':') with
    | mk name rest =>
    cases rest with
    | cons stop value =>
        exact Unicode.Property.ofValue?_of_sign hsign (mem_of_span h (by simpa using hcolon) hspan)
    | nil =>
        cases hequal : inside.span (· ≠ '=') with
        | mk name rest =>
        cases rest with
        | cons stop value =>
            exact Unicode.Property.ofValue?_of_sign hsign
              (mem_of_span h (by simpa using hsplit.2) hequal)
        | nil => exact Unicode.Property.ofName?_of_sign hsign h

/-- There is no sign of a pattern in what stands between the braces of a property. -/
theorem not_isSign_of_propertyClass? {negated : Bool} {set : CharSet}
    (h : propertyClass? flags negated inside = some set) :
    ∀ c ∈ inside, Unicode.isSign c = false := by
  intro c hc
  unfold propertyClass? at h
  split at h
  next => cases h
  next =>
    obtain ⟨which, hwhich, -⟩ := Option.bind_eq_some_iff.mp h
    cases hsign : Unicode.isSign c with
    | false => rfl
    | true =>
        rw [which?_of_sign hsign hc] at hwhich
        cases hwhich

end

theorem readProperty?_alike (flags : Flags) (negated : Bool) :
    ReadsAlike (readProperty? flags negated) := by
  intro tail text other rest escaped h hread hrest
  unfold readProperty? at hread
  split at hread
  next => cases hread
  next cs hnext =>
    split at hread
    next inside last htake =>
      obtain ⟨set, hset, heq⟩ := Option.map_eq_some_iff.mp hread
      obtain ⟨rfl, rfl⟩ := Prod.mk.inj heq
      have hcs : cs ≠ [] := by
        rintro rfl
        cases htake
      obtain ⟨braced, hbraced, halike⟩ := next_cons_alike h hnext hcs (by decide) (by decide)
      have hpipe : '|' ∉ inside := fun hmem =>
        nomatch not_isSign_of_propertyClass? hset '|' hmem
      obtain ⟨behind, htaken, hlast⟩ := takeBraced_alike halike htake hrest hpipe
      refine ⟨behind, ?_, hlast⟩
      rw [readProperty?, hbraced]
      simp only [htaken, hset, Option.map_some]
    next => cases hread
  next => cases hread
  next c cs hbrace hescape hnext =>
    obtain ⟨set, hset, heq⟩ := Option.map_eq_some_iff.mp hread
    obtain ⟨rfl, rfl⟩ := Prod.mk.inj heq
    have hpipe : c ≠ '|' := by
      rintro rfl
      exact nomatch not_isSign_of_propertyClass? hset '|' List.mem_cons_self
    obtain ⟨behind, hbehind, halike⟩ :=
      next_cons_alike h hnext (ne_nil_of_next hrest) hescape hpipe
    refine ⟨flags.next behind, ?_, next_alike halike hrest⟩
    rw [readProperty?, hbehind]
    split
    next heq => cases heq
    next heq => exact absurd (List.cons.inj heq).1 hbrace
    next heq => exact absurd (List.cons.inj heq).1 hescape
    next heq =>
      obtain ⟨rfl, rfl⟩ := List.cons.inj heq
      rw [hset]
      rfl

theorem readWordEdge?_alike (flags : Flags) : ReadsAlike (readWordEdge? flags) := by
  intro tail text other rest escaped h hread hrest
  unfold readWordEdge? at hread
  dsimp only at hread
  split at hread
  next inside =>
    split at hread
    · cases hread
    next c cs hnext =>
      have hsome : flags.next inside ≠ [] := by rw [hnext]; exact List.cons_ne_nil _ _
      obtain ⟨braced, rfl, hbraced⟩ := h.cons_inv (ne_nil_of_next hsome) (by decide) (by decide)
      have halike := next_alike hbraced hsome
      rw [hnext] at halike
      unfold readWordEdge?
      dsimp only
      split at hread
      next hname =>
        obtain ⟨d, ds, hds, rfl | ⟨rfl, -⟩⟩ := halike.head
        case inr => cases hname
        split at hread
        next name last htake =>
          obtain ⟨look, hlook, heq⟩ := Option.map_eq_some_iff.mp hread
          obtain ⟨rfl, rfl⟩ := Prod.mk.inj heq
          obtain ⟨last', htaken, hlast⟩ := takeCounted_alike (fun hslash => by cases hslash)
            hbraced htake (by simp)
            fun hmem => nomatch keep_of_mem_takeCounted htake '|' hmem
          obtain ⟨behind, rfl, hbehind⟩ := hlast.cons_inv hrest (by decide) (by decide)
          refine ⟨behind, ?_, hbehind⟩
          simp only [hds]
          rw [if_pos hname]
          simp only [htaken, hlook, Option.map_some]
        next => cases hread
      next hname =>
        obtain ⟨rfl, rfl⟩ := Prod.mk.inj (Option.some.inj hread)
        refine ⟨_, ?_, h⟩
        obtain ⟨d, ds, hds, hd⟩ := halike.head
        simp only [hds]
        rw [if_neg]
        rcases hd with rfl | ⟨-, rfl⟩
        · exact hname
        · decide
  next hbrace =>
    obtain ⟨rfl, rfl⟩ := Prod.mk.inj (Option.some.inj hread)
    refine ⟨other, ?_, h⟩
    unfold readWordEdge?
    dsimp only
    split
    next inside =>
      obtain ⟨behind, rfl, -⟩ := h.cons_of (by decide)
      exact absurd rfl (hbrace behind)
    next => rfl

/-- An escape is read alike, whatever character stands behind its backslash. -/
theorem readEscape?_alike {flags : Flags} {c : Char} {escaped : Escaped}
    (h : Alike tail text other) (hread : readEscape? flags (c :: text) = some (escaped, rest))
    (hrest : rest ≠ []) : ∃ behind, readEscape? flags (c :: other) = some (escaped, behind) ∧
      Alike tail rest behind := by
  unfold readEscape? at hread ⊢
  dsimp only at hread ⊢
  split at hread
  next hescapable =>
    obtain ⟨rfl, rfl⟩ := Prod.mk.inj (Option.some.inj hread)
    exact ⟨other, if_pos hescapable, h⟩
  next hescapable =>
    rw [if_neg hescapable]
    split at hread
    · exact readHex?_alike flags 2 h hread hrest
    · exact readHex?_alike flags 4 h hread hrest
    · exact readHex?_alike flags 8 h hread hrest
    · exact readProperty?_alike flags false h hread hrest
    · exact readProperty?_alike flags true h hread hrest
    case h_14 => exact readWordEdge?_alike flags h hread hrest
    case h_18 =>
      obtain ⟨set, hset, heq⟩ := Option.map_eq_some_iff.mp hread
      obtain ⟨rfl, rfl⟩ := Prod.mk.inj heq
      refine ⟨other, ?_, h⟩
      rw [hset]
      rfl
    all_goals
      obtain ⟨rfl, rfl⟩ := Prod.mk.inj (Option.some.inj hread)
      exact ⟨other, rfl, h⟩

end

end RouteAudit.Regex
