import RouteAudit.Proofs.Regex.Chains
import RouteAudit.Proofs.Unicode.Words

/-! # Expressions and patched texts

A patch puts pieces of its own in the places of runs of one character. An expression that occurs
in a patched text need not occur in the text itself, but for a given patch it can be decided chain
by chain whether it does (`Patch.keeps`): a match must not start inside of a piece nor end there,
unless what it needs of the piece the old characters give as well.
-/

namespace RouteAudit.Regex

/-! ## What the next characters rule out -/

/-- Which characters the next ones can be, one choice after the other. -/
abbrev Foresight := List (List Char)

/-- The text goes on as foreseen, or ends before that. -/
def Foresight.Fits : Foresight → List Char → Prop
  | choices :: later, c :: cs => c ∈ choices ∧ Foresight.Fits later cs
  | _, _ => True

/-- A text goes on as a word that it starts with. -/
theorem Foresight.fits_word (word rest : List Char) :
    Foresight.Fits (word.map fun c => [c]) (word ++ rest) := by
  induction word with
  | nil => trivial
  | cons c word ih => exact ⟨List.mem_singleton_self c, ih⟩

/-- Whether the chain cannot occur where the text goes on like that. What an assertion says is not
looked at. -/
def Chain.blocked : Chain → Foresight → Bool
  | .one chars :: chain, choices :: later =>
    !choices.any chars.holds || Chain.blocked chain later
  | .many chars :: _, choices :: _ => !choices.any chars.holds
  | .look _ :: chain, known => Chain.blocked chain known
  | _, _ => false

theorem Chain.not_occurs_of_blocked {chain : Chain} {known : Foresight} {before : Option Char}
    {text : List Char} (hblocked : chain.blocked known) (hfits : known.Fits text) :
    ¬ chain.Occurs before text := by
  fun_induction Chain.blocked chain known generalizing before text with
  | case1 chars chain choices later ih =>
      rintro ⟨c, rest, rfl, hmem, hoccurs⟩
      obtain ⟨hc, hfits⟩ := hfits
      have hany : choices.any chars.holds := List.any_eq_true.mpr ⟨c, hc, hmem⟩
      rw [hany] at hblocked
      exact ih hblocked hfits hoccurs
  | case2 chars chain choices later =>
      rintro ⟨start, c, rest, rfl, hstart, hmem, -⟩
      -- The stretch is not empty, so its first character is one of the choices.
      have hany : choices.any chars.holds := by
        rw [List.any_eq_true]
        cases start with
        | nil => exact ⟨c, hfits.1, hmem⟩
        | cons d start => exact ⟨d, hfits.1, hstart d List.mem_cons_self⟩
      rw [hany] at hblocked
      cases hblocked
  | case3 assertion chain known ih => exact fun hoccurs => ih hblocked hfits hoccurs.2
  | case4 => cases hblocked

/-! ## Patches -/

/-- Pieces that stand for runs of an old character, and what is known of them. A piece stands at the
start of a text or behind a character that opens one. -/
structure Patch where
  Piece : List Char → Prop
  old : Char
  last : Char
  opens : List Char
  closes : Char → Bool
  start : Foresight
  inner : List Foresight
  ends_last : ∀ {piece}, Piece piece → ∃ front, piece = front ++ [last]
  fits_start : ∀ {piece} rest, Piece piece → start.Fits (piece ++ rest)
  fits_inner : ∀ {first second rest}, Piece (first ++ second) → first ≠ [] → second ≠ [] →
    (∀ c ∈ rest.head?, closes c) → ∃ known ∈ inner, known.Fits (second ++ rest)
  old_not_word : Look.wordAt true (some old) = false

/-- A text and the same with pieces in the places of some runs of the old character, behind a
character. -/
inductive Patch.Patched (patch : Patch) : Option Char → List Char → List Char → Prop where
  | nil (before : Option Char) : patch.Patched before [] []
  | keep {before : Option Char} {text candidate : List Char} (c : Char) :
      patch.Patched (some c) text candidate → patch.Patched before (c :: text) (c :: candidate)
  | put {before : Option Char} {text candidate piece : List Char} (n : Nat) :
      (∀ c ∈ before, c ∈ patch.opens) → patch.Piece piece →
        (∀ c ∈ candidate.head?, patch.closes c) → patch.Patched (some patch.last) text candidate →
          patch.Patched before (List.replicate (n + 1) patch.old ++ text) (piece ++ candidate)

namespace Patch

variable {patch : Patch} {before other : Option Char} {text candidate piece : List Char}

/-- The same character stands before, or a piece in one text and an old character in the other. -/
def Alike (patch : Patch) (before other : Option Char) : Prop :=
  other = before ∨ before = some patch.last ∧ other = some patch.old

/-- What stands before opens no piece. -/
def Clear (patch : Patch) (before : Option Char) : Prop := ∃ c ∈ before, c ∉ patch.opens

theorem Piece.ne_nil (h : patch.Piece piece) : piece ≠ [] := by
  obtain ⟨front, rfl⟩ := patch.ends_last h
  simp

theorem Piece.getLast? (h : patch.Piece piece) : piece.getLast? = some patch.last := by
  obtain ⟨front, rfl⟩ := patch.ends_last h
  simp

theorem Alike.isNone (h : patch.Alike before other) : other.isNone = before.isNone := by
  rcases h with rfl | ⟨rfl, rfl⟩ <;> rfl

theorem getLast?_replicate_succ (n : Nat) (c : Char) :
    (List.replicate (n + 1) c).getLast? = some c := by
  simp [List.getLast?_replicate]

namespace Patched

protected theorem refl (before : Option Char) (text : List Char) :
    patch.Patched before text text := by
  induction text generalizing before with
  | nil => exact .nil before
  | cons c text ih => exact .keep c (ih _)

theorem eq_nil (h : patch.Patched before text []) : text = [] := by
  generalize hempty : [] = candidate at h
  cases h with
  | nil => rfl
  | keep => cases hempty
  | put _ _ hpiece => exact absurd (List.append_eq_nil_iff.mp hempty.symm).1 (Piece.ne_nil hpiece)

/-- How a text goes on where a patch of it does, behind `front` in one and `start` in the other. -/
structure Behind (patch : Patch) (before other : Option Char) (start front text rest : List Char) :
    Prop where
  patched : patch.Patched (start.getLast?.or before) text rest
  alike : patch.Alike (start.getLast?.or before) (front.getLast?.or other)
  chars : ∀ d ∈ front, d ∈ start ∨ d = patch.old
  nonempty : start ≠ [] → front ≠ []

theorem Behind.here (h : patch.Patched before text candidate) (halike : patch.Alike before other) :
    Behind patch before other [] [] text candidate :=
  ⟨h, halike, nofun, id⟩

/-- Where a patched text goes on, the text goes on with a patch of it, or it is inside a piece. -/
theorem behind (h : patch.Patched before text candidate) (halike : patch.Alike before other)
    {start rest : List Char} (hsplit : candidate = start ++ rest) :
    (∃ front later, text = front ++ later ∧ Behind patch before other start front later rest) ∨
      start ≠ [] ∧ ∃ known ∈ patch.inner, known.Fits rest := by
  induction h generalizing start other with
  | nil before =>
      obtain ⟨rfl, rfl⟩ := List.append_eq_nil_iff.mp hsplit.symm
      exact .inl ⟨[], [], rfl, .here (.nil before) halike⟩
  | @keep before text candidate c h ih =>
      cases start with
      | nil =>
          obtain rfl := hsplit
          exact .inl ⟨[], c :: text, rfl, .here (.keep c h) halike⟩
      | cons d start =>
          obtain ⟨rfl, htail⟩ := List.cons.inj hsplit
          rcases ih (.inl rfl) htail with ⟨front, later, rfl, hbehind⟩ | ⟨-, hinner⟩
          · refine .inl ⟨c :: front, later, rfl, ?_, ?_, ?_, fun _ => List.cons_ne_nil c front⟩
            · simpa [List.getLast?_cons] using hbehind.patched
            · simpa [List.getLast?_cons] using hbehind.alike
            · exact List.forall_mem_cons.mpr ⟨.inl List.mem_cons_self, fun d hd =>
                (hbehind.chars d hd).imp_left (List.mem_cons_of_mem c)⟩
          · exact .inr ⟨List.cons_ne_nil c start, hinner⟩
  | @put before text candidate piece n hopens hpiece hcloses h ih =>
      have hlast := Piece.getLast? hpiece
      have hold := getLast?_replicate_succ n patch.old
      have hnonempty (front : List Char) : List.replicate (n + 1) patch.old ++ front ≠ [] := by
        simp
      rcases List.append_eq_append_iff.mp hsplit with ⟨more, rfl, hmore⟩ | ⟨more, rfl, rfl⟩
      · -- The piece is passed as a whole.
        rcases ih (.inr ⟨rfl, rfl⟩) hmore with ⟨front, later, rfl, hbehind⟩ | ⟨hne, hinner⟩
        · refine .inl ⟨List.replicate (n + 1) patch.old ++ front, later, ?_, ?_, ?_, ?_,
            fun _ => hnonempty front⟩
          · rw [List.append_assoc]
          · simpa [List.getLast?_append, hlast] using hbehind.patched
          · simpa [List.getLast?_append, hlast, hold] using hbehind.alike
          · intro d hd
            rcases List.mem_append.mp hd with hd | hd
            · exact .inr (List.eq_of_mem_replicate hd)
            · exact (hbehind.chars d hd).imp_left (List.mem_append_right piece)
        · exact .inr ⟨List.append_ne_nil_of_right_ne_nil _ hne, hinner⟩
      · by_cases hstart : start = []
        · subst hstart
          exact .inl ⟨[], _, rfl, .here (.put n hopens hpiece hcloses h) halike⟩
        by_cases hmore : more = []
        · subst hmore
          rw [List.append_nil] at hpiece hlast
          refine .inl ⟨List.replicate (n + 1) patch.old, text, rfl, ?_, ?_, ?_, fun _ => ?_⟩
          · simpa [hlast] using h
          · rw [hlast, hold]
            exact .inr ⟨rfl, rfl⟩
          · exact fun d hd => .inr (List.eq_of_mem_replicate hd)
          · simp
        · exact .inr ⟨hstart, patch.fits_inner hpiece hstart hmore hcloses⟩

/-- The next character of a patched text is kept, or a piece starts with it. -/
theorem next {c : Char} {rest : List Char} (h : patch.Patched before text (c :: rest)) :
    (∃ later, text = c :: later ∧ patch.Patched (some c) later rest) ∨
      ¬ patch.Clear before ∧ patch.start.Fits (c :: rest) ∧ ∃ later, text = patch.old :: later := by
  generalize hcandidate : c :: rest = candidate at h
  cases h with
  | nil => cases hcandidate
  | keep d h =>
      obtain ⟨rfl, rfl⟩ := List.cons.inj hcandidate
      exact .inl ⟨_, rfl, h⟩
  | @put _ text candidate piece n hopens hpiece =>
      refine .inr ⟨?_, patch.fits_start candidate hpiece, ?_⟩
      · rintro ⟨d, hd, hnot⟩
        exact hnot (hopens d hd)
      · exact ⟨List.replicate n patch.old ++ text, by rw [List.replicate_succ, List.cons_append]⟩

/-- Where no piece starts, both texts go on with the same character. -/
theorem head?_eq (h : patch.Patched before text candidate) (hclear : patch.Clear before) :
    candidate.head? = text.head? := by
  cases h with
  | nil | keep => rfl
  | put n hopens =>
      obtain ⟨c, hc, hother⟩ := hclear
      exact absurd (hopens c hc) hother

end Patched

/-! ## Chains that are kept -/

/-- Whether no character of the set opens a piece. -/
def avoids (patch : Patch) (chars : CharSet) : Bool := !patch.opens.any chars.holds

theorem clear_of_avoids {chars : CharSet} {c : Char} (h : patch.avoids chars) (hc : c ∈ chars) :
    patch.Clear (some c) := by
  refine ⟨c, rfl, fun hopens => ?_⟩
  have hany : patch.opens.any chars.holds := List.any_eq_true.mpr ⟨c, hopens, hc⟩
  rw [avoids, hany] at h
  cases h

/-- Whether a chain starts with a character that stands inside words. -/
def startsWord : Chain → Bool
  | .one (.oneOf members) :: _ =>
    members.all fun c => (c.toNat < 128 && Unicode.isWord c) || c == '\u017F'
  | _ => false

theorem exists_word_of_startsWord {chain : Chain} (h : startsWord chain)
    (hoccurs : chain.Occurs before text) : ∃ c rest, text = c :: rest ∧ Unicode.isWord c := by
  unfold startsWord at h
  split at h
  next members chain =>
    obtain ⟨c, rest, rfl, hmem, -⟩ := hoccurs
    refine ⟨c, rest, rfl, ?_⟩
    have hword := List.all_eq_true.mp h c (List.contains_iff_mem.mp hmem)
    rw [Bool.or_eq_true, Bool.and_eq_true, beq_iff_eq] at hword
    rcases hword with ⟨-, hword⟩ | rfl
    · exact hword
    · exact Unicode.isWord_longS
  next => cases h

/-- What is left of chains behind an atom that they start with. -/
def chainsBehind (atom : Atom) (chains : List Chain) : List Chain :=
  chains.filterMap fun
    | [] => none
    | first :: chain => if first = atom then some chain else none

theorem mem_chainsBehind {atom : Atom} {chains : List Chain} {chain : Chain} :
    chain ∈ chainsBehind atom chains ↔ atom :: chain ∈ chains := by
  rw [chainsBehind, List.mem_filterMap]
  constructor
  · rintro ⟨other, hmem, hother⟩
    cases other with
    | nil => cases hother
    | cons first other =>
        dsimp only at hother
        split at hother
        next heq =>
          obtain rfl := Option.some.inj hother
          rwa [← heq]
        next => cases hother
  · intro hmem
    exact ⟨_, hmem, if_pos rfl⟩

/-- Whether some chain asks for nothing but the old character. -/
def greeted (patch : Patch) (chains : List Chain) : Bool :=
  chains.any fun
    | [.one chars] => chars.holds patch.old
    | _ => false

theorem occurs_of_greeted {chains : List Chain} (h : patch.greeted chains) (before : Option Char)
    (text : List Char) : ∃ chain ∈ chains, chain.Occurs before (patch.old :: text) := by
  obtain ⟨chain, hchain, hgreets⟩ := List.any_eq_true.mp h
  split at hgreets
  next chars => exact ⟨_, hchain, _, _, rfl, hgreets, trivial⟩
  next => cases hgreets

/-- Whether an occurrence of a chain in a patched text leads to an occurrence of one of the given
chains in the text. `clear` tells that no piece starts where the chain does. -/
def carries (patch : Patch) : List Chain → Chain → Bool → Bool
  | _, [], _ => true
  | chains, .one chars :: chain, clear =>
    (clear || Chain.blocked (.one chars :: chain) patch.start || patch.greeted chains) &&
      patch.carries (chainsBehind (.one chars) chains) chain (patch.avoids chars)
  | chains, .many chars :: chain, clear =>
    (clear && patch.avoids chars || Chain.blocked [.many chars] patch.start ||
      chars.holds patch.old && patch.inner.all (Chain.blocked chain)) &&
      patch.carries (chainsBehind (.many chars) chains) chain (patch.avoids chars)
  | chains, .look .textStart :: chain, clear =>
    patch.carries (chainsBehind (.look .textStart) chains) chain clear
  | chains, .look .textEnd :: chain, clear =>
    patch.carries (chainsBehind (.look .textEnd) chains) chain clear
  | chains, .look (.wordEdge true) :: chain, clear =>
    startsWord chain && (clear || Chain.blocked chain patch.start) &&
      patch.carries (chainsBehind (.look (.wordEdge true)) chains) chain clear
  | _, .look _ :: _, _ => false

/-- Whether no occurrence of the expression is new in any patched text. -/
def keeps (patch : Patch) (e : Expr) : Bool :=
  e.wellBounded && e.unrolls && e.chains.all fun chain =>
    patch.carries e.chains chain false &&
      (chain.head? = some (.look .textStart) || patch.inner.all chain.blocked)

section

variable {chains : List Chain} {chain : Chain} {clear : Bool} {chars : CharSet}

/-- Where the chain occurs in a patched text, one of the chains occurs in the text. -/
def Carried (patch : Patch) (chains : List Chain) (chain : Chain) (clear : Bool) : Prop :=
  chain ∈ chains → ∀ {before other : Option Char} {text candidate : List Char},
    patch.Patched before text candidate → patch.Alike before other →
      (clear → patch.Clear before) → chain.Occurs before candidate →
        ∃ first ∈ chains, first.Occurs other text

theorem Carried.one
    (hstart : clear || Chain.blocked (.one chars :: chain) patch.start || patch.greeted chains)
    (ih : patch.Carried (chainsBehind (.one chars) chains) chain (patch.avoids chars)) :
    patch.Carried chains (.one chars :: chain) clear := by
  intro hmem before other text candidate hpatched halike hclear hoccurs
  have hwhole := hoccurs
  obtain ⟨c, rest, rfl, hc, hchain⟩ := hoccurs
  rcases hpatched.next with ⟨later, rfl, hlater⟩ | ⟨hpiece, hfits, later, rfl⟩
  · obtain ⟨first, hfirst, hoccurs⟩ := ih (mem_chainsBehind.mpr hmem) hlater (.inl rfl)
      (fun havoids => clear_of_avoids havoids hc) hchain
    exact ⟨_, mem_chainsBehind.mp hfirst, c, later, rfl, hc, hoccurs⟩
  · rw [Bool.or_eq_true, Bool.or_eq_true] at hstart
    rcases hstart with (hclear' | hblocked) | hgreeted
    · exact absurd (hclear hclear') hpiece
    · exact absurd hwhole (Chain.not_occurs_of_blocked hblocked hfits)
    · exact occurs_of_greeted hgreeted other later

/-- A stretch that enters no piece is kept. -/
theorem Patched.stretch {start rest : List Char} {c : Char}
    (h : patch.Patched before text (start ++ c :: rest)) (hstart : ∀ d ∈ start, d ∈ chars)
    (hc : c ∈ chars)
    (henter : patch.Clear before ∧ patch.avoids chars ∨ Chain.blocked [.many chars] patch.start) :
    ∃ later, text = start ++ c :: later ∧ patch.Patched (some c) later rest := by
  have hnext {before : Option Char} {text : List Char} {d : Char} {tail : List Char}
      (h : patch.Patched before text (d :: tail))
      (hoccurs : Chain.Occurs [.many chars] before (d :: tail))
      (henter : patch.Clear before ∧ patch.avoids chars ∨ Chain.blocked [.many chars] patch.start) :
      ∃ later, text = d :: later ∧ patch.Patched (some d) later tail := by
    rcases h.next with hkept | ⟨hpiece, hfits, -⟩
    · exact hkept
    · rcases henter with ⟨hclear, -⟩ | hblocked
      · exact absurd hclear hpiece
      · exact absurd hoccurs (Chain.not_occurs_of_blocked hblocked hfits)
  induction start generalizing before text with
  | nil => exact hnext h ⟨[], c, rest, rfl, nofun, hc, trivial⟩ henter
  | cons d start ih =>
      obtain ⟨hd, hstart'⟩ := List.forall_mem_cons.mp hstart
      obtain ⟨tail, rfl, htail⟩ := hnext h ⟨d :: start, c, rest, rfl, hstart, hc, trivial⟩ henter
      obtain ⟨later, rfl, hlater⟩ := ih htail hstart'
        (henter.imp_left fun h => ⟨clear_of_avoids h.2 hd, h.2⟩)
      exact ⟨later, rfl, hlater⟩

theorem Carried.many
    (hstart : clear && patch.avoids chars || Chain.blocked [.many chars] patch.start ||
      chars.holds patch.old && patch.inner.all (Chain.blocked chain))
    (ih : patch.Carried (chainsBehind (.many chars) chains) chain (patch.avoids chars)) :
    patch.Carried chains (.many chars :: chain) clear := by
  intro hmem before other text candidate hpatched halike hclear hoccurs
  obtain ⟨start, c, rest, rfl, hchars, hc, hchain⟩ := hoccurs
  have hclear' (havoids : patch.avoids chars) : patch.Clear (some c) := clear_of_avoids havoids hc
  rw [Bool.or_eq_true, Bool.or_eq_true, Bool.and_eq_true, Bool.and_eq_true] at hstart
  rcases hstart with hstart | ⟨hold, hinner⟩
  · obtain ⟨later, rfl, hlater⟩ := hpatched.stretch hchars hc
      (hstart.imp_left fun h => ⟨hclear h.1, h.2⟩)
    obtain ⟨first, hfirst, hoccurs⟩ :=
      ih (mem_chainsBehind.mpr hmem) hlater (.inl rfl) hclear' hchain
    exact ⟨_, mem_chainsBehind.mp hfirst, start, c, later, rfl, hchars, hc, hoccurs⟩
  · -- What follows the stretch does not start inside of a piece, so pieces are passed as a whole.
    have hsplit : start ++ c :: rest = (start ++ [c]) ++ rest := by simp
    rcases hpatched.behind halike hsplit with
      ⟨front, later, rfl, hbehind⟩ | ⟨-, known, hknown, hfits⟩
    · obtain ⟨front, d, rfl⟩ :=
        (List.eq_nil_or_concat' front).resolve_left (hbehind.nonempty (by simp))
      have hfront : ∀ x ∈ front ++ [d], x ∈ chars := by
        intro x hx
        rcases hbehind.chars x hx with hx | rfl
        · rcases List.mem_append.mp hx with hx | hx
          · exact hchars x hx
          · exact List.mem_singleton.mp hx ▸ hc
        · exact hold
      have hlater : patch.Patched (some c) later rest := by simpa using hbehind.patched
      have halike' : patch.Alike (some c) (some d) := by simpa using hbehind.alike
      obtain ⟨first, hfirst, hoccurs⟩ :=
        ih (mem_chainsBehind.mpr hmem) hlater halike' hclear' hchain
      refine ⟨_, mem_chainsBehind.mp hfirst, front, d, later, by simp, ?_, ?_, hoccurs⟩
      · exact fun x hx => hfront x (List.mem_append_left _ hx)
      · exact hfront d (by simp)
    · have hblocked := List.all_eq_true.mp hinner known hknown
      exact absurd hchain (Chain.not_occurs_of_blocked hblocked hfits)

/-- The start of the text is where it was. -/
theorem Carried.textStart
    (ih : patch.Carried (chainsBehind (.look .textStart) chains) chain clear) :
    patch.Carried chains (.look .textStart :: chain) clear := by
  intro hmem before other text candidate hpatched halike hclear hoccurs
  obtain ⟨first, hfirst, hchain⟩ :=
    ih (mem_chainsBehind.mpr hmem) hpatched halike hclear hoccurs.2
  refine ⟨_, mem_chainsBehind.mp hfirst, ?_, hchain⟩
  have hnone := halike.isNone
  have hstart := hoccurs.1
  simp only [Look.holdsBetween] at hstart ⊢
  rwa [hnone]

/-- The end of the text is where it was. -/
theorem Carried.textEnd
    (ih : patch.Carried (chainsBehind (.look .textEnd) chains) chain clear) :
    patch.Carried chains (.look .textEnd :: chain) clear := by
  intro hmem before other text candidate hpatched halike hclear hoccurs
  obtain ⟨first, hfirst, hchain⟩ :=
    ih (mem_chainsBehind.mpr hmem) hpatched halike hclear hoccurs.2
  refine ⟨_, mem_chainsBehind.mp hfirst, ?_, hchain⟩
  have hend : candidate.head?.isNone := hoccurs.1
  obtain rfl : candidate = [] := by simpa using hend
  obtain rfl := hpatched.eq_nil
  rfl

/-- A word starts where one did: old characters stand in no word. -/
theorem Carried.wordEdge (hstart : startsWord chain)
    (hplace : clear || Chain.blocked chain patch.start)
    (ih : patch.Carried (chainsBehind (.look (.wordEdge true)) chains) chain clear) :
    patch.Carried chains (.look (.wordEdge true) :: chain) clear := by
  intro hmem before other text candidate hpatched halike hclear hoccurs
  obtain ⟨hedge, hchain⟩ := hoccurs
  obtain ⟨first, hfirst, hfirstOccurs⟩ :=
    ih (mem_chainsBehind.mpr hmem) hpatched halike hclear hchain
  refine ⟨_, mem_chainsBehind.mp hfirst, ?_, hfirstOccurs⟩
  obtain ⟨c, rest, rfl, hword⟩ := exists_word_of_startsWord hstart hchain
  rcases hpatched.next with ⟨later, rfl, -⟩ | ⟨hpiece, hfits, -⟩
  · have hafter : Look.wordAt true (some c) = true := hword
    have hold := patch.old_not_word
    rcases halike with rfl | ⟨rfl, rfl⟩
    · exact hedge
    · simp [Look.holdsBetween, hafter, hold]
  · rw [Bool.or_eq_true] at hplace
    rcases hplace with hplace | hblocked
    · exact absurd (hclear hplace) hpiece
    · exact absurd hchain (Chain.not_occurs_of_blocked hblocked hfits)

theorem carried_of_carries (h : patch.carries chains chain clear) :
    patch.Carried chains chain clear := by
  fun_induction patch.carries chains chain clear with
  | case1 => exact fun hmem _ _ _ _ _ _ _ _ => ⟨_, hmem, trivial⟩
  | case2 chains chars chain clear ih =>
      rw [Bool.and_eq_true] at h
      exact .one h.1 (ih h.2)
  | case3 chains chars chain clear ih =>
      rw [Bool.and_eq_true] at h
      exact .many h.1 (ih h.2)
  | case4 chains chain clear ih => exact .textStart (ih h)
  | case5 chains chain clear ih => exact .textEnd (ih h)
  | case6 chains chain clear ih =>
      rw [Bool.and_eq_true, Bool.and_eq_true] at h
      exact .wordEdge h.1.1 h.1.2 (ih h.2)
  | case7 => cases h

end

/-- What a patch keeps occurs in no patched text that it does not occur in without the patch. -/
theorem isMatch_of_patched {e : Expr} (hkeeps : patch.keeps e)
    (hpatched : patch.Patched none text candidate)
    (hmatch : (Searcher.ofExpr e).isMatch candidate) : (Searcher.ofExpr e).isMatch text := by
  rw [keeps, Bool.and_eq_true, Bool.and_eq_true] at hkeeps
  obtain ⟨⟨hbounded, hunrolls⟩, hchains⟩ := hkeeps
  rw [isMatch_iff_occurs hbounded hunrolls] at hmatch ⊢
  obtain ⟨start, rest, rfl, chain, hchain, hoccurs⟩ := hmatch
  have hkept := List.all_eq_true.mp hchains chain hchain
  rw [Bool.and_eq_true, Bool.or_eq_true, decide_eq_true_eq] at hkept
  obtain ⟨hcarries, hinner⟩ := hkept
  rcases hpatched.behind (.inl rfl) rfl with
    ⟨front, later, rfl, hbehind⟩ | ⟨hstart, known, hknown, hfits⟩
  · have hpatched := hbehind.patched
    have halike := hbehind.alike
    rw [Option.or_none] at hpatched
    rw [Option.or_none, Option.or_none] at halike
    obtain ⟨first, hfirst, hfirstOccurs⟩ :=
      carried_of_carries hcarries hchain hpatched halike nofun hoccurs
    exact ⟨front, later, rfl, first, hfirst, hfirstOccurs⟩
  · rcases hinner with hfirst | hinner
    · -- Inside of a piece it is not the start of the text.
      cases chain with
      | nil => cases hfirst
      | cons atom chain =>
          obtain rfl := Option.some.inj hfirst
          have hnone : start.getLast?.isNone := hoccurs.1
          exact absurd (by simpa using hnone) hstart
    · have hblocked := List.all_eq_true.mp hinner known hknown
      exact absurd hoccurs (Chain.not_occurs_of_blocked hblocked hfits)

end Patch

end RouteAudit.Regex
