import Mathlib.Logic.Relation
import RouteAudit.Proofs.Pattern.Reading

/-! # The grammar of templates

What makes a text a template can be told without its items. Outside of groups one goes on character
by character, over an escaped character or over a whole group at once, and counts the blocks that
are open. There is one way to go, so a text is a template exactly if nothing blocks the way to its
end, and what blocks it stands at one place.
-/

namespace RouteAudit.Template

/-- A character that neither escapes nor opens or closes anything. -/
def isPlain (c : Char) : Bool := !(['\\', '(', ')', '\x7b', '\x7d'].contains c)

/-- One step outside of groups, from a number of open blocks and the rest of the text to others. -/
inductive Advance : Nat × List Char → Nat × List Char → Prop where
  | escape (blocks : Nat) (c : Char) (rest : List Char) :
      Advance (blocks, '\\' :: c :: rest) (blocks, rest)
  | group {body : List Char} (blocks : Nat) (rest : List Char) : body ≠ [] → Balanced 0 body →
      Advance (blocks, '(' :: (body ++ ')' :: rest)) (blocks, rest)
  | opening (blocks : Nat) (rest : List Char) :
      Advance (blocks, '\x7b' :: rest) (blocks + 1, rest)
  | closing (blocks : Nat) (rest : List Char) :
      Advance (blocks + 1, '\x7d' :: rest) (blocks, rest)
  | plain {c : Char} (blocks : Nat) (rest : List Char) : isPlain c →
      Advance (blocks, c :: rest) (blocks, rest)

/-- Some steps outside of groups. -/
abbrev Walk : Nat × List Char → Nat × List Char → Prop := Relation.ReflTransGen Advance

/-- From the start of a text one comes to a rest of it, outside of groups and with so many blocks
open. -/
def Reaches (text : List Char) (blocks : Nat) (rest : List Char) : Prop :=
  Walk (0, text) (blocks, rest)

/-- Where a fault stands, with so many blocks open. -/
inductive Blocked : TemplateFault → Nat → List Char → Prop where
  | danglingEscape (blocks : Nat) : Blocked .danglingEscape blocks ['\\']
  | emptyGroup (blocks : Nat) (rest : List Char) : Blocked .emptyGroup blocks ('(' :: ')' :: rest)
  | unbalancedGroup {rest : List Char} (blocks : Nat) :
      (∀ body behind, Balanced 0 body → rest ≠ body ++ ')' :: behind) →
        Blocked .unbalancedGroup blocks ('(' :: rest)
  | strayParenthesis (blocks : Nat) (rest : List Char) :
      Blocked .strayParenthesis blocks (')' :: rest)
  | strayBrace (rest : List Char) : Blocked .strayBrace 0 ('\x7d' :: rest)
  | unclosedBrace (blocks : Nat) : Blocked .unclosedBrace (blocks + 1) []

/-- What a text has to be so that it is a template. -/
structure WellFormed (text : List Char) : Prop where
  /-- A character follows each backslash outside of groups. -/
  escapes : ∀ {blocks rest}, Reaches text blocks ('\\' :: rest) → rest ≠ []
  /-- Each group that is opened is closed and has a body. -/
  groups : ∀ {blocks rest}, Reaches text blocks ('(' :: rest) →
    ∃ body behind, rest = body ++ ')' :: behind ∧ body ≠ [] ∧ Balanced 0 body
  /-- No group is closed outside of groups. -/
  parentheses : ∀ {blocks rest}, ¬ Reaches text blocks (')' :: rest)
  /-- No block is closed where none is open. -/
  braces : ∀ {rest}, ¬ Reaches text 0 ('\x7d' :: rest)
  /-- Each block is closed in the end. -/
  blocks : ∀ {blocks}, Reaches text blocks [] → blocks = 0

section

variable {text rest body behind : List Char} {blocks : Nat} {fault : TemplateFault}
  {next : Nat × List Char}

theorem Balanced.unique (h : Balanced 0 body) {body' behind' : List Char} (h' : Balanced 0 body')
    (heq : body ++ ')' :: behind = body' ++ ')' :: behind') : body = body' ∧ behind = behind' := by
  have hread := h.readBody? behind
  rw [heq, h'.readBody? behind', Option.some.injEq, Prod.mk.injEq] at hread
  exact ⟨hread.1.symm, hread.2.symm⟩

/-- Before a parenthesis that opens a group one goes on behind that group. -/
theorem Advance.of_group (h : Advance (blocks, '(' :: rest) next) : ∃ body behind,
    rest = body ++ ')' :: behind ∧ body ≠ [] ∧ Balanced 0 body ∧ next = (blocks, behind) := by
  generalize hstate : (blocks, '(' :: rest) = state at h
  cases h with
  | @group body _ behind hsome hbody =>
      cases hstate
      exact ⟨body, behind, rfl, hsome, hbody, rfl⟩
  | plain _ _ hplain =>
      cases hstate
      cases hplain
  | escape | opening | closing => cases hstate

/-- There is one way to go on. -/
theorem advance_rightUnique : Relator.RightUnique Advance := by
  intro state next next' h h'
  cases h with
  | group blocks rest _ hbody =>
      obtain ⟨body', behind, htext, -, hbody', rfl⟩ := h'.of_group
      rw [(hbody.unique hbody' htext).2]
  | plain blocks rest hplain =>
      cases h' with
      | plain => rfl
      | escape | group | opening | closing => cases hplain
  | escape | opening | closing =>
      cases h'
      next => rfl
      next hplain => cases hplain

/-- Where a fault stands there is no way to go on. -/
theorem Blocked.not_advance (h : Blocked fault blocks rest) : ¬ Advance (blocks, rest) next := by
  intro hnext
  cases h with
  | emptyGroup =>
      obtain ⟨body, behind, htext, hsome, hbody, -⟩ := hnext.of_group
      exact hsome (Balanced.nil.unique hbody htext).1.symm
  | unbalancedGroup _ hnone =>
      obtain ⟨body, behind, htext, -, hbody, -⟩ := hnext.of_group
      exact hnone body behind hbody htext
  | danglingEscape | strayParenthesis | strayBrace =>
      cases hnext with
      | plain _ _ hplain => cases hplain
  | unclosedBrace => cases hnext

theorem not_advance_end : ¬ Advance (0, []) next := nofun

/-- One is well-formed that no fault blocks. -/
theorem wellFormed_iff : WellFormed text ↔
    ∀ {fault blocks rest}, Reaches text blocks rest → ¬ Blocked fault blocks rest := by
  constructor
  · rintro ⟨hescapes, hgroups, hparentheses, hbraces, hblocks⟩ fault blocks rest hreach hblocked
    cases hblocked with
    | danglingEscape => exact hescapes hreach rfl
    | emptyGroup _ rest =>
        obtain ⟨body, behind, htext, hsome, hbody⟩ := hgroups hreach
        exact hsome (Balanced.nil.unique hbody htext).1.symm
    | unbalancedGroup _ hnone =>
        obtain ⟨body, behind, htext, -, hbody⟩ := hgroups hreach
        exact hnone body behind hbody htext
    | strayParenthesis => exact hparentheses hreach
    | strayBrace => exact hbraces hreach
    | unclosedBrace blocks => exact absurd (hblocks hreach) (Nat.succ_ne_zero blocks)
  · intro h
    refine ⟨?_, ?_, ?_, ?_, ?_⟩
    · rintro blocks rest hreach rfl
      exact h hreach (.danglingEscape blocks)
    · intro blocks rest hreach
      by_contra hnone
      refine h hreach (.unbalancedGroup blocks fun body behind hbody htext => hnone ?_)
      refine ⟨body, behind, htext, ?_, hbody⟩
      rintro rfl
      subst htext
      exact h hreach (.emptyGroup blocks behind)
    · exact fun hreach => h hreach (.strayParenthesis _ _)
    · exact fun hreach => h hreach (.strayBrace _)
    · intro blocks hreach
      cases blocks with
      | zero => rfl
      | succ blocks => exact absurd (.unclosedBrace blocks) (h hreach)

/-- Nothing blocks the way to the end. -/
theorem wellFormed_of_reaches (h : Reaches text 0 []) : WellFormed text := by
  rw [wellFormed_iff]
  intro fault blocks rest hreach hblocked
  rcases Relation.ReflTransGen.total_of_right_unique advance_rightUnique h hreach with hon | hon
  · rcases Relation.ReflTransGen.cases_head hon with heq | ⟨next, hnext, -⟩
    · cases heq
      cases hblocked
    · exact not_advance_end hnext
  · rcases Relation.ReflTransGen.cases_head hon with heq | ⟨next, hnext, -⟩
    · cases heq
      cases hblocked
    · exact hblocked.not_advance hnext

/-! ## Ways along items -/

theorem walk_plain {word : List Char} (h : ∀ c ∈ word, isPlain c) (blocks : Nat)
    (rest : List Char) : Walk (blocks, word ++ rest) (blocks, rest) := by
  induction word with
  | nil => exact .refl
  | cons c word ih =>
      obtain ⟨hc, hword⟩ := List.forall_mem_cons.mp h
      exact .head (.plain blocks _ hc) (ih hword)

end

/-! ## Counting inside groups -/

/-- How many parentheses more a text opens than it closes, where a backslash takes the character
behind it along. -/
def level : List Char → Int
  | [] => 0
  | '\\' :: _ :: cs => level cs
  | '(' :: cs => level cs + 1
  | ')' :: cs => level cs - 1
  | _ :: cs => level cs

/-- Up to the end of a group, if it has one, no more parentheses are closed than are open. -/
theorem level_nonneg {depth : Nat} {seen text : List Char} (hseen : seen <+: text)
    (hinside : ∀ body, Balanced depth body → body ++ [')'] <+: text → seen <+: body) :
    0 ≤ depth + level seen := by
  fun_induction level seen generalizing depth text with
  | case1 => omega
  | case2 c cs ih =>
      obtain ⟨rest, rfl, hnext⟩ := List.cons_prefix_iff.mp hseen
      obtain ⟨rest, rfl, hrest⟩ := List.cons_prefix_iff.mp hnext
      refine ih hrest fun body hbody hend => ?_
      have hlonger : ('\\' :: c :: body) ++ [')'] <+: '\\' :: c :: rest := by simpa using hend
      simpa using hinside _ (hbody.escape c) hlonger
  | case3 cs ih =>
      obtain ⟨rest, rfl, hrest⟩ := List.cons_prefix_iff.mp hseen
      have hdeeper : 0 ≤ ((depth + 1 : Nat) : Int) + level cs := by
        refine ih hrest fun body hbody hend => ?_
        have hlonger : ('(' :: body) ++ [')'] <+: '(' :: rest := by simpa using hend
        simpa using hinside _ hbody.opening hlonger
      omega
  | case4 cs ih =>
      obtain ⟨rest, rfl, hrest⟩ := List.cons_prefix_iff.mp hseen
      cases depth with
      | zero =>
          -- The group ends here already.
          have hempty := hinside [] .nil (by simp)
          simp at hempty
      | succ depth =>
          have hless : 0 ≤ (depth : Int) + level cs := by
            refine ih hrest fun body hbody hend => ?_
            have hlonger : (')' :: body) ++ [')'] <+: ')' :: rest := by simpa using hend
            simpa using hinside _ hbody.closing hlonger
          omega
  | case5 c cs hescape hopen hclose ih =>
      obtain ⟨rest, rfl, hrest⟩ := List.cons_prefix_iff.mp hseen
      by_cases hlast : c = '\\'
      · -- A backslash that ends what was seen counts for nothing.
        cases cs with
        | nil => simp [level]
        | cons d cs => exact (hescape d cs hlast rfl).elim
      · refine ih hrest fun body hbody hend => ?_
        have hlonger : (c :: body) ++ [')'] <+: c :: rest := by simpa using hend
        simpa using hinside _ (hbody.char hlast hopen hclose) hlonger

end RouteAudit.Template
