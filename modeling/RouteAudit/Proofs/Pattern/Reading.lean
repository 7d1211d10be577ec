import RouteAudit.Proofs.Pattern.Spelling
import RouteAudit.Proofs.Text.Span

/-! # Templates read

A text is read as the items that write it, if each block of them is closed, and no other items
write it. Where no parenthesis stands bare in it, they are the only ones that it spells.
-/

namespace RouteAudit.Template

open Pattern (isNameStart isNameChar)

/-- Whether each block is closed, where so many are open before. -/
def closed (blocks : Nat) : Template → Bool
  | [] => blocks == 0
  | .blockOpen :: items => closed (blocks + 1) items
  | .blockClose _ :: items =>
    match blocks with
    | 0 => false
    | blocks + 1 => closed blocks items
  | _ :: items => closed blocks items

/-- A block that is closed has an end, and what it holds is closed too. -/
theorem closing?_of_closed {depth blocks : Nat} {items : Template}
    (h : closed (depth + 1 + blocks) items) : ∃ inner modifier rest,
      closing? depth items = some (inner, modifier, rest) ∧ closed depth inner ∧
        closed blocks rest := by
  fun_induction closing? depth items with
  | case1 depth => simp [closed] at h
  | case2 depth items ih =>
      rw [closed, Nat.add_right_comm (depth + 1)] at h
      obtain ⟨inner, modifier, rest, hclosing, hinner, hrest⟩ := ih h
      exact ⟨.blockOpen :: inner, modifier, rest, by rw [hclosing]; rfl, hinner, hrest⟩
  | case3 modifier items =>
      rw [Nat.zero_add, Nat.add_comm, closed] at h
      exact ⟨[], modifier, items, rfl, rfl, h⟩
  | case4 modifier items depth ih =>
      rw [Nat.add_right_comm, closed] at h
      obtain ⟨inner, last, rest, hclosing, hinner, hrest⟩ := ih h
      exact ⟨.blockClose modifier :: inner, last, rest, by rw [hclosing]; rfl, hinner, hrest⟩
  | case5 depth item items hopen hclose ih =>
      have hother (blocks : Nat) (items : Template) :
          closed blocks (item :: items) = closed blocks items := by
        rw [closed]
        · exact hopen
        · exact hclose
      rw [hother] at h
      obtain ⟨inner, modifier, rest, hclosing, hinner, hrest⟩ := ih h
      exact ⟨_, modifier, rest, by rw [hclosing]; rfl, (hother _ _).trans hinner, hrest⟩

theorem closing?_ne_none {items : Template} (h : closed 1 items) : closing? 0 items ≠ none := by
  obtain ⟨inner, modifier, rest, hclosing, -⟩ := @closing?_of_closed 0 0 items h
  rw [hclosing]
  exact Option.some_ne_none _

/-- There is one end of a block only, so what it holds and what is behind it are closed. -/
theorem closed_of_closing? {items inner rest : Template} {modifier : Option Modifier}
    (h : closed 1 items) (hclosing : closing? 0 items = some (inner, modifier, rest)) :
    closed 0 inner ∧ closed 0 rest := by
  obtain ⟨inner', modifier', rest', hclosing', hinner, hrest⟩ := @closing?_of_closed 0 0 items h
  rw [hclosing] at hclosing'
  obtain ⟨rfl, rfl, rfl⟩ : inner = inner' ∧ modifier = modifier' ∧ rest = rest' := by
    simpa using hclosing'
  exact ⟨hinner, hrest⟩

/-- Closed items do not start with the end of a block, and an item that stands where no parenthesis
is bare has no body. -/
theorem head_of_closed {item : Item} {items : Template} {behind : List Char}
    (h : closed 0 (item :: items)) (hstands : item.standsBefore behind) :
    (∃ c escaped, item = .char c escaped) ∨ (∃ name modifier, item = .param name none modifier) ∨
      item = .wildcard ∨ item = .blockOpen := by
  cases item with
  | char c escaped => exact .inl ⟨c, escaped, rfl⟩
  | param name body modifier =>
      cases body with
      | none => exact .inr (.inl ⟨name, modifier, rfl⟩)
      | some body => cases hstands
  | group => cases hstands
  | wildcard => exact .inr (.inr (.inl rfl))
  | blockOpen => exact .inr (.inr (.inr rfl))
  | blockClose => cases h

theorem closed_cons (blocks : Nat) (item : Item) (items : Template) :
    closed blocks (item :: items) = (item.after blocks).any (closed · items) := by
  cases item with
  | blockClose modifier => cases blocks <;> rfl
  | _ => rfl

/-- What the reading of one item comes to: the item writes the text that it takes and means itself
there, it opens and closes blocks as it says, and where no parenthesis stands bare it has no
body. -/
structure ItemRead (blocks : Nat) (text : List Char) (item : Item) (after : Nat)
    (rest : List Char) : Prop where
  spelling : text = item.spelling ++ rest
  after : item.after blocks = some after
  stands : item.stands rest
  bare : hasBareParenthesis text = false →
    item.standsBefore rest ∧ hasBareParenthesis rest = false

theorem ItemRead.of_standsBefore {blocks after : Nat} {text rest : List Char} {item : Item}
    (hspelling : text = item.spelling ++ rest) (hafter : item.after blocks = some after)
    (hstands : item.standsBefore rest)
    (hbare : hasBareParenthesis text = hasBareParenthesis rest) :
    ItemRead blocks text item after rest :=
  ⟨hspelling, hafter, Item.stands_of_standsBefore hstands, fun h => ⟨hstands, hbare ▸ h⟩⟩

/-! ## Modifiers -/

theorem readModifier_spelling (cs : List Char) :
    cs = Modifier.spelling (Modifier.read cs).1 ++ (Modifier.read cs).2 := by
  cases cs with
  | nil => rfl
  | cons c cs =>
      rw [Modifier.read]
      split
      next modifier hmodifier =>
        have hchar : c = modifier.char := by
          unfold Modifier.ofChar? at hmodifier
          split at hmodifier <;> cases hmodifier <;> rfl
        rw [hchar]
        rfl
      next => rfl

theorem readModifier_of_standsBefore {modifier : Option Modifier} {rest : List Char}
    (h : Modifier.standsBefore rest modifier) :
    Modifier.read (Modifier.spelling modifier ++ rest) = (modifier, rest) := by
  cases modifier with
  | some modifier => cases modifier <;> rfl
  | none =>
      cases rest with
      | nil => rfl
      | cons c rest =>
          have hnone : Modifier.ofChar? c = none := Option.isNone_iff_eq_none.mp h
          rw [Modifier.spelling, List.nil_append, Modifier.read, hnone]

theorem readModifier_eq (cs : List Char) :
    (∃ modifier, (Modifier.read cs).1 = some modifier) ∨
      Modifier.read cs = (none, cs) ∧ Modifier.standsBefore cs none := by
  cases cs with
  | nil => exact .inr ⟨rfl, rfl⟩
  | cons c cs =>
      rw [Modifier.read]
      split
      next modifier _ => exact .inl ⟨modifier, rfl⟩
      next hnone => exact .inr ⟨rfl, Option.isNone_iff_eq_none.mpr hnone⟩

theorem standsBefore_readModifier (cs : List Char) :
    Modifier.standsBefore (Modifier.read cs).2 (Modifier.read cs).1 := by
  rcases readModifier_eq cs with ⟨modifier, hsome⟩ | ⟨hread, hends⟩
  · rw [hsome]
    rfl
  · rw [hread]
    exact hends

/-! ## Groups -/

/-- What stands in a group where so many parentheses are open inside it: each one that is opened
is closed, and a backslash takes the character behind it along. -/
inductive Balanced : Nat → List Char → Prop where
  | nil : Balanced 0 []
  | escape {depth : Nat} {body : List Char} (c : Char) :
      Balanced depth body → Balanced depth ('\\' :: c :: body)
  | opening {depth : Nat} {body : List Char} :
      Balanced (depth + 1) body → Balanced depth ('(' :: body)
  | closing {depth : Nat} {body : List Char} :
      Balanced depth body → Balanced (depth + 1) (')' :: body)
  | char {depth : Nat} {body : List Char} {c : Char} :
      c ≠ '\\' → c ≠ '(' → c ≠ ')' → Balanced depth body → Balanced depth (c :: body)

theorem readBody?_spec {depth : Nat} {cs body rest : List Char}
    (h : readBody? depth cs = some (body, rest)) :
    cs = body ++ ')' :: rest ∧ Balanced depth body := by
  fun_induction readBody? depth cs generalizing body with
  | case1 => cases h
  | case2 => cases h
  | case3 depth c cs ih =>
      obtain ⟨⟨inner, behind⟩, hbody, heq⟩ := Option.map_eq_some_iff.mp h
      obtain ⟨rfl, rfl⟩ := Prod.mk.inj heq
      obtain ⟨rfl, hinner⟩ := ih hbody
      exact ⟨rfl, hinner.escape c⟩
  | case4 depth cs ih =>
      obtain ⟨⟨inner, behind⟩, hbody, heq⟩ := Option.map_eq_some_iff.mp h
      obtain ⟨rfl, rfl⟩ := Prod.mk.inj heq
      obtain ⟨rfl, hinner⟩ := ih hbody
      exact ⟨rfl, hinner.opening⟩
  | case5 cs =>
      cases h
      exact ⟨rfl, .nil⟩
  | case6 cs depth ih =>
      obtain ⟨⟨inner, behind⟩, hbody, heq⟩ := Option.map_eq_some_iff.mp h
      obtain ⟨rfl, rfl⟩ := Prod.mk.inj heq
      obtain ⟨rfl, hinner⟩ := ih hbody
      exact ⟨rfl, hinner.closing⟩
  | case7 depth c cs hlast hescape hopen hclose ih =>
      obtain ⟨⟨inner, behind⟩, hbody, heq⟩ := Option.map_eq_some_iff.mp h
      obtain ⟨rfl, rfl⟩ := Prod.mk.inj heq
      obtain ⟨rfl, hinner⟩ := ih hbody
      refine ⟨rfl, hinner.char ?_ hopen hclose⟩
      rintro rfl
      cases inner with
      | nil => exact hescape _ _ rfl rfl
      | cons d inner => exact hescape _ _ rfl rfl

/-- What stands in a group is read whatever follows its closing parenthesis. -/
theorem Balanced.readBody? {depth : Nat} {body : List Char} (h : Balanced depth body)
    (rest : List Char) : readBody? depth (body ++ ')' :: rest) = some (body, rest) := by
  induction h with
  | nil => rfl
  | escape c _ ih =>
      rw [List.cons_append, List.cons_append, Template.readBody?, ih]
      rfl
  | opening _ ih | closing _ ih =>
      rw [List.cons_append, Template.readBody?, ih]
      rfl
  | char hescape hopen hclose _ ih =>
      rw [List.cons_append, Template.readBody?, ih]
      · rfl
      · exact fun heq _ => hescape heq
      · exact fun _ _ heq _ => hescape heq
      · exact hopen
      · exact hclose

theorem isBody_iff {body : List Char} : Item.isBody body ↔ body ≠ [] ∧ Balanced 0 body := by
  rw [Item.isBody, Bool.and_eq_true, beq_iff_eq, Bool.not_eq_true', List.isEmpty_eq_false_iff]
  exact and_congr_right fun _ => ⟨fun h => (readBody?_spec h).2, fun h => h.readBody? []⟩

theorem readGroup_spelling {cs body rest : List Char} (h : readGroup cs = .ok (body, rest)) :
    cs = body ++ ')' :: rest := by
  unfold readGroup at h
  split at h
  · cases h
  · cases h
  next hbody =>
    cases h
    exact (readBody?_spec hbody).1

theorem isBody_of_readGroup {cs body rest : List Char} (h : readGroup cs = .ok (body, rest)) :
    Item.isBody body := by
  unfold readGroup at h
  split at h
  next => cases h
  next => cases h
  next hsome hbody =>
    cases h
    exact isBody_iff.mpr ⟨hsome, (readBody?_spec hbody).2⟩

theorem readGroup_of_isBody {body : List Char} (h : Item.isBody body) (rest : List Char) :
    readGroup (body ++ ')' :: rest) = .ok (body, rest) := by
  obtain ⟨hsome, hbody⟩ := isBody_iff.mp h
  rw [readGroup, hbody.readBody? rest]
  cases body with
  | nil => exact absurd rfl hsome
  | cons c body => rfl

/-! ## Bare parentheses -/

theorem hasBareParenthesis_cons {c : Char} (hescape : c ≠ '\\') (hopen : c ≠ '(')
    (hclose : c ≠ ')') (cs : List Char) :
    hasBareParenthesis (c :: cs) = hasBareParenthesis cs := by
  rw [hasBareParenthesis]
  · simp [hopen, hclose]
  · intro d ds heq
    exact absurd heq hescape

theorem hasBareParenthesis_name {name : List Char} (hname : ∀ c ∈ name, isNameChar c)
    (rest : List Char) : hasBareParenthesis (name ++ rest) = hasBareParenthesis rest := by
  induction name with
  | nil => rfl
  | cons c name ih =>
      obtain ⟨hc, hname⟩ := List.forall_mem_cons.mp hname
      rw [List.cons_append, hasBareParenthesis_cons, ih hname]
      all_goals
        rintro rfl
        cases hc

theorem hasBareParenthesis_modifier (cs : List Char) :
    hasBareParenthesis (Modifier.read cs).2 = hasBareParenthesis cs := by
  cases cs with
  | nil => rfl
  | cons c cs =>
      rw [Modifier.read]
      split
      next modifier hmodifier =>
        rw [hasBareParenthesis_cons]
        all_goals
          rintro rfl
          cases hmodifier
      next => rfl

/-! ## Parameters -/

theorem isNameChar_of_isNameStart {c : Char} (h : isNameStart c) : isNameChar c := by
  unfold isNameStart at h
  unfold isNameChar Char.isAlphanum
  rcases Bool.or_eq_true_iff.mp h with halpha | hunderscore
  · rw [halpha, Bool.true_or, Bool.true_or]
  · rw [hunderscore, Bool.or_true]

theorem standsBefore_param {name rest : List Char} {modifier : Option Modifier} :
    (Item.param name none modifier).standsBefore rest ↔
      name.head?.any isNameStart ∧ (∀ c ∈ name, isNameChar c) ∧
        (modifier = none → ∀ c ∈ rest.head?, ¬ isNameChar c ∧ c ≠ '(') ∧
        Modifier.standsBefore rest modifier := by
  rw [Item.standsBefore]
  simp only [Bool.and_eq_true, List.all_eq_true, and_assoc]
  refine and_congr_right fun _ => and_congr_right fun _ => and_congr_left fun _ => ?_
  cases modifier <;> cases rest <;> simp

theorem not_mem_name {name rest : List Char} {modifier : Option Modifier}
    (h : (Item.param name none modifier).standsBefore rest) : '>' ∉ name := by
  intro hmem
  cases (standsBefore_param.mp h).2.1 '>' hmem

theorem isNameStart_of_span {name behind : List Char} (hends : ∀ c ∈ behind.head?, ¬ isNameChar c)
    (h : (name ++ behind).head?.any isNameStart) : name.head?.any isNameStart := by
  cases name with
  | nil =>
      cases behind with
      | nil => cases h
      | cons c behind => exact absurd (isNameChar_of_isNameStart h) (hends c rfl)
  | cons c name => exact h

/-- What the reading of a parameter comes to. -/
theorem readParam_spec {blocks : Nat} {cs rest : List Char} {item : Item}
    (hstart : cs.head?.any isNameStart) (h : readParam cs = .ok (item, rest)) :
    ItemRead blocks (':' :: cs) item blocks rest := by
  unfold readParam at h
  cases hspan : cs.span isNameChar with
  | mk name behind =>
  obtain ⟨rfl, hname, hends⟩ := Text.span_eq_iff.mp hspan
  have hfirst := isNameStart_of_span hends hstart
  rw [hspan] at h
  dsimp only at h
  split at h
  next behind =>
    split at h
    · cases h
    next body rest' hgroup =>
      obtain ⟨rfl, rfl⟩ := Prod.mk.inj (Except.ok.inj h)
      have hstands := Item.stands_param.mpr
        ⟨hfirst, hname, isBody_of_readGroup hgroup, standsBefore_readModifier rest'⟩
      refine ⟨?_, rfl, hstands, ?_⟩
      · rw [Item.spelling, Item.bodySpelling, readGroup_spelling hgroup]
        have hmodifier := readModifier_spelling rest'
        simp [← hmodifier]
      · rw [hasBareParenthesis_cons (by decide) (by decide) (by decide),
          hasBareParenthesis_name hname]
        intro hbare
        cases hbare
  next hbody =>
    obtain ⟨rfl, rfl⟩ := Prod.mk.inj (Except.ok.inj h)
    refine .of_standsBefore ?_ rfl (standsBefore_param.mpr ⟨hfirst, hname, ?_, ?_⟩) ?_
    · rw [Item.spelling, Item.bodySpelling, List.append_nil, List.append_assoc,
        ← readModifier_spelling]
      rfl
    · intro hnone c hc
      rcases readModifier_eq behind with ⟨modifier, hsome⟩ | ⟨hread, -⟩
      · rw [hsome] at hnone
        cases hnone
      · rw [hread] at hc
        refine ⟨hends c hc, ?_⟩
        rintro rfl
        exact hbody _ (List.cons_head?_tail hc).symm
    · exact standsBefore_readModifier behind
    · rw [hasBareParenthesis_cons (by decide) (by decide) (by decide),
        hasBareParenthesis_name hname, hasBareParenthesis_modifier]

theorem readParam_of_standsBefore {name rest : List Char} {modifier : Option Modifier}
    (h : (Item.param name none modifier).standsBefore rest) :
    readParam (name ++ (Modifier.spelling modifier ++ rest)) =
      .ok (.param name none modifier, rest) := by
  obtain ⟨-, hname, hends, hmodifier⟩ := standsBefore_param.mp h
  have hnext : ∀ c ∈ (Modifier.spelling modifier ++ rest).head?, ¬ isNameChar c ∧ c ≠ '(' := by
    cases modifier with
    | none => exact hends rfl
    | some modifier =>
        intro c hc
        obtain rfl : modifier.char = c := Option.some.inj hc
        cases modifier <;> decide
  have hspan := Text.span_eq_iff.mpr ⟨rfl, hname, fun c hc => (hnext c hc).1⟩
  unfold readParam
  rw [hspan]
  dsimp only
  split
  next heq => exact absurd rfl (hnext '(' (by rw [heq]; rfl)).2
  next => rw [readModifier_of_standsBefore hmodifier]

theorem readParam_of_stands {name rest : List Char} {body : Option (List Char)}
    {modifier : Option Modifier} (h : (Item.param name body modifier).stands rest) :
    readParam (name ++ (Item.bodySpelling body ++ (Modifier.spelling modifier ++ rest))) =
      .ok (.param name body modifier, rest) := by
  cases body with
  | none => exact readParam_of_standsBefore h
  | some body =>
      obtain ⟨-, hname, hbody, hmodifier⟩ := Item.stands_param.mp h
      have hspan : (name ++ (Item.bodySpelling (some body) ++
          (Modifier.spelling modifier ++ rest))).span isNameChar =
            (name, '(' :: (body ++ ')' :: (Modifier.spelling modifier ++ rest))) := by
        refine Text.span_eq_iff.mpr ⟨by simp [Item.bodySpelling], hname, ?_⟩
        rintro c ⟨⟩
        decide
      rw [readParam, hspan]
      simp only [readGroup_of_isBody hbody, readModifier_of_standsBefore hmodifier]

theorem name_of_stands {name rest : List Char} {body : Option (List Char)}
    {modifier : Option Modifier} (h : (Item.param name body modifier).stands rest) :
    name.head?.any isNameStart ∧ ∀ c ∈ name, isNameChar c := by
  cases body with
  | none =>
      obtain ⟨hfirst, hname, -⟩ := standsBefore_param.mp h
      exact ⟨hfirst, hname⟩
  | some body =>
      obtain ⟨hfirst, hname, -⟩ := Item.stands_param.mp h
      exact ⟨hfirst, hname⟩

/-! ## Items -/

theorem standsBefore_char {c : Char} {rest : List Char} :
    (Item.char c false).standsBefore rest ↔
      (c ≠ '\\' ∧ c ≠ '(' ∧ c ≠ ')' ∧ c ≠ '*' ∧ c ≠ '\x7b' ∧ c ≠ '\x7d') ∧
        (c = ':' → ¬ rest.head?.any isNameStart) := by
  rw [Item.standsBefore]
  simp [imp_iff_not_or]

theorem readItem_spec {blocks after : Nat} {c : Char} {cs rest : List Char} {item : Item}
    (h : readItem blocks c cs = .ok (item, after, rest)) :
    ItemRead blocks (c :: cs) item after rest := by
  unfold readItem at h
  split at h
  · -- A backslash.
    split at h
    · cases h
    next next cs =>
      cases h
      exact .of_standsBefore rfl rfl rfl rfl
  · -- A group.
    split at h
    · cases h
    next body behind hgroup =>
      simp only [Except.ok.injEq, Prod.mk.injEq] at h
      obtain ⟨rfl, rfl, rfl⟩ := h
      have hstands := Item.stands_group.mpr
        ⟨isBody_of_readGroup hgroup, standsBefore_readModifier behind⟩
      refine ⟨?_, rfl, hstands, nofun⟩
      rw [Item.spelling, Item.bodySpelling, readGroup_spelling hgroup, List.append_assoc,
        ← readModifier_spelling]
      simp
  · cases h
  · cases h
    exact .of_standsBefore rfl rfl rfl rfl
  · cases h
    exact .of_standsBefore rfl rfl rfl rfl
  · -- The end of a block.
    split at h
    · cases h
    next blocks =>
      simp only [Except.ok.injEq, Prod.mk.injEq] at h
      obtain ⟨rfl, rfl, rfl⟩ := h
      refine .of_standsBefore ?_ rfl (standsBefore_readModifier cs) ?_
      · rw [Item.spelling, List.cons_append, ← readModifier_spelling]
      · rw [hasBareParenthesis_modifier]
        rfl
  · -- A colon, which a parameter may follow.
    split at h
    next hstart =>
      split at h
      · cases h
      next param behind hparam =>
        cases h
        exact readParam_spec hstart hparam
    next hstart =>
      cases h
      exact .of_standsBefore rfl rfl (standsBefore_char.mpr ⟨by decide, fun _ => hstart⟩) rfl
  next hescape hopen hclose hwildcard hblock hend hcolon =>
    cases h
    have hstands : (Item.char c false).standsBefore cs := standsBefore_char.mpr
      ⟨⟨hescape, hopen, hclose, hwildcard, hblock, hend⟩, fun heq => (hcolon heq).elim⟩
    exact .of_standsBefore rfl rfl hstands (hasBareParenthesis_cons hescape hopen hclose cs)

/-- An item is read where it means itself. -/
theorem readItem_of_stands {blocks after : Nat} {c : Char} {cs rest : List Char} {item : Item}
    (h : item.stands rest) (hafter : item.after blocks = some after)
    (htext : c :: cs = item.spelling ++ rest) : readItem blocks c cs = .ok (item, after, rest) := by
  cases item with
  | char d escaped =>
      obtain rfl := Option.some.inj hafter
      cases escaped with
      | true =>
          cases htext
          rfl
      | false =>
          rw [Item.spelling, List.singleton_append] at htext
          obtain ⟨rfl, rfl⟩ := List.cons.inj htext
          obtain ⟨⟨hescape, hopen, hclose, hwildcard, hblock, hend⟩, hcolon⟩ :=
            standsBefore_char.mp h
          unfold readItem
          split
          case h_7 => rw [if_neg (hcolon rfl)]
          case h_8 => rfl
          all_goals contradiction
  | param name body modifier =>
      obtain rfl := Option.some.inj hafter
      rw [Item.spelling, List.append_assoc, List.append_assoc, List.cons_append] at htext
      obtain ⟨rfl, rfl⟩ := List.cons.inj htext
      have hname := (name_of_stands h).1
      have hstart : (name ++ (Item.bodySpelling body ++
          (Modifier.spelling modifier ++ rest))).head?.any isNameStart := by
        cases name with
        | nil => cases hname
        | cons c name => exact hname
      rw [readItem, if_pos hstart, readParam_of_stands h]
  | group body modifier =>
      obtain rfl := Option.some.inj hafter
      obtain ⟨hbody, hmodifier⟩ := Item.stands_group.mp h
      simp only [Item.spelling, Item.bodySpelling, List.cons_append, List.append_assoc,
        List.nil_append] at htext
      obtain ⟨rfl, rfl⟩ := List.cons.inj htext
      rw [readItem, readGroup_of_isBody hbody]
      dsimp only
      rw [readModifier_of_standsBefore hmodifier]
  | wildcard =>
      obtain rfl := Option.some.inj hafter
      cases htext
      rfl
  | blockOpen =>
      obtain rfl := Option.some.inj hafter
      cases htext
      rfl
  | blockClose modifier =>
      rw [Item.spelling, List.cons_append] at htext
      obtain ⟨rfl, rfl⟩ := List.cons.inj htext
      cases blocks with
      | zero => cases hafter
      | succ blocks =>
          obtain rfl := Option.some.inj hafter
          rw [readItem, readModifier_of_standsBefore h]

theorem exists_after (item : Item) (blocks : Nat) :
    ∃ after, item.after (blocks + 1) = some after := by
  cases item <;> exact ⟨_, rfl⟩

/-- What writes a row of items writes no other one. -/
theorem eq_of_spelling {items other : Template} (h : items.stands []) (hother : other.stands [])
    (hsame : spelling items = spelling other) : items = other := by
  induction items generalizing other with
  | nil => exact (spelling_eq_nil.mp hsame.symm).symm
  | cons item items ih =>
      cases other with
      | nil => exact spelling_eq_nil.mp hsame
      | cons otherItem other =>
          obtain ⟨hitem, hitems⟩ := stands_cons.mp h
          obtain ⟨hotherItem, hothers⟩ := stands_cons.mp hother
          rw [List.append_nil] at hitem hotherItem
          rw [spelling_cons, spelling_cons] at hsame
          cases htext : item.spelling ++ spelling items with
          | nil => exact absurd (List.append_eq_nil_iff.mp htext).1 item.spelling_ne_nil
          | cons c cs =>
              -- Both are what is read at the start of the text.
              obtain ⟨after, hafter⟩ := exists_after item 0
              obtain ⟨after', hafter'⟩ := exists_after otherItem 0
              have hread := readItem_of_stands hitem hafter htext.symm
              have hread' := readItem_of_stands hotherItem hafter' (htext.symm.trans hsame)
              rw [hread, Except.ok.injEq, Prod.mk.injEq, Prod.mk.injEq] at hread'
              obtain ⟨rfl, -, hrest⟩ := hread'
              rw [ih hitems hothers hrest]

/-- A text is spelled by one template at most. -/
theorem Spells.unique {items other : Template} {text : List Char} (h : Spells items text)
    (hother : Spells other text) : other = items := by
  obtain ⟨htext, hstands⟩ := h.stands
  obtain ⟨hotherText, hotherStands⟩ := hother.stands
  exact eq_of_spelling hotherStands hstands (hotherText.symm.trans htext)

theorem Spells.standsBefore {items : Template} {text : List Char} (h : Spells items text) :
    ∀ item ∈ items, ∃ behind, item.standsBefore behind := by
  induction items generalizing text with
  | nil => exact nofun
  | cons item items ih =>
      obtain ⟨rest, -, hstands, hrest⟩ := h
      exact List.forall_mem_cons.mpr ⟨⟨rest, hstands⟩, ih hrest⟩

/-! ## Rows of items -/

/-- What the reading of items comes to. -/
structure ItemsRead (blocks : Nat) (text : List Char) (items : Template) : Prop where
  closed : closed blocks items
  spells : hasBareParenthesis text = false → Spells items text
  spelling : text = spelling items
  stands : items.stands []

theorem ItemRead.cons {blocks after : Nat} {text rest : List Char} {item : Item}
    {items : Template} (hitem : ItemRead blocks text item after rest)
    (hitems : ItemsRead after rest items) : ItemsRead blocks text (item :: items) := by
  refine ⟨?_, ?_, ?_, stands_cons.mpr ⟨?_, hitems.stands⟩⟩
  · rw [closed_cons, hitem.after]
    exact hitems.closed
  · intro hbare
    obtain ⟨hstands, hrest⟩ := hitem.bare hbare
    exact ⟨rest, hitem.spelling, hstands, hitems.spells hrest⟩
  · rw [hitem.spelling, hitems.spelling, spelling_cons]
  · rw [List.append_nil, ← hitems.spelling]
    exact hitem.stands

theorem ItemRead.length_lt {blocks after : Nat} {text rest : List Char} {item : Item}
    (h : ItemRead blocks text item after rest) : rest.length < text.length := by
  have hlength := congrArg List.length h.spelling
  rw [List.length_append] at hlength
  have hpos := List.length_pos_of_ne_nil item.spelling_ne_nil
  omega

theorem readItems_spec {length fuel blocks : Nat} {text : List Char} {items : Template}
    (hfuel : text.length ≤ fuel) (h : readItems length fuel blocks text = .ok items) :
    ItemsRead blocks text items := by
  have hnil : ∀ {fuel blocks items}, readItems length fuel blocks [] = .ok items →
      ItemsRead blocks [] items := by
    intro fuel blocks items h
    rw [readItems] at h
    split at h
    next hblocks =>
      cases h
      exact ⟨by rw [hblocks]; rfl, fun _ => rfl, rfl, rfl⟩
    next => cases h
  induction fuel generalizing blocks text items with
  | zero =>
      obtain rfl := List.length_eq_zero_iff.mp (Nat.le_zero.mp hfuel)
      exact hnil h
  | succ fuel ih =>
      cases text with
      | nil => exact hnil h
      | cons c cs =>
          rw [readItems] at h
          split at h
          · cases h
          next item after rest hitem =>
            have hread := readItem_spec hitem
            have hshort := hread.length_lt
            cases hrest : readItems length fuel after rest with
            | error fault =>
                rw [hrest] at h
                cases h
            | ok behind =>
                rw [hrest] at h
                cases h
                -- The item took a character at least, so the fuel outlasts the text.
                exact hread.cons (ih (by omega) hrest)

/-- The items of a template have each block closed, and they are what its text means. -/
theorem read_spec {text : List Char} {items : Template} (h : read text = .ok items) :
    ItemsRead 0 text items :=
  readItems_spec (Nat.le_refl _) h

theorem readItems_of_stands {length fuel blocks : Nat} {items : Template}
    (hstands : items.stands []) (hclosed : closed blocks items)
    (hfuel : (spelling items).length ≤ fuel) :
    readItems length fuel blocks (spelling items) = .ok items := by
  induction items generalizing fuel blocks with
  | nil =>
      rw [closed, beq_iff_eq] at hclosed
      rw [spelling_nil, readItems, if_pos hclosed]
  | cons item items ih =>
      obtain ⟨hitem, hitems⟩ := stands_cons.mp hstands
      rw [List.append_nil] at hitem
      rw [spelling_cons] at hfuel ⊢
      rw [closed_cons, Option.any_eq_true] at hclosed
      obtain ⟨after, hafter, hclosed⟩ := hclosed
      cases htext : item.spelling ++ spelling items with
      | nil => exact absurd (List.append_eq_nil_iff.mp htext).1 item.spelling_ne_nil
      | cons c cs =>
          have hpos := List.length_pos_of_ne_nil item.spelling_ne_nil
          rw [List.length_append] at hfuel
          obtain ⟨fuel, rfl⟩ : ∃ n, fuel = n + 1 := Nat.exists_eq_succ_of_ne_zero (by omega)
          rw [readItems, readItem_of_stands hitem hafter htext.symm]
          dsimp only
          rw [ih hitems hclosed (by omega)]
          rfl

/-- A text is read as the items that write it and mean themselves, if each block is closed. -/
theorem read_eq_ok_iff {text : List Char} {items : Template} : read text = .ok items ↔
    text = spelling items ∧ items.stands [] ∧ closed 0 items := by
  constructor
  · intro h
    obtain ⟨hclosed, -, hspelling, hstands⟩ := read_spec h
    exact ⟨hspelling, hstands, hclosed⟩
  · rintro ⟨rfl, hstands, hclosed⟩
    exact readItems_of_stands hstands hclosed (Nat.le_refl _)

end RouteAudit.Template
