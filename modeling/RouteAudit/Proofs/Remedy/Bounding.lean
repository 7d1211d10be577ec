import RouteAudit.Proofs.Remedy.Items

/-! # A wildcard at the end, item by item

The parameter that ends a pattern and takes several segments is looked for colon by colon. What is
found is the last parameter of the template, or the end of a word behind an escaped colon; nothing
is found inside a body, since its group would not be closed.
-/

namespace RouteAudit.Remedy

open Pattern (isNameStart isNameChar)
open Template (Balanced)

section

variable {text body name head rest : List Char} {c mark : Char} {depth : Nat}
  {modifier : Option Modifier} {items : Template}

/-! ## What ends a pattern -/

/-- What stands behind the name of a parameter that takes several segments, where it ends the
pattern: a group without parentheses in it, or none, and the modifier. -/
inductive Tail (mark : Char) : List Char → Prop where
  | bare : Tail mark [mark]
  | flat (body : List Char) : ')' ∉ body → Tail mark ('(' :: body ++ [')', mark])

theorem Tail.cons_inv (h : Tail mark (c :: text)) : c = mark ∧ text = [] ∨ c = '(' := by
  cases h with
  | bare => exact .inl ⟨rfl, rfl⟩
  | flat => exact .inr rfl

theorem skipFlatGroup?_spec (h : skipFlatGroup? text = some rest) :
    ∃ body, text = '(' :: body ++ ')' :: rest ∧ ')' ∉ body := by
  unfold skipFlatGroup? at h
  split at h
  next cs =>
    split at h
    next rest' hdrop =>
      obtain rfl := Option.some.inj h
      refine ⟨cs.takeWhile fun c => c ≠ '(' && c ≠ ')', ?_, fun hmem => ?_⟩
      · rw [List.cons_append, ← hdrop, List.takeWhile_append_dropWhile]
      · have := List.mem_takeWhile_imp hmem
        simp at this
    next => cases h
  next => cases h

theorem repeatedName?_tail (h : repeatedName? text = some name) : IsName name ∧
    ∃ mark ∈ ['*', '+'], ∃ tail, Tail mark tail ∧ text = name ++ tail := by
  unfold repeatedName? at h
  cases hspan : text.span isNameChar with
  | mk start behind =>
  obtain ⟨rfl, hname, -⟩ := Text.span_eq_iff.mp hspan
  rw [hspan] at h
  dsimp only at h
  split at h
  next hends =>
    obtain rfl := Option.some.inj h
    rw [Bool.and_eq_true, Bool.or_eq_true, beq_iff_eq, beq_iff_eq] at hends
    refine ⟨⟨hends.1, hname⟩, ?_⟩
    obtain ⟨mark, hmark, hbehind⟩ : ∃ mark ∈ ['*', '+'],
        (skipFlatGroup? behind).getD behind = [mark] := by
      rcases hends.2 with hstar | hplus
      · exact ⟨'*', by decide, hstar⟩
      · exact ⟨'+', by decide, hplus⟩
    refine ⟨mark, hmark, behind, ?_, rfl⟩
    cases hskip : skipFlatGroup? behind with
    | none =>
        rw [hskip, Option.getD_none] at hbehind
        rw [hbehind]
        exact .bare
    | some rest =>
        rw [hskip, Option.getD_some] at hbehind
        obtain ⟨body, rfl, hbody⟩ := skipFlatGroup?_spec hskip
        rw [hbehind]
        exact .flat body hbody
  next => cases h

/-- What is split off before is a name, and what stands behind it ends the pattern. -/
theorem splitRepeatedParam?_tail (h : splitRepeatedParam? text = some (head, name)) : IsName name ∧
    ∃ mark ∈ ['*', '+'], ∃ tail, Tail mark tail ∧ text = head ++ ':' :: (name ++ tail) := by
  fun_induction splitRepeatedParam? text generalizing head name with
  | case1 => cases h
  | case2 c cs name' hname =>
      obtain ⟨rfl, rfl⟩ := Prod.mk.inj (Option.some.inj h)
      split at hname
      next hcolon =>
        obtain ⟨hisName, mark, hmark, tail, htail, rfl⟩ := repeatedName?_tail hname
        exact ⟨hisName, mark, hmark, tail, htail, by rw [hcolon]; rfl⟩
      next => cases hname
  | case3 c cs _ ih =>
      obtain ⟨⟨head', name'⟩, hsplit, heq⟩ := Option.map_eq_some_iff.mp h
      obtain ⟨rfl, rfl⟩ := Prod.mk.inj heq
      obtain ⟨hisName, mark, hmark, tail, htail, rfl⟩ := ih hsplit
      exact ⟨hisName, mark, hmark, tail, htail, rfl⟩

/-! ## Bodies -/

theorem mem_close_of_balanced (h : Balanced (depth + 1) body) : ')' ∈ body := by
  generalize hdepth : depth + 1 = d at h
  induction h generalizing depth with
  | nil => cases hdepth
  | escape c _ ih => exact .tail _ (.tail _ (ih hdepth))
  | opening _ ih => exact .tail _ (ih (congrArg (· + 1) hdepth))
  | closing => exact .head _
  | char _ _ _ _ ih => exact .tail _ (ih hdepth)

theorem balanced_behind_name (hname : ∀ c ∈ name, isNameChar c)
    (h : Balanced depth (name ++ rest)) : Balanced depth rest := by
  have hcons {c : Char} {text : List Char} (hc : isNameChar c) (h : Balanced depth (c :: text)) :
      Balanced depth text := by
    cases h with
    | escape | opening | closing => cases hc
    | char _ _ _ h => exact h
  induction name with
  | nil => exact h
  | cons c name ih =>
      obtain ⟨hc, hname⟩ := List.forall_mem_cons.mp hname
      exact ih hname (hcons hc h)

theorem not_mem_name_of (hname : ∀ c ∈ name, isNameChar c) (hc : isNameChar c = false) :
    c ∉ name := fun hmem => by
  rw [hname c hmem] at hc
  cases hc

/-- No parameter ends the pattern inside a group. -/
theorem repeatedName?_of_balanced (h : Balanced depth body) (rest : List Char) :
    repeatedName? (body ++ ')' :: rest) = none := by
  by_contra hsome
  obtain ⟨name, hname⟩ := Option.ne_none_iff_exists'.mp hsome
  obtain ⟨⟨-, hchars⟩, mark, hmark, tail, htail, heq⟩ := repeatedName?_tail hname
  have hclose : ')' ∉ name := not_mem_name_of hchars rfl
  have hmark : ')' ≠ mark := by
    rintro rfl
    exact absurd hmark (by decide)
  cases htail with
  | bare =>
      have hmem : ')' ∈ name ++ [mark] := heq ▸ List.mem_append_right body List.mem_cons_self
      simp [hclose, hmark] at hmem
  | flat flat hflat =>
      have hstart : ')' ∉ name ++ '(' :: flat := by simp [hclose, hflat]
      have hlast : ')' ∉ [mark] := by simpa using hmark
      have hsplit : name ++ '(' :: flat ++ ')' :: [mark] = body ++ ')' :: rest := by
        rw [heq]
        simp
      obtain ⟨rfl, -⟩ := (List.append_cons_inj_of_notMem hstart hlast).mp hsplit
      cases balanced_behind_name hchars h with
      | opening h => exact hflat (mem_close_of_balanced h)
      | char _ hopen => exact hopen rfl

/-! ## Looking for the parameter -/

/-- What is found behind a start of the text. -/
def behind (start : List Char) (found : List Char × List Char) : List Char × List Char :=
  (start ++ found.1, found.2)

theorem split_cons (h : c = ':' → repeatedName? rest = none) :
    splitRepeatedParam? (c :: rest) = (splitRepeatedParam? rest).map (behind [c]) := by
  rw [splitRepeatedParam?]
  split
  next found hfound =>
    split at hfound
    next hcolon => cases (h hcolon).symm.trans hfound
    next => cases hfound
  next => rfl

theorem map_behind (first second : List Char) (found : Option (List Char × List Char)) :
    (found.map (behind second)).map (behind first) = found.map (behind (first ++ second)) := by
  cases found with
  | none => rfl
  | some found => simp [behind]

theorem split_word (h : ':' ∉ text) (rest : List Char) :
    splitRepeatedParam? (text ++ rest) = (splitRepeatedParam? rest).map (behind text) := by
  induction text with
  | nil => exact (Option.map_id_apply).symm
  | cons c text ih =>
      rw [List.mem_cons, not_or] at h
      rw [List.cons_append, split_cons fun hc => absurd hc.symm h.1, ih h.2, map_behind]
      rfl

theorem split_balanced (h : Balanced depth body) (rest : List Char) :
    splitRepeatedParam? (body ++ ')' :: rest) =
      (splitRepeatedParam? rest).map (behind (body ++ [')'])) := by
  induction h with
  | nil => exact split_cons fun hc => absurd hc (by decide)
  | escape c h ih =>
      rw [List.cons_append, List.cons_append, split_cons fun hc => absurd hc (by decide),
        split_cons fun _ => repeatedName?_of_balanced h rest, ih, map_behind, map_behind]
      rfl
  | opening h ih | closing h ih | char _ _ _ h ih =>
      rw [List.cons_append, split_cons fun _ => repeatedName?_of_balanced h rest, ih, map_behind]
      rfl

theorem split_bodySpelling {body : Option (List Char)} (h : ∀ b, body = some b → Balanced 0 b)
    (rest : List Char) : splitRepeatedParam? (Item.bodySpelling body ++ rest) =
      (splitRepeatedParam? rest).map (behind (Item.bodySpelling body)) := by
  cases body with
  | none => exact split_word List.not_mem_nil rest
  | some body =>
      have hbody := split_balanced (h body rfl) rest
      rw [Item.bodySpelling, List.append_assoc, List.cons_append, List.singleton_append,
        split_cons fun hc => absurd hc (by decide), hbody, map_behind]
      rfl

theorem colon_not_mem_modifier (modifier : Option Modifier) : ':' ∉ Modifier.spelling modifier := by
  intro hmem
  cases modifier with
  | none => cases hmem
  | some modifier => cases modifier <;> exact absurd hmem (by decide)

/-! ## Items at the end -/

theorem rest_of_modifier (hmark : mark ∈ ['*', '+']) (hstands : Modifier.standsBefore rest modifier)
    (h : Modifier.spelling modifier ++ rest = [mark]) : rest = [] := by
  cases modifier with
  | some modifier => exact (List.cons.inj h).2
  | none =>
      obtain rfl : rest = [mark] := h
      simp only [List.mem_cons, List.not_mem_nil, or_false] at hmark
      rcases hmark with rfl | rfl <;> cases hstands

/-- Where an item ends the pattern with its modifier, nothing stands behind it. -/
theorem rest_of_tail {body : Option (List Char)} (hmark : mark ∈ ['*', '+'])
    (h : Tail mark (Item.bodySpelling body ++ (Modifier.spelling modifier ++ rest)))
    (hstands : Modifier.standsBefore rest modifier)
    (hopen : body = none → modifier = none → rest.head? ≠ some '(') : rest = [] := by
  generalize htail : Item.bodySpelling body ++ (Modifier.spelling modifier ++ rest) = tail at h
  cases body with
  | none =>
      cases h with
      | bare => exact rest_of_modifier hmark hstands htail
      | flat flat hflat =>
          cases modifier with
          | none => exact absurd (congrArg List.head? htail) (hopen rfl rfl)
          | some modifier =>
              have hfirst := (List.cons.inj htail).1
              cases modifier <;> exact absurd hfirst (by decide)
  | some body =>
      cases h with
      | bare =>
          obtain rfl := (List.cons.inj htail).1
          exact absurd hmark (by decide)
      | flat flat hflat =>
          have hclose : ')' ∉ [mark] := by
            rw [List.mem_singleton]
            rintro rfl
            exact absurd hmark (by decide)
          have hsplit :
              flat ++ ')' :: [mark] = body ++ ')' :: (Modifier.spelling modifier ++ rest) := by
            rw [Item.bodySpelling, List.append_assoc] at htail
            exact (List.cons.inj htail).2.symm
          obtain ⟨-, -, hlast⟩ := (List.append_cons_inj_of_notMem hflat hclose).mp hsplit
          exact rest_of_modifier hmark hstands hlast.symm

theorem Tail.not_nameChar (h : Tail mark text) (hmark : mark ∈ ['*', '+']) :
    ∀ c ∈ text.head?, ¬ isNameChar c := by
  cases h with
  | bare =>
      rintro c ⟨⟩
      simp only [List.mem_cons, List.not_mem_nil, or_false] at hmark
      rcases hmark with rfl | rfl <;> decide
  | flat =>
      rintro c ⟨⟩
      decide

theorem item_of_nameChar {item : Item} (hc : isNameChar c)
    (h : item.spelling ++ rest = c :: text) : item = .char c false ∧ rest = text := by
  cases item with
  | char d escaped =>
      cases escaped with
      | true =>
          obtain rfl := (List.cons.inj h).1
          cases hc
      | false =>
          obtain ⟨rfl, rfl⟩ := List.cons.inj h
          exact ⟨rfl, rfl⟩
  | param | group | wildcard | blockOpen | blockClose =>
      obtain rfl := (List.cons.inj h).1
      cases hc

/-- The items that end a pattern behind a word, with what stands before a group of its own. -/
theorem reworked_tail {tail : List Char} (hmark : mark ∈ ['*', '+']) (htail : Tail mark tail)
    (hstands : items.stands []) (heq : Template.spelling items = tail) :
    Reworked true [] items [.group unionBody none] := by
  subst heq
  have hother {c : Char} (hc : c ∉ ['*', '+', '(']) {text : List Char} :
      ¬ Tail mark (c :: text) := by
    intro h
    rcases h.cons_inv with ⟨rfl, -⟩ | rfl
    · exact hc (List.mem_append_left ['('] hmark)
    · exact hc (by decide)
  cases items with
  | nil => cases htail
  | cons item items =>
      obtain ⟨hitem, -⟩ := Template.stands_cons.mp hstands
      rw [List.append_nil] at hitem
      rw [Template.spelling_cons] at htail
      cases item with
      | char d escaped =>
          cases escaped with
          | true => exact absurd htail (hother (by decide))
          | false =>
              rcases htail.cons_inv with ⟨rfl, hnil⟩ | rfl
              · obtain rfl := Template.spelling_eq_nil.mp hnil
                refine .ending (fun _ => rfl) (fun hslash => ?_) rfl
                obtain rfl := Option.some.inj hslash
                exact absurd hmark (by decide)
              · cases hitem
      | group body modifier =>
          have hmodifier := (Item.stands_group.mp hitem).2
          rw [Item.spelling, List.append_assoc] at htail
          have hrest := rest_of_tail hmark htail hmodifier
            fun hnone => absurd hnone (Option.some_ne_none body)
          obtain rfl := Template.spelling_eq_nil.mp hrest
          exact .ending (fun _ => rfl)
            (fun hslash => absurd (Option.some.inj hslash) (by decide)) rfl
      | wildcard =>
          rcases htail.cons_inv with ⟨-, hnil⟩ | hopen
          · obtain rfl := Template.spelling_eq_nil.mp hnil
            exact .ending (fun _ => rfl)
              (fun hslash => absurd (Option.some.inj hslash) (by decide)) rfl
          · exact absurd hopen (by decide)
      | param | blockOpen | blockClose => exact absurd htail (hother (by decide))

theorem reworked_word {tail : List Char} (hname : ∀ c ∈ name, isNameChar c)
    (hmark : mark ∈ ['*', '+']) (htail : Tail mark tail) (hstands : items.stands [])
    (heq : Template.spelling items = name ++ tail) : ∃ items',
      name ++ boundedUnion = Template.spelling items' ∧ Reworked true [] items items' := by
  induction name generalizing items with
  | nil => exact ⟨_, rfl, reworked_tail hmark htail hstands heq⟩
  | cons c name ih =>
      obtain ⟨hc, hname⟩ := List.forall_mem_cons.mp hname
      cases items with
      | nil => cases heq
      | cons item items =>
          obtain ⟨rfl, hrest⟩ := item_of_nameChar hc heq
          obtain ⟨items', hspelling, hreworked⟩ :=
            ih hname (Template.stands_cons.mp hstands).2 hrest
          have hfirm : (Item.char c false).firm := by
            rw [Item.firm, Bool.false_or, bne_iff_ne]
            rintro rfl
            cases hc
          refine ⟨.char c false :: items', congrArg (c :: ·) hspelling, .keep (.refl _) ?_⟩
          rwa [hfirm]

/-- Neither a name nor a group goes on behind a parameter that means itself. -/
theorem behind_param {body : Option (List Char)}
    (h : (Item.param name body modifier).stands rest) :
    Modifier.standsBefore rest modifier ∧
      (body = none → modifier = none → ∀ c ∈ rest.head?, ¬ isNameChar c ∧ c ≠ '(') := by
  cases body with
  | none =>
      obtain ⟨-, -, hrest, hmodifier⟩ := Template.standsBefore_param.mp h
      exact ⟨hmodifier, fun _ => hrest⟩
  | some body => exact ⟨(Item.stands_param.mp h).2.2.2, nofun⟩

/-- The parameter that is found where one stands is that one, and the last item. -/
theorem found_of_param {body : Option (List Char)} {found : List Char}
    (hitem : (Item.param name body modifier).stands rest)
    (h : repeatedName? (name ++ (Item.bodySpelling body ++ (Modifier.spelling modifier ++ rest))) =
      some found) : found = name ∧ rest = [] := by
  obtain ⟨⟨-, hfound⟩, mark, hmark, tail, htail, heq⟩ := repeatedName?_tail h
  obtain ⟨hmodifier, hrest⟩ := behind_param hitem
  have hends : ∀ c ∈ (Item.bodySpelling body ++ (Modifier.spelling modifier ++ rest)).head?,
      ¬ isNameChar c := by
    cases body with
    | some body =>
        rintro c ⟨⟩
        decide
    | none =>
        cases modifier with
        | none => exact fun c hc => (hrest rfl rfl c hc).1
        | some modifier =>
            rintro c ⟨⟩
            cases modifier <;> decide
  have hspan := Text.span_eq_iff.mpr ⟨heq, hfound, htail.not_nameChar hmark⟩
  have hspan' :=
    Text.span_eq_iff.mpr ⟨Eq.refl (name ++ _), (Template.name_of_stands hitem).2, hends⟩
  obtain ⟨rfl, rfl⟩ := Prod.mk.inj (hspan.symm.trans hspan')
  refine ⟨rfl, rest_of_tail hmark htail hmodifier fun hbody hnone hopen => ?_⟩
  exact (hrest hbody hnone '(' hopen).2 rfl

theorem split_at {found : List Char} (h : repeatedName? rest = some found) :
    splitRepeatedParam? (':' :: rest) = some ([], found) := by
  rw [splitRepeatedParam?, if_pos rfl, h]

/-! ## Items that are passed -/

theorem split_plain (hitem : (Item.char c false).stands rest) :
    splitRepeatedParam? (c :: rest) = (splitRepeatedParam? rest).map (behind [c]) := by
  refine split_cons fun hcolon => ?_
  by_contra hsome
  obtain ⟨found, hfound⟩ := Option.ne_none_iff_exists'.mp hsome
  obtain ⟨⟨hfirst, -⟩, mark, hmark, tail, htail, heq⟩ := repeatedName?_tail hfound
  refine (Template.standsBefore_char.mp hitem).2 hcolon ?_
  rw [heq]
  cases found with
  | nil => cases hfirst
  | cons d found => exact hfirst

theorem split_escaped (hnone : c = ':' → repeatedName? rest = none) :
    splitRepeatedParam? ('\\' :: c :: rest) =
      (splitRepeatedParam? rest).map (behind ['\\', c]) := by
  rw [split_cons fun hc => absurd hc (by decide), split_cons hnone, map_behind]
  rfl

theorem spelling_param (name : List Char) (body : Option (List Char)) (modifier : Option Modifier)
    (rest : List Char) : (Item.param name body modifier).spelling ++ rest =
      ':' :: (name ++ (Item.bodySpelling body ++ (Modifier.spelling modifier ++ rest))) := by
  simp [Item.spelling]

theorem split_param {body : Option (List Char)}
    (hitem : (Item.param name body modifier).stands rest)
    (hnone : repeatedName?
      (name ++ (Item.bodySpelling body ++ (Modifier.spelling modifier ++ rest))) = none) :
    splitRepeatedParam? ((Item.param name body modifier).spelling ++ rest) =
        (splitRepeatedParam? rest).map (behind (Item.param name body modifier).spelling) := by
  have hbody : ∀ b, body = some b → Balanced 0 b := by
    rintro b rfl
    exact (Template.isBody_iff.mp (Item.stands_param.mp hitem).2.2.1).2
  have hcolon : ':' ∉ name := not_mem_name_of (Template.name_of_stands hitem).2 rfl
  rw [spelling_param, split_cons fun _ => hnone, split_word hcolon, split_bodySpelling hbody,
    split_word (colon_not_mem_modifier modifier), map_behind, map_behind, map_behind]
  rfl

theorem split_group {body : List Char} (hitem : (Item.group body modifier).stands rest) :
    splitRepeatedParam? ((Item.group body modifier).spelling ++ rest) =
      (splitRepeatedParam? rest).map (behind (Item.group body modifier).spelling) := by
  have hbody : ∀ b, some body = some b → Balanced 0 b := by
    rintro b ⟨⟩
    exact (Template.isBody_iff.mp (Item.stands_group.mp hitem).1).2
  rw [Item.spelling, List.append_assoc, split_bodySpelling hbody,
    split_word (colon_not_mem_modifier modifier), map_behind]

/-- An item is passed, unless it is the last and a parameter, or an escaped colon before a word that
ends the pattern: such a word is taken for a parameter. -/
inductive Split (item : Item) (rest : List Char) : Prop where
  | passed : splitRepeatedParam? (item.spelling ++ rest) =
      (splitRepeatedParam? rest).map (behind item.spelling) → Split item rest
  | word (found : List Char) : item = .char ':' true → repeatedName? rest = some found →
      Split item rest
  | last (name : List Char) (body : Option (List Char)) (modifier : Option Modifier) :
      item = .param name body modifier → rest = [] →
        splitRepeatedParam? (item.spelling ++ rest) = some ([], name) → Split item rest

theorem split_item {item : Item} (hitem : item.stands rest) : Split item rest := by
  cases item with
  | char c escaped =>
      cases escaped with
      | false => exact .passed (split_plain hitem)
      | true =>
          cases hfound : repeatedName? rest with
          | none => exact .passed (split_escaped fun _ => hfound)
          | some found =>
              by_cases hcolon : c = ':'
              · subst hcolon
                exact .word found rfl hfound
              · exact .passed (split_escaped fun hc => absurd hc hcolon)
  | param name body modifier =>
      cases hfound : repeatedName? (name ++ (Item.bodySpelling body ++
          (Modifier.spelling modifier ++ rest))) with
      | none => exact .passed (split_param hitem hfound)
      | some found =>
          obtain ⟨rfl, rfl⟩ := found_of_param hitem hfound
          refine .last found body modifier rfl rfl ?_
          rw [spelling_param, split_at hfound]
  | group body modifier => exact .passed (split_group hitem)
  | wildcard | blockOpen => exact .passed (split_word (by decide) _)
  | blockClose modifier =>
      refine .passed (split_word ?_ _)
      rw [Item.spelling, List.mem_cons, not_or]
      exact ⟨by decide, colon_not_mem_modifier modifier⟩

/-- Bounding the last parameter reworks the items. -/
theorem reworked_boundParam (hstands : items.stands [])
    (h : splitRepeatedParam? (Template.spelling items) = some (head, name)) (free : Bool) :
    ∃ items', head ++ ':' :: name ++ boundedUnion = Template.spelling items' ∧
      Reworked free [] items items' := by
  induction items generalizing head free with
  | nil => cases h
  | cons item items ih =>
      obtain ⟨hitem, hitems⟩ := Template.stands_cons.mp hstands
      rw [List.append_nil] at hitem
      rw [Template.spelling_cons] at h
      cases split_item hitem with
      | passed hpassed =>
          rw [hpassed] at h
          obtain ⟨⟨head', name'⟩, hfound, heq⟩ := Option.map_eq_some_iff.mp h
          obtain ⟨rfl, rfl⟩ := Prod.mk.inj heq
          obtain ⟨items', hspelling, hreworked⟩ := ih hitems hfound item.firm
          refine ⟨item :: items', ?_, .keep (.refl item) hreworked⟩
          rw [Template.spelling_cons, ← hspelling]
          simp
      | word found hcolon hfound =>
          subst hcolon
          rw [Item.spelling, List.cons_append, List.singleton_append,
            split_cons fun hc => absurd hc (by decide), split_at hfound] at h
          obtain ⟨rfl, rfl⟩ := Prod.mk.inj (Option.some.inj h)
          obtain ⟨⟨-, hchars⟩, mark, hmark, tail, htail, heq⟩ := repeatedName?_tail hfound
          obtain ⟨items', hspelling, hreworked⟩ := reworked_word hchars hmark htail hitems heq
          refine ⟨.char ':' true :: items', ?_, .keep (.refl _) hreworked⟩
          exact congrArg ('\\' :: ':' :: ·) hspelling
      | last found body modifier hparam hnil hlast =>
          subst hparam
          obtain rfl := Template.spelling_eq_nil.mp hnil
          obtain ⟨rfl, rfl⟩ := Prod.mk.inj (Option.some.inj (hlast.symm.trans h))
          refine ⟨_, ?_, .bound free found body modifier⟩
          rw [boundedUnion_eq]
          simp [Template.spelling, Item.spelling, Item.bodySpelling, Modifier.spelling]

/-! ## A star behind a slash -/

theorem withoutFinalStar?_slash (h : withoutFinalStar? text = some head) :
    ∃ start, head = start ++ ['/'] ∧ text = start ++ ['/', '*'] := by
  fun_induction withoutFinalStar? text generalizing head with
  | case1 =>
      obtain rfl := Option.some.inj h
      exact ⟨[], rfl, rfl⟩
  | case2 c cs _ ih =>
      obtain ⟨head', hhead, rfl⟩ := Option.map_eq_some_iff.mp h
      obtain ⟨start, rfl, rfl⟩ := ih hhead
      exact ⟨c :: start, rfl, rfl⟩
  | case3 => cases h

/-- A slash at the end is a character of its own. -/
theorem not_suffix_spelling {item : Item} {behind : List Char} (hitem : item.stands behind)
    (hchar : ∀ c escaped, item ≠ .char c escaped) (hslash : '/' ∈ text) (hclose : ')' ∉ text) :
    ¬ text <:+ item.spelling := by
  intro hsuffix
  cases shape_of_stands hitem with
  | char c escaped heq => exact hchar c escaped heq
  | plain _ hplain => cases hplain '/' (hsuffix.subset hslash)
  | body before body after hspelling hbefore hafter _ _ _ =>
      have hend : ')' :: after <:+ item.spelling := hspelling ▸ List.suffix_append _ _
      rcases List.suffix_or_suffix_of_suffix hsuffix hend with h | h
      · rcases List.mem_cons.mp (h.subset hslash) with heq | hmem
        · exact absurd heq (by decide)
        · cases hafter '/' hmem
      · exact hclose (h.subset List.mem_cons_self)

theorem item_of_slash {item : Item} {start behind : List Char} (hitem : item.stands behind)
    (h : item.spelling = start ++ '/' :: text) (hclose : ')' ∉ text) :
    text = [] ∧ ∃ escaped, item = .char '/' escaped := by
  have hchar : ∃ c escaped, item = .char c escaped := by
    by_contra hnone
    refine not_suffix_spelling hitem (fun c escaped heq => hnone ⟨c, escaped, heq⟩)
      List.mem_cons_self ?_ ⟨start, h.symm⟩
    rw [List.mem_cons, not_or]
    exact ⟨by decide, hclose⟩
  obtain ⟨c, escaped, rfl⟩ := hchar
  cases escaped with
  | false =>
      obtain ⟨rfl, heq⟩ | ⟨-, hnil⟩ := List.append_eq_singleton_iff.mp h.symm
      · obtain ⟨rfl, rfl⟩ := List.cons.inj heq
        exact ⟨rfl, false, rfl⟩
      · cases hnil
  | true =>
      cases start with
      | nil => exact absurd (List.cons.inj h).1 (by decide)
      | cons d start =>
          obtain ⟨rfl, heq⟩ | ⟨-, hnil⟩ := List.append_eq_singleton_iff.mp (List.cons.inj h).2.symm
          · obtain ⟨rfl, rfl⟩ := List.cons.inj heq
            exact ⟨rfl, true, rfl⟩
          · cases hnil

/-- Bounding a star behind the last slash reworks the items. -/
theorem reworked_star {start : List Char} (hstands : items.stands [])
    (h : Template.spelling items = start ++ ['/', '*']) (free : Bool) : ∃ items',
      start ++ '/' :: boundedUnion = Template.spelling items' ∧ Reworked free [] items items' := by
  induction items generalizing start free with
  | nil => exact absurd (List.append_eq_nil_iff.mp h.symm).2 (List.cons_ne_nil _ _)
  | cons item items ih =>
      obtain ⟨hitem, hitems⟩ := Template.stands_cons.mp hstands
      rw [Template.spelling_cons] at h
      have hlater {more : List Char} (hmore : Template.spelling items = more ++ ['/', '*'])
          (hstart : start = item.spelling ++ more) : ∃ items',
            start ++ '/' :: boundedUnion = Template.spelling items' ∧
              Reworked free [] (item :: items) items' := by
        obtain ⟨items', hspelling, hreworked⟩ := ih hitems hmore item.firm
        refine ⟨item :: items', ?_, .keep (.refl item) hreworked⟩
        rw [hstart, List.append_assoc, hspelling, Template.spelling_cons]
      rcases List.append_eq_append_iff.mp h with ⟨more, hstart, hmore⟩ | ⟨more, hspelling, hmore⟩
      · exact hlater hmore hstart
      · -- Where the item ends with a part of the slash and the star, it is the slash.
        cases more with
        | nil =>
            rw [List.append_nil] at hspelling
            exact @hlater [] hmore.symm (by rw [hspelling, List.append_nil])
        | cons slash more =>
            obtain ⟨rfl, hstar⟩ := List.cons.inj hmore
            have hstar : ['*'] = more ++ Template.spelling items := hstar
            have hclose : ')' ∉ more := fun hmem =>
              absurd (hstar.symm ▸ List.mem_append_left _ hmem : ')' ∈ ['*']) (by decide)
            obtain ⟨rfl, escaped, rfl⟩ := item_of_slash hitem hspelling hclose
            have hend : Reworked true [] items [.group unionBody none] :=
              reworked_tail (by decide) .bare hitems hstar.symm
            have hfirm : (Item.char '/' escaped).firm := by cases escaped <;> rfl
            refine ⟨.char '/' escaped :: [.group unionBody none], ?_, .keep (.refl _) ?_⟩
            · rw [Template.spelling_cons, hspelling, List.append_assoc]
              rfl
            · rwa [hfirm]

theorem reworked_boundStar (hstands : items.stands [])
    (h : withoutFinalStar? (Template.spelling items) = some head) (free : Bool) : ∃ items',
      head ++ boundedUnion = Template.spelling items' ∧ Reworked free [] items items' := by
  obtain ⟨start, rfl, htext⟩ := withoutFinalStar?_slash h
  rw [List.append_assoc]
  exact reworked_star hstands htext free

end

end RouteAudit.Remedy
