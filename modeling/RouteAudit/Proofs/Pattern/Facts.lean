import RouteAudit.Proofs.Pattern.Reading
import RouteAudit.Proofs.Risk.Scan

/-! # Facts of templates

The facts of a pattern are read off its characters, but where the pattern can be read as a template
they are facts of its items: it opens a group if an item has one, and each item that stands for any
number of segments is one wildcard.
-/

namespace RouteAudit

open Pattern (isNameStart isNameChar)

namespace Item

/-- Whether an item is written with a group. -/
def hasBody : Item → Bool
  | param _ body _ => body.isSome
  | group _ _ => true
  | _ => false

/-- Whether an item counts as a wildcard: a star alone or a star as a modifier, and for a parameter
also a plus. -/
def isWild : Item → Bool
  | wildcard => true
  | param _ _ modifier => modifier == some .zeroOrMore || modifier == some .oneOrMore
  | group _ modifier => modifier == some .zeroOrMore
  | blockClose modifier => modifier == some .zeroOrMore
  | _ => false

end Item

namespace Facts

/-- What is known when an item was read. -/
def see (facts : Facts) (item : Item) : Facts where
  hasGroups := facts.hasGroups || item.hasBody
  wildcards := facts.wildcards + item.isWild.toNat

section

variable {facts : Facts} {preceding : Preceding} {name body rest : List Char} {depth : Nat}
  {modifier : Option Modifier} {item : Item} {items : Template}

@[simp]
theorem plain_beq_name : (Preceding.plain == Preceding.name) = false := rfl

/-- Whether a text can go on with what stands right before it. -/
def goesOn (preceding : Preceding) (c : Char) : Bool :=
  match preceding with
  | .plain => false
  | .name => isNameChar c || c == '(' || c == '+'
  | .parameterGroup => c == '+'

/-- What stands right before a text that does not go on with it does not matter. -/
theorem scanOutside_apart (h : ∀ c ∈ rest.head?, ¬ goesOn preceding c) :
    scanOutside facts preceding rest = scanOutside facts .plain rest := by
  cases rest with
  | nil => rfl
  | cons c cs =>
      have hends : ¬ goesOn preceding c := h c rfl
      by_cases hescape : c = '\\'
      · subst hescape
        cases cs <;> rfl
      by_cases hgroup : c = '('
      · subst hgroup
        cases preceding with
        | name => exact absurd rfl hends
        | plain | parameterGroup => rfl
      by_cases hstar : c = '*'
      · subst hstar
        rfl
      by_cases hplus : c = '+'
      · subst hplus
        cases preceding with
        | plain => rfl
        | name | parameterGroup => exact absurd rfl hends
      by_cases hcolon : c = ':'
      · subst hcolon
        rfl
      have hname : (preceding == .name && isNameChar c) = false := by
        cases preceding with
        | name => simp_all [goesOn]
        | plain | parameterGroup => rfl
      rw [scanOutside_plain hescape hgroup hstar hplus hcolon,
        scanOutside_plain hescape hgroup hstar hplus hcolon, hname]
      rfl

theorem scanInside_body (h : Template.Balanced depth body) (onParameter : Bool) :
    scanInside facts onParameter depth (body ++ ')' :: rest) =
      scanOutside facts (if onParameter then .parameterGroup else .plain) rest := by
  induction h with
  | nil => rfl
  | escape c _ ih => exact ih
  | opening _ ih => exact ih
  | closing _ ih => exact ih
  | char hescape hopen hclose _ ih =>
      rw [List.cons_append, scanInside_plain hescape hopen hclose, ih]

theorem scanOutside_name (hname : ∀ c ∈ name, isNameChar c) :
    scanOutside facts .name (name ++ rest) = scanOutside facts .name rest := by
  induction name with
  | nil => rfl
  | cons c name ih =>
      obtain ⟨hc, hname⟩ := List.forall_mem_cons.mp hname
      have hplain (d : Char) (hd : ¬ isNameChar d) : c ≠ d := by
        rintro rfl
        exact hd hc
      rw [List.cons_append, scanOutside_plain (hplain _ (by decide)) (hplain _ (by decide))
        (hplain _ (by decide)) (hplain _ (by decide)) (hplain _ (by decide)), hc]
      exact ih hname

/-- A star is a wildcard wherever it stands, a plus none behind anything but a parameter. -/
theorem scanOutside_modifier : scanOutside facts .plain (Modifier.spelling modifier ++ rest) =
    scanOutside { facts with
      wildcards := facts.wildcards + (modifier == some .zeroOrMore).toNat } .plain rest := by
  cases modifier with
  | none => rfl
  | some modifier => cases modifier <;> rfl

/-- Behind a parameter each modifier for several segments is a wildcard. -/
theorem scanOutside_repeated (hpreceding : preceding ≠ .plain)
    (hends : modifier = none → ∀ c ∈ rest.head?, ¬ goesOn preceding c) :
    scanOutside facts preceding (Modifier.spelling modifier ++ rest) =
      scanOutside { facts with
        wildcards := facts.wildcards +
          (modifier == some .zeroOrMore || modifier == some .oneOrMore).toNat } .plain rest := by
  cases modifier with
  | none => exact scanOutside_apart (hends rfl)
  | some modifier =>
      cases preceding with
      | plain => exact absurd rfl hpreceding
      | name | parameterGroup => cases modifier <;> rfl

theorem ne_plus_of_standsBefore (h : Modifier.standsBefore rest none) :
    ∀ c ∈ rest.head?, c ≠ '+' := by
  rintro c hc rfl
  rw [Modifier.standsBefore, Option.mem_def.mp hc] at h
  cases h

theorem scanOutside_param {body : Option (List Char)}
    (h : (Item.param name body modifier).stands rest) :
    scanOutside facts .plain ((Item.param name body modifier).spelling ++ rest) =
      scanOutside (facts.see (.param name body modifier)) .plain rest := by
  obtain ⟨hfirst, hname⟩ := Template.name_of_stands h
  have hcolon (behind : List Char) : scanOutside facts .plain (':' :: (name ++ behind)) =
      scanOutside facts .name behind := by
    have hstart : (name ++ behind).head?.any isNameStart := by
      cases name with
      | nil => cases hfirst
      | cons c name => exact hfirst
    rw [scanOutside, if_pos hstart, scanOutside_name hname]
  simp only [Item.spelling, List.cons_append, List.append_assoc, hcolon]
  cases body with
  | none =>
      have hends := (Template.standsBefore_param.mp h).2.2
      rw [Item.bodySpelling, List.nil_append, scanOutside_repeated (by decide)]
      · simp [see, Item.hasBody, Item.isWild]
      · rintro rfl c hc
        obtain ⟨hname, hgroup⟩ := hends.1 rfl c hc
        have hplus := ne_plus_of_standsBefore hends.2 c hc
        simp [goesOn, hname, hgroup, hplus]
  | some body =>
      obtain ⟨-, -, hbody, hends⟩ := Item.stands_param.mp h
      have hbalanced := (Template.isBody_iff.mp hbody).2
      have hgroup : scanOutside facts .name (Item.bodySpelling (some body) ++
          (Modifier.spelling modifier ++ rest)) =
            scanOutside { facts with hasGroups := true } .parameterGroup
              (Modifier.spelling modifier ++ rest) := by
        rw [Item.bodySpelling]
        simp only [List.cons_append, List.append_assoc]
        rw [scanOutside, List.nil_append, scanInside_body hbalanced]
        rfl
      rw [hgroup, scanOutside_repeated (by decide)]
      · simp [see, Item.hasBody, Item.isWild]
      · rintro rfl c hc
        have hplus := ne_plus_of_standsBefore hends c hc
        simp [goesOn, hplus]

/-- An item is seen where it means itself. -/
theorem scanOutside_item (h : item.stands rest) :
    scanOutside facts .plain (item.spelling ++ rest) =
      scanOutside (facts.see item) .plain rest := by
  cases item with
  | char c escaped =>
      have hsee : facts.see (.char c escaped) = facts := by simp [see, Item.hasBody, Item.isWild]
      rw [hsee]
      cases escaped with
      | true => rfl
      | false =>
          obtain ⟨⟨hescape, hopen, hclose, hstar, -, -⟩, hcolon⟩ := Template.standsBefore_char.mp h
          rw [Item.spelling, List.singleton_append]
          by_cases hplus : c = '+'
          · subst hplus
            rfl
          by_cases hparam : c = ':'
          · subst hparam
            rw [scanOutside, if_neg (hcolon rfl)]
          · rw [scanOutside_plain hescape hopen hstar hplus hparam]
            rfl
  | param name body modifier => exact scanOutside_param h
  | group body modifier =>
      have hbalanced := (Template.isBody_iff.mp (Item.stands_group.mp h).1).2
      simp only [Item.spelling, Item.bodySpelling, List.cons_append, List.append_assoc,
        List.nil_append]
      rw [scanOutside, scanInside_body hbalanced]
      simp [scanOutside_modifier, see, Item.hasBody, Item.isWild]
  | wildcard => simp [Item.spelling, scanOutside, addWildcard, see, Item.hasBody, Item.isWild]
  | blockOpen => simp [Item.spelling, scanOutside, see, Item.hasBody, Item.isWild]
  | blockClose modifier =>
      simp [Item.spelling, scanOutside, scanOutside_modifier, see, Item.hasBody, Item.isWild]

theorem scanOutside_items (h : items.stands rest) :
    scanOutside facts .plain (Template.spelling items ++ rest) =
      scanOutside (items.foldl see facts) .plain rest := by
  induction items generalizing facts with
  | nil => rfl
  | cons item items ih =>
      obtain ⟨hitem, hitems⟩ := Template.stands_cons.mp h
      rw [Template.spelling_cons, List.append_assoc, scanOutside_item hitem, ih hitems,
        List.foldl_cons]

theorem foldl_see (facts : Facts) (items : Template) : items.foldl see facts =
    ⟨facts.hasGroups || items.any Item.hasBody,
      facts.wildcards + items.countP Item.isWild⟩ := by
  induction items generalizing facts with
  | nil => simp
  | cons item items ih =>
      rw [List.foldl_cons, ih]
      cases hwild : item.isWild with
      | false => simp [see, hwild, Bool.or_assoc]
      | true => simp [see, hwild, Bool.or_assoc, Nat.add_assoc, Nat.add_comm 1]

/-- Where a pattern can be read, its facts are those of its items: it opens a group if an item has
one, and it has as many wildcards as items that count as one. -/
theorem scan_of_read {pattern : String} {items : Template}
    (hread : Template.read pattern.toList = .ok items) :
    ((scan pattern).hasGroups ↔ ∃ item ∈ items, item.hasBody) ∧
      (scan pattern).wildcards = items.countP Item.isWild := by
  obtain ⟨htext, hstands, -⟩ := Template.read_eq_ok_iff.mp hread
  have hscan : scan pattern = items.foldl see {} := by
    have hitems : scanOutside {} .plain (Template.spelling items ++ []) =
        scanOutside (items.foldl see {}) .plain [] := scanOutside_items hstands
    rw [scan, htext]
    rwa [List.append_nil] at hitems
  rw [hscan, foldl_see]
  simp

/-- A plus is a wildcard behind the group of a parameter and stands for itself behind a star, and a
star counts behind a block and a group but not inside one. -/
theorem scan_of_mixed : (scan "/:a(b*)+\x7b(c)*\x7d*+\\*").hasGroups ∧
    (scan "/:a(b*)+\x7b(c)*\x7d*+\\*").wildcards = 3 := by
  have hread : Template.read "/:a(b*)+\x7b(c)*\x7d*+\\*".toList = .ok [.char '/' false,
      .param ['a'] (some ['b', '*']) (some .oneOrMore), .blockOpen,
      .group ['c'] (some .zeroOrMore), .blockClose (some .zeroOrMore), .char '+' false,
      .char '*' true] := by decide
  obtain ⟨hgroups, hwildcards⟩ := scan_of_read hread
  exact ⟨hgroups.mpr ⟨_, List.mem_cons_of_mem _ List.mem_cons_self, rfl⟩, hwildcards⟩

end

end Facts

end RouteAudit
