import RouteAudit.Proofs.Remedy.Items

/-! # Items with encoded dots

Encoding dots reaches into the bodies of groups. An item of which the body is encoded stands where
the item stood. Whether it can still be read apart is asked of the item as it was given
(`encodable`): backslashes before pipes change nothing about it, since dots are encoded in the same
places with and without them.
-/

namespace RouteAudit.Remedy

open Regex (Alike)
open Regex.Reader (BodiesAlike)

/-! ## Bodies with backslashes and encoded dots -/

section

variable {tail text other : List Char}

theorem endsName_alike (h : Alike tail text other) :
    endsName other.head? = endsName text.head? := by
  cases h <;> rfl

theorem startsWithDots_alike (h : Alike tail text other) (c : Char) :
    startsWithDots (c :: other) = startsWithDots (c :: text) := by
  rw [Bool.eq_iff_iff, startsWithDots_iff, startsWithDots_iff]
  constructor
  · rintro ⟨rest, heq, hends⟩
    obtain ⟨rfl, rfl⟩ := List.cons.inj heq
    obtain ⟨behind, rfl, hbehind⟩ := h.cons_of (by decide)
    exact ⟨behind, rfl, by rwa [← endsName_alike (hbehind (by decide))]⟩
  · rintro ⟨rest, heq, hends⟩
    obtain ⟨rfl, rfl⟩ := List.cons.inj heq
    obtain ⟨behind, rfl, hbehind⟩ := h.cons_inv_of_ne (by decide) (by decide) (by decide)
    exact ⟨behind, rfl, by rwa [endsName_alike hbehind]⟩

/-- Dots are encoded in the same places of both texts. Where the first of two has been encoded
already, the second one comes next. -/
theorem encodeFrom_alike (h : Alike tail text other) (second : Bool) (before : Option Char)
    (hsecond : second = true → text.head? = some '.') :
    Alike (encodeFrom false (some ')') tail) (encodeFrom second before text)
      (encodeFrom second before other) := by
  have hfirst {second : Bool} {c : Char} (hc : some c ≠ some '.')
      (hsecond : second = true → some c = some '.') : second = false :=
    Bool.eq_false_iff.mpr fun heq => hc (hsecond heq)
  induction h generalizing second before with
  | stop =>
      obtain rfl := hfirst (by decide) hsecond
      rw [encodeFrom_plain (by decide), encodeFrom_plain (by decide)]
      exact .stop
  | @escape text other c halike ih =>
      obtain rfl := hfirst (by decide) hsecond
      rw [encodeFrom_plain (c := '\\') (by decide), encodeFrom_plain (c := '\\') (by decide)]
      by_cases hdots : startsSegment (some '\\') && startsWithDots (c :: text)
      · have hdot := head?_of_startsWithDots (Bool.and_eq_true_iff.mp hdots).2
        have hword : '\\' ∉ "2E%2E".toList := by decide
        rw [encodeFrom_dots hdots, encodeFrom_dots (startsWithDots_alike halike c ▸ hdots)]
        exact .escape '%' ((ih true (some c) fun _ => hdot).append_word hword)
      · rw [encodeFrom_cons hdots, encodeFrom_cons (startsWithDots_alike halike c ▸ hdots)]
        exact .escape c (ih false _ nofun)
  | @char text other c hc halike ih =>
      cases second with
      | true => exact ih false (some c) nofun
      | false =>
          by_cases hdots : startsSegment before && startsWithDots (c :: text)
          · have hdot := head?_of_startsWithDots (Bool.and_eq_true_iff.mp hdots).2
            rw [encodeFrom_dots hdots, encodeFrom_dots (startsWithDots_alike halike c ▸ hdots)]
            exact (ih true (some c) fun _ => hdot).append_word (by decide)
          · rw [encodeFrom_cons hdots, encodeFrom_cons (startsWithDots_alike halike c ▸ hdots)]
            exact .char hc (ih false _ nofun)
  | pipe halike ih =>
      obtain rfl := hfirst (by decide) hsecond
      rw [encodeFrom_plain (by decide), encodeFrom_plain (by decide), encodeFrom_plain (by decide)]
      exact .pipe (ih false _ nofun)

theorem encodedBody_alike (h : BodiesAlike text other) (htext : Item.isBody text)
    (hother : Item.isBody other) : BodiesAlike (encodedBody text) (encodedBody other) := by
  have halike := encodeFrom_alike (h []) false (some '(') nofun
  rw [(encodedBody_spec htext).2, (encodedBody_spec hother).2] at halike
  obtain ⟨start, heq, hstart⟩ := halike.retail
  rw [List.append_cancel_right heq]
  exact hstart

end

section

variable {free : Bool} {names : List (List Char)} {item item' : Item} {items items' : Template}
  {rest : List Char}

/-! ## Encoded items in a template -/

theorem stands_encodedItem (h : item.stands rest) :
    (encodedItem item).stands rest := by
  cases item with
  | param name body modifier =>
      cases body with
      | none => exact h
      | some body =>
          obtain ⟨hfirst, hname, hbody, hmodifier⟩ := Item.stands_param.mp h
          exact Item.stands_param.mpr ⟨hfirst, hname, (encodedBody_spec hbody).1, hmodifier⟩
  | group body modifier =>
      obtain ⟨hbody, hmodifier⟩ := Item.stands_group.mp h
      exact Item.stands_group.mpr ⟨(encodedBody_spec hbody).1, hmodifier⟩
  | char | wildcard | blockOpen | blockClose => exact h

theorem head?_spelling_encodedItem (item : Item) :
    (encodedItem item).spelling.head? = item.spelling.head? := by
  unfold encodedItem
  split <;> rfl

theorem head?_spelling_map_encodedItem (items : Template) :
    (Template.spelling (items.map encodedItem)).head? = (Template.spelling items).head? := by
  cases items with
  | nil => rfl
  | cons item items =>
      rw [List.map_cons, Template.spelling_cons, Template.spelling_cons,
        List.head?_append_of_ne_nil _ (Item.spelling_ne_nil _),
        List.head?_append_of_ne_nil _ (Item.spelling_ne_nil _), head?_spelling_encodedItem]

theorem stands_map_encodedItem (h : items.stands []) :
    Template.stands [] (items.map encodedItem) := by
  induction items with
  | nil => rfl
  | cons item items ih =>
      obtain ⟨hitem, hitems⟩ := Template.stands_cons.mp h
      refine Template.stands_cons.mpr ⟨?_, ih hitems⟩
      rw [List.append_nil] at hitem ⊢
      rw [Item.stands_congr (head?_spelling_map_encodedItem items)]
      exact stands_encodedItem hitem

theorem closed_map_encodedItem (items : Template) (blocks : Nat) :
    Template.closed blocks (items.map encodedItem) = Template.closed blocks items := by
  induction items generalizing blocks with
  | nil => rfl
  | cons item items ih =>
      have hafter : (encodedItem item).after blocks = item.after blocks := by
        unfold encodedItem
        split <;> rfl
      rw [List.map_cons, Template.closed_cons, Template.closed_cons, hafter]
      simp only [ih]

/-! ## Bodies that may be encoded -/

/-- Whether the body of an item can still be read apart, for the same names, when its dots are
encoded. -/
def encodable (item : Item) : Bool :=
  (encodedItem item).contained && (encodedItem item).bodyCaptures == item.bodyCaptures

theorem encodable_iff : encodable item ↔
    (encodedItem item).contained ∧ (encodedItem item).bodyCaptures = item.bodyCaptures := by
  rw [encodable, Bool.and_eq_true, beq_iff_eq]

theorem SameItem.encoded (h : SameItem item item') (hstands : item.stands rest) :
    SameItem (encodedItem item) (encodedItem item') := by
  cases h with
  | refl => exact .refl _
  | param name modifier halike hother =>
      obtain ⟨-, -, hbody, -⟩ := Item.stands_param.mp hstands
      exact .param name modifier (encodedBody_alike halike hbody hother)
        (encodedBody_spec hother).1
  | group modifier halike hother =>
      obtain ⟨hbody, -⟩ := Item.stands_group.mp hstands
      exact .group modifier (encodedBody_alike halike hbody hother) (encodedBody_spec hother).1

theorem SameItem.encodable (h : SameItem item item') (hstands : item.stands rest)
    (hcontained : item.contained) (hitem : Remedy.encodable item) : Remedy.encodable item' := by
  obtain ⟨hencoded, hnames⟩ := encodable_iff.mp hitem
  have hsame := h.encoded hstands
  refine encodable_iff.mpr ⟨(hsame.contained hencoded).1, ?_⟩
  rw [(hsame.captures hencoded).2, hnames, (h.captures hcontained).2]

theorem Harmless.encodable (h : Harmless item) : Remedy.encodable item := by
  rw [encodable_iff, h.plain]
  exact ⟨h.contained, rfl⟩

theorem Reworked.encodable (h : Reworked free names items items') (hstands : items.stands rest)
    (hcontained : ∀ item ∈ items, item.contained)
    (hitems : ∀ item ∈ items, Remedy.encodable item) :
    ∀ item' ∈ items', Remedy.encodable item' := by
  intro item' hitem'
  rcases h.origin item' hitem' with ⟨item, hitem, hsame⟩ | hnew
  · obtain ⟨behind, hbehind⟩ := Template.exists_stands_of_mem hstands hitem
    exact hsame.encodable hbehind (hcontained item hitem) (hitems item hitem)
  · exact hnew.encodable

theorem captures_encodedItem (h : encodable item) :
    (encodedItem item).captures = item.captures := by
  have hnames := (encodable_iff.mp h).2
  cases item with
  | param name body modifier =>
      cases body with
      | none => rfl
      | some body => exact congrArg (String.ofList name :: ·) hnames
  | char | group | wildcard | blockOpen | blockClose => exact hnames

theorem captures_map_encodedItem (h : ∀ item ∈ items, encodable item) :
    Template.captures (items.map encodedItem) = items.captures := by
  rw [Template.captures, Template.captures, List.flatMap_map]
  exact List.flatMap_congr fun item hitem => captures_encodedItem (h item hitem)

end

end RouteAudit.Remedy
