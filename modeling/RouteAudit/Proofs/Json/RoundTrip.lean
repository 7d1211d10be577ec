import RouteAudit.Proofs.Json.Scalars

/-! # Values read back

What is written over lines is read back, for every value whose whole numbers, strings and keys
stand for themselves (`Plain`): not for a broken string, which is written as an empty one, nor
for a number with a fraction, which is free text here.
-/

namespace RouteAudit.Json

/-- A value with whole numbers only, whose strings and keys are texts. -/
inductive Plain : Json → Prop where
  | null : Plain .null
  | bool (value : Bool) : Plain (.bool value)
  | int (value : Int) : Plain (.int value)
  | string (value : String) : Plain (.string value)
  | array {items : List Json} (h : ∀ item ∈ items, Plain item) : Plain (.array items)
  | record {entries : List (String × Json)} (h : ∀ entry ∈ entries, Plain entry.2) :
      Plain (.record entries)

/-! ## Blanks -/

theorem skipSpace_lineAt (level : Nat) (cs : List Char) :
    skipSpace (lineAt level ++ cs) = skipSpace cs := by
  have hblank : ∀ c ∈ lineAt level, isSpace c := by
    intro c hc
    rcases List.mem_cons.mp hc with rfl | hc
    · rfl
    · rw [(List.mem_replicate.mp hc).2]
      rfl
  exact List.dropWhile_append_of_pos hblank

theorem skipSpace_cons {c : Char} (h : isSpace c = false) (cs : List Char) :
    skipSpace (c :: cs) = c :: cs :=
  List.dropWhile_cons_of_neg (by simp [h])

/-- Text that starts with neither a blank nor the end of an array. -/
def StartsValue (cs : List Char) : Prop :=
  ∃ c rest, cs = c :: rest ∧ isSpace c = false ∧ c ≠ ']'

theorem StartsValue.skipSpace {cs : List Char} (h : StartsValue cs) (rest : List Char) :
    Json.skipSpace (cs ++ rest) = cs ++ rest := by
  obtain ⟨c, cs, rfl, hspace, -⟩ := h
  exact skipSpace_cons hspace _

/-! ## Whole numbers among values -/

theorem readValue?_number {c : Char} (h : c.isDigit ∨ c = '-') (fuel : Nat) (cs : List Char) :
    readValue? (fuel + 1) (c :: cs) = readNumber? (c :: cs) := by
  have hne : c ≠ '"' ∧ c ≠ '[' ∧ c ≠ '\x7b' ∧ c ≠ 't' ∧ c ≠ 'f' ∧ c ≠ 'n' := by
    refine ⟨?_, ?_, ?_, ?_, ?_, ?_⟩ <;> rintro rfl <;> revert h <;> decide
  obtain ⟨h1, h2, h3, h4, h5, h6⟩ := hne
  rw [readValue?, if_neg h1, if_neg h2, if_neg h3, if_neg h4, if_neg h5, if_neg h6]

theorem Plain.startsValue {value : Json} (h : Plain value) (level : Nat) :
    StartsValue (prettyAt level value) := by
  cases h with
  | null => exact ⟨'n', _, rfl, rfl, by decide⟩
  | bool value => 
      cases value
      · exact ⟨'f', _, rfl, rfl, by decide⟩
      · exact ⟨'t', _, rfl, rfl, by decide⟩
  | int value =>
      obtain ⟨c, cs, hcs, hc⟩ := toString_head value
      refine ⟨c, cs, hcs, ?_, ?_⟩
      · rcases hc with hc | rfl
        · by_contra hspace
          simp only [isSpace, Bool.not_eq_false, Bool.or_eq_true, beq_iff_eq, or_assoc] at hspace
          rcases hspace with rfl | rfl | rfl | rfl <;> cases hc
        · rfl
      · rintro rfl
        revert hc
        decide
  | string value => exact ⟨'"', _, rfl, rfl, by decide⟩
  | @array items h =>
      cases items
      · exact ⟨'[', _, rfl, rfl, by decide⟩
      · exact ⟨'[', _, rfl, rfl, by decide⟩
  | @record entries h =>
      cases entries
      · exact ⟨'\x7b', _, rfl, rfl, by decide⟩
      · exact ⟨'\x7b', _, rfl, rfl, by decide⟩

/-! ## One step of a reader -/

section

variable {fuel level : Nat} {cs rest rest' : List Char} {key : String} {item value : Json}
  {items : List Json} {entry : Option String × Json} {entries : List (Option String × Json)}

theorem readItems?_end : readItems? (fuel + 1) (lineAt level ++ ']' :: rest) = some ([], rest) := by
  rw [readItems?, skipSpace_lineAt, skipSpace_cons rfl]
  rfl

theorem readItems?_comma (hitem : readValue? fuel (skipSpace cs) = some (item, rest))
    (hitems : readItems? fuel rest = some (items, rest')) :
    readItems? (fuel + 1) (',' :: cs) = some (item :: items, rest') := by
  rw [readItems?, skipSpace_cons rfl]
  simp [hitem, hitems]

theorem readEntry?_key (hvalue : readValue? fuel cs = some (value, rest))
    (hcs : skipSpace cs = cs) :
    readEntry? (fuel + 1) (quote key ++ ':' :: ' ' :: cs) = some ((some key, value), rest) := by
  have hcolon : skipSpace (':' :: ' ' :: cs) = ':' :: ' ' :: cs := rfl
  have hblank : skipSpace (' ' :: cs) = skipSpace cs := rfl
  rw [quote, List.append_assoc, List.cons_append, List.singleton_append, readEntry?,
    readString?_quoted]
  simp [hcolon, hblank, hcs, hvalue]

theorem readEntries?_end :
    readEntries? (fuel + 1) (lineAt level ++ '\x7d' :: rest) = some ([], rest) := by
  rw [readEntries?, skipSpace_lineAt, skipSpace_cons rfl]
  rfl

theorem readEntries?_comma (hentry : readEntry? fuel (skipSpace cs) = some (entry, rest))
    (hentries : readEntries? fuel rest = some (entries, rest')) :
    readEntries? (fuel + 1) (',' :: cs) = some (entry :: entries, rest') := by
  rw [readEntries?, skipSpace_cons rfl]
  simp [hentry, hentries]

theorem readValue?_array (hstart : ∀ rest, skipSpace cs ≠ ']' :: rest)
    (hitem : readValue? fuel (skipSpace cs) = some (item, rest))
    (hitems : readItems? fuel rest = some (items, rest')) :
    readValue? (fuel + 1) ('[' :: cs) = some (.array (item :: items), rest') := by
  rw [readValue?, if_neg (by decide), if_pos rfl]
  split
  next heq => exact absurd heq (hstart _)
  next => simp [hitem, hitems]

theorem readValue?_object (hstart : ∀ rest, skipSpace cs ≠ '\x7d' :: rest)
    (hentry : readEntry? fuel (skipSpace cs) = some (entry, rest))
    (hentries : readEntries? fuel rest = some (entries, rest')) :
    readValue? (fuel + 1) ('\x7b' :: cs) = some (.object (entry :: entries), rest') := by
  rw [readValue?, if_neg (by decide), if_neg (by decide), if_pos rfl]
  split
  next heq => exact absurd heq (hstart _)
  next => simp [hentry, hentries]

end

/-! ## Reading back -/

/-- A value is read back at every level, with as much fuel as it has characters. -/
def ReadsBack (value : Json) : Prop :=
  ∀ level fuel rest, EndsNumber rest → (prettyAt level value).length ≤ fuel →
    readValue? fuel (prettyAt level value ++ rest) = some (value, rest)

theorem endsNumber_items (level : Nat) (items : List Json) (rest : List Char) :
    EndsNumber (prettyItems level items ++ rest) := by
  intro c hc
  cases items <;> cases hc <;> decide

theorem endsNumber_entries (level : Nat) (entries : List (Option String × Json))
    (rest : List Char) : EndsNumber (prettyEntries level entries ++ rest) := by
  intro c hc
  cases entries <;> cases hc <;> decide

theorem readItems?_prettyItems {items : List Json}
    (h : ∀ item ∈ items, Plain item ∧ ReadsBack item) (level fuel : Nat) (rest : List Char)
    (hfuel : (prettyItems level items).length ≤ fuel) :
    readItems? fuel (prettyItems level items ++ rest) = some (items, rest) := by
  induction items generalizing fuel with
  | nil =>
      cases fuel with
      | zero => cases hfuel
      | succ fuel =>
          rw [prettyItems, List.append_assoc]
          exact readItems?_end
  | cons item items ih =>
      obtain ⟨⟨hplain, hitem⟩, hitems⟩ := List.forall_mem_cons.mp h
      cases fuel with
      | zero => cases hfuel
      | succ fuel =>
          rw [prettyItems] at hfuel ⊢
          simp only [List.length_append, List.length_cons] at hfuel
          simp only [List.cons_append, List.append_assoc]
          refine readItems?_comma ?_ (ih hitems fuel (by omega))
          rw [skipSpace_lineAt, (hplain.startsValue _).skipSpace]
          exact hitem _ _ _ (endsNumber_items level items rest) (by omega)

section

variable {entries : List (String × Json)}

/-- The key of an entry as a key of an object. -/
def keyed (entry : String × Json) : Option String × Json := (some entry.1, entry.2)

theorem skipSpace_prettyEntry (level : Nat) (entry : Option String × Json) (rest : List Char) :
    skipSpace (prettyEntry level entry ++ rest) = prettyEntry level entry ++ rest := by
  rw [prettyEntry, quote, List.cons_append, List.cons_append, List.cons_append, List.cons_append]
  exact skipSpace_cons rfl _

theorem readEntry?_prettyEntry {entry : String × Json} (hplain : Plain entry.2)
    (hentry : ReadsBack entry.2) {level fuel : Nat} {rest : List Char} (hrest : EndsNumber rest)
    (hfuel : (prettyEntry level (keyed entry)).length ≤ fuel) :
    readEntry? fuel (prettyEntry level (keyed entry) ++ rest) = some (keyed entry, rest) := by
  cases fuel with
  | zero => cases hfuel
  | succ fuel =>
      rw [keyed, prettyEntry, Option.getD_some] at hfuel ⊢
      simp only [List.length_append, quote, List.cons_append, List.length_cons] at hfuel
      rw [List.append_assoc, List.append_assoc]
      exact readEntry?_key (hentry _ _ _ hrest (by omega)) ((hplain.startsValue _).skipSpace _)

theorem readEntries?_prettyEntries (h : ∀ entry ∈ entries, Plain entry.2 ∧ ReadsBack entry.2)
    (level fuel : Nat) (rest : List Char)
    (hfuel : (prettyEntries level (entries.map keyed)).length ≤ fuel) :
    readEntries? fuel (prettyEntries level (entries.map keyed) ++ rest) =
      some (entries.map keyed, rest) := by
  induction entries generalizing fuel with
  | nil =>
      cases fuel with
      | zero => cases hfuel
      | succ fuel =>
          rw [List.map_nil, prettyEntries, List.append_assoc]
          exact readEntries?_end
  | cons entry entries ih =>
      obtain ⟨⟨hplain, hentry⟩, hentries⟩ := List.forall_mem_cons.mp h
      cases fuel with
      | zero => cases hfuel
      | succ fuel =>
          rw [List.map_cons, prettyEntries] at hfuel ⊢
          simp only [List.length_append, List.length_cons] at hfuel
          simp only [List.cons_append, List.append_assoc]
          refine readEntries?_comma ?_ (ih hentries fuel (by omega))
          rw [skipSpace_lineAt, skipSpace_prettyEntry]
          exact readEntry?_prettyEntry hplain hentry (endsNumber_entries level _ rest) (by omega)

end

theorem readsBack_array {items : List Json} (h : ∀ item ∈ items, Plain item ∧ ReadsBack item) :
    ReadsBack (.array items) := by
  intro level fuel rest _ hfuel
  cases fuel with
  | zero => cases items <;> cases hfuel
  | succ fuel =>
      cases items with
      | nil => rfl
      | cons item items =>
          obtain ⟨⟨hplain, hitem⟩, hitems⟩ := List.forall_mem_cons.mp h
          rw [prettyAt] at hfuel ⊢
          simp only [List.length_append, List.length_cons] at hfuel
          simp only [List.cons_append, List.append_assoc]
          obtain ⟨c, cs, hcs, hspace, hend⟩ := hplain.startsValue (level + 1)
          have hskip := (hplain.startsValue (level + 1)).skipSpace (prettyItems level items ++ rest)
          refine readValue?_array ?_ ?_ (readItems?_prettyItems hitems level fuel rest (by omega))
          · intro cs'
            rw [skipSpace_lineAt, hskip, hcs]
            exact fun heq => hend (List.cons.inj heq).1
          · rw [skipSpace_lineAt, hskip]
            exact hitem _ _ _ (endsNumber_items level items rest) (by omega)

theorem readsBack_record {entries : List (String × Json)}
    (h : ∀ entry ∈ entries, Plain entry.2 ∧ ReadsBack entry.2) : ReadsBack (.record entries) := by
  intro level fuel rest _ hfuel
  cases fuel with
  | zero => cases entries <;> cases hfuel
  | succ fuel =>
      cases entries with
      | nil => rfl
      | cons entry entries =>
          obtain ⟨⟨hplain, hentry⟩, hentries⟩ := List.forall_mem_cons.mp h
          change (prettyAt level (.object (keyed entry :: entries.map keyed))).length ≤ _ at hfuel
          change readValue? _
              (prettyAt level (.object (keyed entry :: entries.map keyed)) ++ rest) =
            some (.object (keyed entry :: entries.map keyed), rest)
          rw [prettyAt] at hfuel ⊢
          simp only [List.length_append, List.length_cons] at hfuel
          simp only [List.cons_append, List.append_assoc]
          refine readValue?_object ?_ ?_
            (readEntries?_prettyEntries hentries level fuel rest (by omega))
          · intro cs heq
            rw [skipSpace_lineAt, skipSpace_prettyEntry] at heq
            cases (List.cons.inj heq).1
          · rw [skipSpace_lineAt, skipSpace_prettyEntry]
            exact readEntry?_prettyEntry hplain hentry (endsNumber_entries level _ rest) (by omega)

theorem readsBack_int (value : Int) : ReadsBack (.int value) := by
  intro level fuel rest hrest hfuel
  have hnumber := readNumber?_toString value hrest
  have htext : prettyAt level (.int value) = (toString value).toList := rfl
  obtain ⟨c, cs, hcs, hc⟩ := toString_head value
  rw [htext, hcs] at hfuel ⊢
  rw [hcs] at hnumber
  cases fuel with
  | zero => cases hfuel
  | succ fuel => rw [List.cons_append, readValue?_number hc]; exact hnumber

theorem readsBack_string (value : String) : ReadsBack (.string value) := by
  intro level fuel rest _ hfuel
  have htext : prettyAt level (.string value) = quote value := rfl
  rw [htext, quote] at hfuel ⊢
  cases fuel with
  | zero => cases hfuel
  | succ fuel =>
      rw [List.append_assoc, List.cons_append, List.singleton_append, readValue?, if_pos rfl,
        readString?_quoted]
      rfl

/-- What is written of a value is read as that value, whatever follows. -/
theorem Plain.readsBack {value : Json} (h : Plain value) : ReadsBack value := by
  induction h with
  | null =>
      rintro level (- | fuel) rest - hfuel
      · cases hfuel
      · rfl
  | bool value =>
      rintro level (- | fuel) rest - hfuel
      · cases value <;> cases hfuel
      · cases value <;> rfl
  | int value => exact readsBack_int value
  | string value => exact readsBack_string value
  | @array items h ih => exact readsBack_array fun item hitem => ⟨h item hitem, ih item hitem⟩
  | @record entries h ih =>
      exact readsBack_record fun entry hentry => ⟨h entry hentry, ih entry hentry⟩

/-- A whole text that writes a value is parsed as that value. -/
theorem Plain.parse?_pretty {value : Json} (h : Plain value) :
    parse? value.pretty = some value := by
  have hends : EndsNumber [] := fun c hc => by cases hc
  have hread := h.readsBack 0 (2 * (prettyAt 0 value).length + 2) [] hends (by omega)
  have hskip := (h.startsValue 0).skipSpace []
  rw [List.append_nil] at hread hskip
  rw [parse?, pretty, String.toList_ofList]
  have hnothing : skipSpace [] = [] := rfl
  simp [hskip, hread, hnothing]

end RouteAudit.Json
