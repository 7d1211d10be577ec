import RouteAudit.Unicode.Property

/-! # No property has a sign in its name

Names are compared without case, blanks, hyphens and underscores, which leaves the signs of a
pattern where they are: a pipe, a backslash, parentheses and brackets. So a name with one of them,
or a value with one, stands for no property.
-/

namespace RouteAudit.Unicode

/-- The signs that mean something in a pattern and in no name. -/
def signs : List Char := ['|', '\\', '(', ')', '[', ']']

/-- Whether a character is one of these signs. -/
def isSign (c : Char) : Bool := signs.contains c

/-- What is checked of all signs holds of each of them. -/
theorem of_isSign {p : Char → Bool} (hsigns : signs.all p) {c : Char} (hc : isSign c) : p c :=
  List.all_eq_true.mp hsigns c (List.contains_iff_mem.mp hc)

/-- What holds of no sign tells that a character is none. -/
theorem not_isSign_of {p : Char → Bool} (hsigns : signs.any p = false) {c : Char} (hc : p c) :
    isSign c = false := by
  rw [isSign, List.contains_eq_mem, decide_eq_false_iff_not]
  exact fun hmem => List.any_eq_false.mp hsigns c hmem hc

/-- Whether a byte may stand in the name of a property: a lower-case letter, a digit or the dot of
a version. -/
def isNameByte (b : UInt8) : Bool := (97 ≤ b && b ≤ 122) || (48 ≤ b && b ≤ 57) || b == 46

/-- Whether a name is made of such bytes. -/
def isWritten (name : String) : Bool := name.toByteArray.data.toList.all isNameByte

/-- A sign is a byte of its own, and one that is in no name. -/
theorem not_isWritten_of_sign {c : Char} (hc : isSign c) {name : String} (h : c ∈ name.toList) :
    ¬ isWritten name := by
  obtain ⟨chars, rfl⟩ : ∃ chars, name = String.ofList chars :=
    ⟨name.toList, String.ofList_toList.symm⟩
  have hsign : (String.utf8EncodeChar c).any fun b => !isNameByte b :=
    of_isSign (p := fun c => (String.utf8EncodeChar c).any fun b => !isNameByte b) (by decide) hc
  obtain ⟨b, hb, hname⟩ := List.any_eq_true.mp hsign
  rw [String.toList_ofList] at h
  have hbyte : b ∈ (String.ofList chars).toByteArray.data.toList := by
    rw [String.toByteArray_ofList, List.utf8Encode]
    simpa using List.mem_flatMap.mpr ⟨c, h, hb⟩
  intro hall
  rw [List.all_eq_true.mp hall b hbyte] at hname
  cases hname

theorem contains_of_sign {c : Char} (hc : isSign c) {name : String} {names : List String}
    (hnames : ∀ other ∈ names, isWritten other) (h : c ∈ name.toList) :
    names.contains name = false := by
  rw [List.contains_eq_mem, decide_eq_false_iff_not]
  exact fun hmem => not_isWritten_of_sign hc h (hnames name hmem)

theorem find?_of_sign {α : Type} {family : List α} {names : α → List String} {name : String}
    {c : Char} (hc : isSign c) (hnames : ∀ member ∈ family, ∀ other ∈ names member, isWritten other)
    (h : c ∈ name.toList) : family.find? (fun member => (names member).contains name) = none := by
  rw [List.find?_eq_none]
  intro member hmember
  rw [contains_of_sign hc (hnames member hmember) h]
  exact Bool.false_ne_true

section

variable {name : String} {c : Char} (hc : isSign c) (h : c ∈ name.toList)
include hc h

theorem Trait.ofName?_of_sign : Trait.ofName? name = none :=
  find?_of_sign hc (by decide +kernel) h

theorem Script.ofName?_of_sign : Script.ofName? name = none :=
  find?_of_sign hc (by decide +kernel) h

theorem Category.ofName?_of_sign : Category.ofName? name = none := by
  have hgroups : groups.find? (·.1.contains name) = none := find?_of_sign hc (by decide +kernel) h
  have hall : all.find? (·.names.contains name) = none := find?_of_sign hc (by decide +kernel) h
  rw [Category.ofName?, hgroups, hall]
  rfl

theorem Version.tableOf?_of_sign : Version.tableOf? name = none := by
  have hnames : ∀ version ∈ all, ∀ other ∈ version.names,
      isWritten other := by decide +kernel
  have hup : ∀ versions : List Version, (∀ version ∈ versions, ∀ other ∈ version.names,
      isWritten other) → upTo name versions = none := by
    intro versions hversions
    induction versions with
    | nil => rfl
    | cons version later ih =>
        obtain ⟨hversion, hlater⟩ := List.forall_mem_cons.mp hversions
        rw [upTo, contains_of_sign hc hversion h, ih hlater]
        rfl
  rw [tableOf?, hup all hnames]
  rfl

theorem BreakClass.find?_of_sign {family : List BreakClass}
    (hfamily : family = graphemes ∨ family = wordClasses ∨ family = sentences) :
    BreakClass.find? family name = none := by
  have hgraphemes : ∀ member ∈ graphemes, ∀ other ∈ member.names,
      isWritten other := by decide +kernel
  have hwords : ∀ member ∈ wordClasses, ∀ other ∈ member.names,
      isWritten other := by decide +kernel
  have hsentences : ∀ member ∈ sentences, ∀ other ∈ member.names,
      isWritten other := by decide +kernel
  have hnone : family.find? (·.names.contains name) = none := by
    rcases hfamily with rfl | rfl | rfl
    · exact Unicode.find?_of_sign hc hgraphemes h
    · exact Unicode.find?_of_sign hc hwords h
    · exact Unicode.find?_of_sign hc hsentences h
  rw [BreakClass.find?, hnone]
  rfl

end

namespace Property

variable {c : Char}

theorem mem_withoutIs_of_sign (hc : isSign c) {name : List Char} (h : c ∈ name) :
    c ∈ (withoutIs name).1 := by
  have hi : c.toLower ≠ 'i' := bne_iff_ne.mp (of_isSign (p := (·.toLower != 'i')) (by decide) hc)
  have hs : c.toLower ≠ 's' := bne_iff_ne.mp (of_isSign (p := (·.toLower != 's')) (by decide) hc)
  unfold withoutIs
  split
  next a b cs =>
    split
    next his =>
      simp only [List.mem_cons] at h
      rcases h with rfl | rfl | h
      · exact absurd his.1 hi
      · exact absurd his.2 hs
      · exact h
    next => exact h
  next => exact h

theorem mem_normalName_of_sign (hc : isSign c) {name : List Char} (h : c ∈ name) :
    c ∈ (normalName name).toList := by
  have hkept : c.toNat < 128 && c ≠ ' ' && c ≠ '_' && c ≠ '-' :=
    of_isSign (p := fun c => c.toNat < 128 && c ≠ ' ' && c ≠ '_' && c ≠ '-') (by decide) hc
  have hlower : c.toLower = c :=
    beq_iff_eq.mp (of_isSign (p := fun c => c.toLower == c) (by decide) hc)
  have hother : c ≠ 'c' := bne_iff_ne.mp (of_isSign (p := (· != 'c')) (by decide) hc)
  have hbare : c ∈ (((withoutIs name).1.filter fun c =>
      c.toNat < 128 && c ≠ ' ' && c ≠ '_' && c ≠ '-').map Char.toLower) :=
    List.mem_map.mpr ⟨c, List.mem_filter.mpr ⟨mem_withoutIs_of_sign hc h, hkept⟩, hlower⟩
  unfold normalName
  dsimp only
  rw [String.toList_ofList]
  split
  next hlone =>
    rw [hlone.2] at hbare
    exact absurd (List.mem_singleton.mp hbare) hother
  next => exact hbare

theorem ofCategoryName?_of_sign (hc : isSign c) {name : String} (h : c ∈ name.toList) :
    ofCategoryName? name = none := by
  have hne (other : String) (hother : isWritten other) : name ≠ other := by
    rintro rfl
    exact not_isWritten_of_sign hc h hother
  rw [ofCategoryName?, if_neg (hne _ (by decide)), if_neg (hne _ (by decide)),
    if_neg (hne _ (by decide)),
    if_neg (not_or.mpr ⟨hne _ (by decide), hne _ (by decide)⟩),
    if_neg (not_or.mpr ⟨hne _ (by decide), hne _ (by decide)⟩), Category.ofName?_of_sign hc h]
  rfl

theorem ofName?_of_sign (hc : isSign c) {name : List Char} (h : c ∈ name) :
    ofName? name = none := by
  have hname := mem_normalName_of_sign hc h
  rw [ofName?, Trait.ofName?_of_sign hc hname, ofCategoryName?_of_sign hc hname,
    Script.ofName?_of_sign hc hname]
  rfl

theorem ofValue?_of_sign (hc : isSign c) {name value : List Char} (h : c ∈ name ∨ c ∈ value) :
    ofValue? name value = none := by
  unfold ofValue?
  dsimp only
  rcases h with hname | hvalue
  · -- No name that may have a value has a sign.
    have hname := not_isWritten_of_sign hc (mem_normalName_of_sign hc hname)
    split
    case h_14 => rfl
    all_goals
      rename_i heq
      rw [heq] at hname
      exact absurd (by decide) hname
  · have hvalue := mem_normalName_of_sign hc hvalue
    split <;> simp [ofCategoryName?_of_sign hc hvalue, Script.ofName?_of_sign hc hvalue,
      Version.tableOf?_of_sign hc hvalue, BreakClass.find?_of_sign hc hvalue]

end Property

end RouteAudit.Unicode
