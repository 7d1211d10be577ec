/-! # Tables of code points

A table lists ranges of code points. It is written as text, one word a range:
`41-5A` is every code point from U+0041 to U+005A and `AA` is U+00AA alone, in
upper-case hexadecimal. A word that is not of this form adds nothing.

Tables are combined as sets. What comes out is in its shortest form: ascending
ranges with at least one code point between two neighbours.
-/

namespace RouteAudit.Unicode

/-- The value of one upper-case hexadecimal digit. -/
def hexDigit? (c : Char) : Option Nat :=
  if '0' ≤ c ∧ c ≤ '9' then some (c.toNat - '0'.toNat)
  else if 'A' ≤ c ∧ c ≤ 'F' then some (c.toNat - 'A'.toNat + 10)
  else none

/-- The number that a non-empty run of upper-case hexadecimal digits writes. -/
def hexNumber? (cs : List Char) : Option Nat :=
  if cs.isEmpty then none
  else cs.foldlM (fun n c => (hexDigit? c).map (16 * n + ·)) 0

/-- Splits at every blank between words; neighbouring blanks enclose no word. -/
def words (cs : List Char) : List (List Char) :=
  go [] cs
where
  go (current : List Char) : List Char → List (List Char)
    | [] => if current.isEmpty then [] else [current.reverse]
    | c :: cs =>
      if c = ' ' ∨ c = '\n' then
        if current.isEmpty then go [] cs else current.reverse :: go [] cs
      else go (c :: current) cs

/-- The last code point that there is. -/
def lastCode : Nat := 0x10FFFF

/-- A set of code points as ranges with both ends included. -/
structure RangeTable where
  ranges : List (Nat × Nat)
  deriving Repr, BEq, DecidableEq

namespace RangeTable

/-- Reads one word of a table. -/
def range? (word : List Char) : Option (Nat × Nat) :=
  match word.span (· ≠ '-') with
  | (one, []) => (hexNumber? one).map fun n => (n, n)
  | (first, _ :: last) => do return (← hexNumber? first, ← hexNumber? last)

/-- Reads the text of a table. -/
def ofText (text : String) : RangeTable :=
  ⟨(words text.toList).filterMap range?⟩

/-- Whether a range holds the code point. -/
def inRange (code : Nat) (range : Nat × Nat) : Bool :=
  range.1 ≤ code && code ≤ range.2

/-- Whether some range of the table holds the code point. -/
def holds (table : RangeTable) (code : Nat) : Bool :=
  table.ranges.any (inRange code)

/-! ## The shortest form -/

/-- The order of ranges by their first members. -/
def startsBefore (a b : Nat × Nat) : Bool := a.1 ≤ b.1

/-- Joins ranges in ascending order to a first one wherever they touch or overlap. -/
def joinFrom (first last : Nat) : List (Nat × Nat) → List (Nat × Nat)
  | [] => [(first, last)]
  | (a, b) :: rest =>
    if a ≤ last + 1 then joinFrom first (max last b) rest
    else (first, last) :: joinFrom a b rest

/-- Ranges in ascending order that neither touch nor overlap. -/
def shortest (ranges : List (Nat × Nat)) : RangeTable :=
  match ranges.mergeSort startsBefore with
  | [] => ⟨[]⟩
  | (first, last) :: rest => ⟨joinFrom first last rest⟩

theorem any_joinFrom {first last code : Nat} {rest : List (Nat × Nat)}
    (h : ((first, last) :: rest).Pairwise (startsBefore · ·)) :
    (joinFrom first last rest).any (inRange code) =
      (inRange code (first, last) || rest.any (inRange code)) := by
  induction rest generalizing first last with
  | nil => simp [joinFrom]
  | cons range rest ih =>
    obtain ⟨a, b⟩ := range
    rw [List.pairwise_cons] at h
    obtain ⟨hfirst, hrest⟩ := h
    have hle : first ≤ a := by simpa [startsBefore] using hfirst (a, b) (by simp)
    unfold joinFrom
    split
    next hnear =>
      have hsorted : ((first, max last b) :: rest).Pairwise (startsBefore · ·) := by
        rw [List.pairwise_cons]
        exact ⟨fun r hr => hfirst r (by simp [hr]), (List.pairwise_cons.mp hrest).2⟩
      rw [ih hsorted, List.any_cons, ← Bool.or_assoc]
      congr 1
      simp only [inRange]
      rw [Bool.eq_iff_iff]
      simp only [Bool.and_eq_true, Bool.or_eq_true, decide_eq_true_eq]
      omega
    next => rw [List.any_cons, List.any_cons, ih hrest]

/-- Shortening keeps the members. -/
theorem holds_shortest (ranges : List (Nat × Nat)) (code : Nat) :
    (shortest ranges).holds code = ranges.any (inRange code) := by
  have hsorted : (ranges.mergeSort startsBefore).Pairwise (startsBefore · ·) :=
    List.pairwise_mergeSort
      (fun a b c hab hbc => by simp only [startsBefore, decide_eq_true_eq] at *; omega)
      (fun a b => by simp only [startsBefore, Bool.or_eq_true, decide_eq_true_eq]; omega) ranges
  have hany : ranges.any (inRange code) = (ranges.mergeSort startsBefore).any (inRange code) :=
    ((List.mergeSort_perm ranges startsBefore).any_eq).symm
  unfold shortest holds
  rw [hany]
  split
  next h => rw [h]
  next first last rest h =>
    rw [h] at hsorted ⊢
    exact any_joinFrom hsorted

/-! ## Set operations -/

/-- The members of either table. -/
def union (left right : RangeTable) : RangeTable :=
  shortest (left.ranges ++ right.ranges)

/-- The members of any of the tables. -/
def unions (tables : List RangeTable) : RangeTable :=
  shortest (tables.flatMap (·.ranges))

/-- What ascending ranges leave free from a code point on. -/
def gapsFrom (next : Nat) : List (Nat × Nat) → List (Nat × Nat)
  | [] => if next ≤ lastCode then [(next, lastCode)] else []
  | (a, b) :: rest =>
    if next < a then (next, a - 1) :: gapsFrom (max a (b + 1)) rest
    else gapsFrom (max next (b + 1)) rest

/-- The code points that are no members. -/
def compl (table : RangeTable) : RangeTable :=
  ⟨gapsFrom 0 (table.ranges.mergeSort startsBefore)⟩

/-- The common members. -/
def inter (left right : RangeTable) : RangeTable :=
  compl (union (compl left) (compl right))

/-- The members of the left table that the right one lacks. -/
def diff (left right : RangeTable) : RangeTable :=
  compl (union (compl left) right)

/-- The members of exactly one of the tables. -/
def symmDiff (left right : RangeTable) : RangeTable :=
  union (diff left right) (diff right left)

theorem holds_union (left right : RangeTable) (code : Nat) :
    (left.union right).holds code = (left.holds code || right.holds code) := by
  rw [union, holds_shortest, List.any_append]
  rfl

theorem holds_unions (tables : List RangeTable) (code : Nat) :
    (unions tables).holds code = tables.any (·.holds code) := by
  rw [unions, holds_shortest, List.any_flatMap]
  rfl

theorem any_gapsFrom {next code : Nat} {ranges : List (Nat × Nat)} (hcode : code ≤ lastCode)
    (h : ranges.Pairwise (startsBefore · ·)) :
    (gapsFrom next ranges).any (inRange code) =
      (decide (next ≤ code) && !ranges.any (inRange code)) := by
  induction ranges generalizing next with
  | nil =>
    unfold gapsFrom
    split <;> simp only [List.any_cons, List.any_nil, inRange] <;> rw [Bool.eq_iff_iff] <;>
      simp only [Bool.or_eq_true, Bool.and_eq_true, decide_eq_true_eq, Bool.not_false] <;>
      simp <;> omega
  | cons range rest ih =>
    obtain ⟨a, b⟩ := range
    obtain ⟨hfirst, hrest⟩ := List.pairwise_cons.mp h
    have hlow : code < a → rest.any (inRange code) = false := by
      intro hlt
      rw [List.any_eq_false]
      intro r hr
      have : a ≤ r.1 := by simpa [startsBefore] using hfirst r hr
      simp only [inRange, Bool.and_eq_true, decide_eq_true_eq]
      omega
    unfold gapsFrom
    split
    all_goals
      simp only [List.any_cons, ih hrest, inRange]
      rw [Bool.eq_iff_iff]
      simp only [Bool.or_eq_true, Bool.and_eq_true, decide_eq_true_eq, Bool.not_eq_true',
        Bool.or_eq_false_iff, Bool.and_eq_false_iff, decide_eq_false_iff_not]
      by_cases hlt : code < a
      · simp only [hlow hlt]
        simp
        omega
      · cases rest.any (inRange code) <;> simp <;> omega

/-- The complement holds what the table does not, as far as there are code points. -/
theorem holds_compl (table : RangeTable) {code : Nat} (hcode : code ≤ lastCode) :
    table.compl.holds code = !table.holds code := by
  have hsorted : (table.ranges.mergeSort startsBefore).Pairwise (startsBefore · ·) :=
    List.pairwise_mergeSort
      (fun a b c hab hbc => by simp only [startsBefore, decide_eq_true_eq] at *; omega)
      (fun a b => by simp only [startsBefore, Bool.or_eq_true, decide_eq_true_eq]; omega) _
  have hany : table.holds code = (table.ranges.mergeSort startsBefore).any (inRange code) :=
    ((List.mergeSort_perm table.ranges startsBefore).any_eq).symm
  rw [hany]
  simpa [compl, holds] using @any_gapsFrom 0 _ _ hcode hsorted

theorem holds_inter (left right : RangeTable) {code : Nat} (hcode : code ≤ lastCode) :
    (left.inter right).holds code = (left.holds code && right.holds code) := by
  simp [inter, holds_compl _ hcode, holds_union]

theorem holds_diff (left right : RangeTable) {code : Nat} (hcode : code ≤ lastCode) :
    (left.diff right).holds code = (left.holds code && !right.holds code) := by
  simp [diff, holds_compl _ hcode, holds_union]

end RangeTable

end RouteAudit.Unicode
