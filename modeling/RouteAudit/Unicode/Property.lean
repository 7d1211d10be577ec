import RouteAudit.Unicode.Age
import RouteAudit.Unicode.Segmentation

/-! # Named character properties

A pattern names a property between braces, loosely: case, blanks, hyphens and
underscores do not matter, a leading `is` is dropped and so is everything beyond
ASCII. A lone name is that of a trait, a category or a script, and where it is more
than one of them the first counts. A name with a value asks for a category, a script,
an age or a class of segmentation. A name that stands for nothing makes the pattern
invalid.
-/

namespace RouteAudit.Unicode

/-- A property that a character has or lacks. -/
inductive Property where
  | any
  | ascii
  | assigned
  | unassigned
  /-- Controls, formats, private use and every code point without a character. -/
  | other
  | categories (members : List Category)
  | script (which : Script) (extended : Bool)
  | trait (which : Trait)
  /-- One that is given by its members. -/
  | listed (members : RangeTable)
  deriving Repr, BEq, DecidableEq

namespace Property

/-- Whether a character has some general category at all. -/
def isAssigned (c : Char) : Bool :=
  Category.all.any (·.holds c)

/-- Whether a character has the property. -/
def holds (property : Property) (c : Char) : Bool :=
  match property with
  | any => true
  | ascii => c.toNat < 128
  | assigned => isAssigned c
  | unassigned => !isAssigned c
  | other =>
    Category.control.holds c || Category.format.holds c || Category.privateUse.holds c ||
      !isAssigned c
  | categories members => members.any (·.holds c)
  | script which extended => if extended then which.extendsTo c else which.holds c
  | trait which => which.holds c
  | listed members => members.holds c.toNat

/-- The code points that have some general category. -/
def assignedTable : RangeTable :=
  .unions (Category.all.map Category.table)

/-- The code points that have the property. -/
def table : Property → RangeTable
  | any => ⟨[(0, lastCode)]⟩
  | ascii => ⟨[(0, 127)]⟩
  | assigned => assignedTable
  | unassigned => assignedTable.compl
  | other =>
    .unions [Category.control.table, Category.format.table, Category.privateUse.table,
      assignedTable.compl]
  | categories members => .unions (members.map Category.table)
  | script which extended => if extended then which.extendedTable else which.table
  | trait which => which.table
  | listed members => members

/-- Drops one leading `is` in any case. -/
def withoutIs : List Char → List Char × Bool
  | a :: b :: cs =>
    if a.toLower = 'i' ∧ b.toLower = 's' then (cs, true) else (a :: b :: cs, false)
  | cs => (cs, false)

/-- A name as it is compared. The one-letter name left by dropping `is` from
`isc` gets it back: that is a name of its own. -/
def normalName (name : List Char) : String :=
  let (bare, dropped) := withoutIs name
  let bare := bare.filter fun c => c.toNat < 128 && c ≠ ' ' && c ≠ '_' && c ≠ '-'
  let bare := bare.map Char.toLower
  String.ofList (if dropped ∧ bare = ['c'] then ['i', 's', 'c'] else bare)

/-- The property that a name as compared stands for when it names a category. -/
def ofCategoryName? (name : String) : Option Property :=
  if name = "any" then some any
  else if name = "ascii" then some ascii
  else if name = "assigned" then some assigned
  else if name = "cn" ∨ name = "unassigned" then some unassigned
  else if name = "c" ∨ name = "other" then some other
  else (Category.ofName? name).map categories

/-- The property that a lone name stands for. -/
def ofName? (name : List Char) : Option Property :=
  let name := normalName name
  (Trait.ofName? name).map trait <|> ofCategoryName? name <|>
    (Script.ofName? name).map (script · false)

/-- The property that a name with a value stands for. -/
def ofValue? (name value : List Char) : Option Property :=
  let value := normalName value
  match normalName name with
  | "gc" | "generalcategory" => ofCategoryName? value
  | "sc" | "script" => (Script.ofName? value).map (script · false)
  | "scx" | "scriptextensions" => (Script.ofName? value).map (script · true)
  | "age" => (Version.tableOf? value).map listed
  | "gcb" | "graphemeclusterbreak" => (BreakClass.find? BreakClass.graphemes value).map listed
  | "wb" | "wordbreak" => (BreakClass.find? BreakClass.wordClasses value).map listed
  | "sb" | "sentencebreak" => (BreakClass.find? BreakClass.sentences value).map listed
  | _ => none

end Property

end RouteAudit.Unicode
