import RouteAudit.Regex.Expr
import RouteAudit.Regex.Automaton.Encoding

/-! # Shapes of expressions

A shape is an expression as an automaton is laid out for it: characters in a row
are one literal, rows lie in no row and choices in no choice, a choice of single
characters is a set, and what all branches of a choice start with stands before it.
-/

namespace RouteAudit.Regex.Automaton

/-- An expression in its simplified form. A row and a choice have two members at
least, and the members of a row are neither empty nor rows. -/
inductive Shape where
  | empty
  | literal (codes : List Nat)
  /-- A set by its ranges of code points, not just one code point. -/
  | set (ranges : List (Nat × Nat))
  | look (assertion : Look)
  | repeated (greedy : Bool) (least : Nat) (most : Option Nat) (body : Shape)
  | capture (body : Shape)
  | row (items : List Shape)
  | choice (branches : List Shape)
  deriving Repr

namespace Shape

/-- The shape of a set of characters. -/
def ofRanges : List (Nat × Nat) → Shape
  | [(first, last)] => if first = last then literal [first] else set [(first, last)]
  | ranges => set ranges

/-! ## Rows -/

/-- The items of a row; any other shape is a row of its own. -/
def items : Shape → List Shape
  | empty => []
  | row items => items
  | shape => [shape]

/-- The shape of items in a row. -/
def ofItems : List Shape → Shape
  | [] => empty
  | [item] => item
  | items => row items

/-- Puts items behind an item, and one literal behind another into it. -/
def join (item : Shape) : List Shape → List Shape
  | literal more :: items =>
    match item with
    | literal codes => literal (codes ++ more) :: items
    | item => item :: literal more :: items
  | items => item :: items

/-- One shape after another. -/
def append (first second : Shape) : Shape :=
  ofItems (first.items.foldr join second.items)

/-! ## Repetitions -/

/-- Repetitions, as far as there is something to repeat. -/
def loop (greedy : Bool) (least : Nat) (most : Option Nat) (body : Shape) : Shape :=
  match least, most with
  | 0, some 0 => empty
  | 1, some 1 => body
  | least, most => repeated greedy least most body

/-! ## Choices -/

mutual

/-- Whether two shapes are the same and keep nothing, so that either may stand for both. -/
def same : Shape → Shape → Bool
  | empty, empty => true
  | literal codes, literal codes' => codes == codes'
  | set ranges, set ranges' => ranges == ranges'
  | look assertion, look assertion' => assertion == assertion'
  | repeated greedy least most body, repeated greedy' least' most' body' =>
    greedy == greedy' && least == least' && most == most' && body.same body'
  | row items, row items' => sameAll items items'
  | choice branches, choice branches' => sameAll branches branches'
  | _, _ => false

/-- Whether two lists have the same shapes in the same order. -/
def sameAll : List Shape → List Shape → Bool
  | [], [] => true
  | shape :: shapes, shape' :: shapes' => shape.same shape' && sameAll shapes shapes'
  | _, _ => false

end

mutual

/-- The number of shapes within a shape, with itself. -/
def nodes : Shape → Nat
  | repeated _ _ _ body | capture body => body.nodes + 1
  | row items => nodesOfAll items + 1
  | choice branches => nodesOfAll branches + 1
  | _ => 1

/-- The number of shapes within the shapes of a list. -/
def nodesOfAll : List Shape → Nat
  | [] => 0
  | shape :: shapes => shape.nodes + nodesOfAll shapes

end

/-- How many items two rows have in common at their starts. -/
def commonItems : List Shape → List Shape → Nat
  | item :: items, item' :: items' => if item.same item' then commonItems items items' + 1 else 0
  | _, _ => 0

/-- The branches of a choice; any other shape is a choice of its own. -/
def branches : Shape → List Shape
  | choice branches => branches
  | shape => [shape]

/-- The ranges of a shape that is a single character. -/
def charRanges? : Shape → Option (List (Nat × Nat))
  | literal [code] => some [(code, code)]
  | _ => none

/-- The ranges of a shape that is a set. -/
def setRanges? : Shape → Option (List (Nat × Nat))
  | set ranges => some ranges
  | _ => none

/-- The items of a shape that is a row. -/
def rowItems? : Shape → Option (List Shape)
  | row items => some items
  | _ => none

/-- A choice that is one set because every branch is a character or every branch is a
set. -/
def merged? (branches : List Shape) : Option Shape := do
  let ranges ← branches.mapM charRanges? <|> branches.mapM setRanges?
  return ofRanges (Unicode.RangeTable.shortest ranges.flatten).ranges

/-- What all branches start with, when they are rows, and the branches without it. -/
def factored? (branches : List Shape) : Option (List Shape × List Shape) := do
  let rows ← branches.mapM rowItems?
  let first ← rows.head?
  let common := rows.foldl (fun n items => min n (commonItems first items)) first.length
  if common = 0 then none
  else some (first.take common, rows.map fun items => ofItems (items.drop common))

/-- A choice between shapes. Taking out what all branches start with leaves branches
with fewer shapes in them, so their number bounds how often that happens. -/
def oneOf : List Shape → Shape
  | [shape] => shape
  | shapes => go (nodesOfAll shapes) shapes
where
  go : (fuel : Nat) → List Shape → Shape
    | fuel, shapes =>
      match shapes.flatMap branches with
      | [] => set []
      | [shape] => shape
      | shapes =>
        match merged? shapes with
        | some shape => shape
        | none =>
          match factored? shapes, fuel with
          | some (start, rests), fuel + 1 => (ofItems start).append (go fuel rests)
          | _, _ => choice shapes

/-! ## Expressions -/

/-- The shapes that an expression chooses from; most expressions are one of their own. -/
def alternatives : Expr → List Shape
  | .empty => [empty]
  | .set chars => [ofRanges (scalarRanges chars.table)]
  | .look assertion => [look assertion]
  | .cat first second => [(oneOf (alternatives first)).append (oneOf (alternatives second))]
  | .alt first second => oneOf (alternatives first) :: alternatives second
  | .repeated greedy least most body =>
    let (least, most) := body.bounds least most
    [loop greedy least most (oneOf (alternatives body))]
  | .group .plain body => [oneOf (alternatives body)]
  | .group _ body => [capture (oneOf (alternatives body))]

/-- The shape of an expression. -/
def ofExpr (e : Expr) : Shape := oneOf (alternatives e)

/-! ## Lengths -/

/-- Bytes of code points. -/
def byteCount (codes : List Nat) : Nat :=
  codes.foldl (fun n code => n + (encode code).length) 0

mutual

/-- The fewest bytes of a match, unless a set without members leaves that open. -/
def minLength : Shape → Option Nat
  | empty | look _ => some 0
  | literal codes => some (byteCount codes)
  | set ranges => ranges.head?.map fun range => (encode range.1).length
  | repeated _ least _ body => body.minLength.map (least * ·)
  | capture body => body.minLength
  | row items => minLengthOfRow items
  | choice branches => minLengthOfChoice branches

/-- The fewest bytes of a match of items in a row. -/
def minLengthOfRow : List Shape → Option Nat
  | [] => some 0
  | item :: items => do return (← item.minLength) + (← minLengthOfRow items)

/-- The fewest bytes of a match of one of some branches. -/
def minLengthOfChoice : List Shape → Option Nat
  | [] => none
  | [branch] => branch.minLength
  | branch :: branches => do return min (← branch.minLength) (← minLengthOfChoice branches)

end

/-- Whether every match is known to take up text. -/
def advances (shape : Shape) : Bool := shape.minLength.any (0 < ·)

end Shape

end RouteAudit.Regex.Automaton
