/-! # Lines of a text

A line ends at a line feed, which is not part of it, and one carriage return
right before that line feed is dropped with it. Text after the last line feed
is a line of its own when it is not empty; there, a final carriage return stays.
-/

namespace RouteAudit.Text

/-- Drops one carriage return that ends the line. The line is held last
character first. -/
def withoutReturn : List Char → List Char
  | '\r' :: cs => cs
  | cs => cs

/-- The lines of the remaining characters, given the characters of the current
line, last one first. -/
def linesFrom (current : List Char) : List Char → List (List Char)
  | [] => if current.isEmpty then [] else [current.reverse]
  | '\n' :: cs => (withoutReturn current).reverse :: linesFrom [] cs
  | c :: cs => linesFrom (c :: current) cs

/-- The lines of a text, in order. -/
def lines (cs : List Char) : List (List Char) :=
  linesFrom [] cs

end RouteAudit.Text
