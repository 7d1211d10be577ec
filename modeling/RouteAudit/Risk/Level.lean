import RouteAudit.Text.Blank

/-! # Risk levels

Levels are ordered, and fixed cut points send a score to its level. A level is
written as one lower-case word and read in any case with blanks around it; the
complaint about any other word quotes it as it was given.
-/

namespace RouteAudit.Risk

/-- The three levels. -/
inductive Level where
  | low
  | medium
  | high
  deriving Repr, BEq, DecidableEq

/-- A word that names no level. -/
structure InvalidThreshold where
  word : String
  deriving Repr, BEq, DecidableEq

/-- The complaint about a word that names no level. -/
def InvalidThreshold.message (error : InvalidThreshold) : String :=
  "invalid threshold '" ++ error.word ++ "': expected one of low, medium, high"

namespace Level

/-- The least score of a high risk. -/
def highCut : Nat := 5

/-- The least score of a medium risk. -/
def mediumCut : Nat := 2

/-- The level of a score. -/
def ofScore (score : Nat) : Level :=
  if score ≥ highCut then high else if score ≥ mediumCut then medium else low

/-- The level that the weight of a single rule stands for. -/
def ofWeight (weight : Nat) : Level :=
  if weight ≤ 1 then low else if weight = 2 then medium else high

/-- The place of a level in the order, from one. -/
def rank : Level → Nat
  | low => 1
  | medium => 2
  | high => 3

instance : LE Level := ⟨fun a b => a.rank ≤ b.rank⟩

theorem le_def (a b : Level) : a ≤ b ↔ a.rank ≤ b.rank := Iff.rfl

instance (a b : Level) : Decidable (a ≤ b) :=
  inferInstanceAs (Decidable (a.rank ≤ b.rank))

/-- The word for a level. -/
def word : Level → String
  | low => "low"
  | medium => "medium"
  | high => "high"

/-- The level that exactly this word writes. -/
def ofWord? (word : String) : Option Level :=
  if word = "low" then some low
  else if word = "medium" then some medium
  else if word = "high" then some high
  else none

/-- The level that a word names, in any case and with blanks around it. -/
def parse (word : String) : Except InvalidThreshold Level :=
  match ofWord? (Text.lowerAscii (Text.trim word)) with
  | some level => .ok level
  | none => .error ⟨word⟩

end Level

end RouteAudit.Risk
