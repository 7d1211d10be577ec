import RouteAudit.Regex.Expr

/-! # Flags

A pattern sets flags for the rest of the enclosing group, or for one group. The
flags decide what an atom means where it stands, so that an expression needs
none. Without `unicode`, an atom that could match a lone byte beyond ASCII is
refused: texts are made of characters.
-/

namespace RouteAudit.Regex

/-- The letters that a pattern may switch on and off. -/
inductive Flag where
  | anyCase
  | multiLine
  | dotAll
  | lazyFirst
  | unicode
  | anyLineEnd
  | loose
  deriving Repr, BEq, DecidableEq

/-- The flag that a letter stands for. -/
def Flag.ofLetter? : Char → Option Flag
  | 'i' => some .anyCase
  | 'm' => some .multiLine
  | 's' => some .dotAll
  | 'U' => some .lazyFirst
  | 'u' => some .unicode
  | 'R' => some .anyLineEnd
  | 'x' => some .loose
  | _ => none

/-- The flags in force at one place of a pattern. -/
structure Flags where
  anyCase : Bool := false
  multiLine : Bool := false
  dotAll : Bool := false
  /-- A repetition is lazy unless it is marked, not the other way round. -/
  lazyFirst : Bool := false
  unicode : Bool := true
  anyLineEnd : Bool := false
  /-- Blanks and comments in the pattern do not count. -/
  loose : Bool := false
  deriving Repr, BEq, DecidableEq

namespace Flags

/-- Switches one flag on or off. -/
def switch (flags : Flags) (on : Bool) : Flag → Flags
  | .anyCase => { flags with anyCase := on }
  | .multiLine => { flags with multiLine := on }
  | .dotAll => { flags with dotAll := on }
  | .lazyFirst => { flags with lazyFirst := on }
  | .unicode => { flags with unicode := on }
  | .anyLineEnd => { flags with anyLineEnd := on }
  | .loose => { flags with loose := on }

/-- What a hyphen between flag letters does: the letters before it are switched
on and those after it off. -/
inductive Switch where
  | flag (which : Flag)
  | hyphen
  deriving Repr, BEq, DecidableEq

/-- Applies switches from left to right. -/
def apply (flags : Flags) (on : Bool) : List Switch → Flags
  | [] => flags
  | .hyphen :: rest => flags.apply false rest
  | .flag which :: rest => (flags.switch on which).apply on rest

/-- A literal character. The ASCII letters alone change case without `unicode`. -/
def literal (flags : Flags) (c : Char) : CharSet :=
  if flags.anyCase then
    if flags.unicode then .caseless c
    else if c.isAlpha then .oneOf [c.toUpper, c.toLower]
    else .single c
  else .single c

/-- The dot: any character, or any that does not end a line. -/
def dot? (flags : Flags) : Option CharSet :=
  if !flags.unicode then none
  else if flags.dotAll then some .any
  else if flags.anyLineEnd then some (.compl (.oneOf ['\r', '\n']))
  else some (.compl (.single '\n'))

/-- The caret. -/
def caret (flags : Flags) : Look :=
  if !flags.multiLine then .textStart
  else if flags.anyLineEnd then .anyLineStart else .lineStart

/-- The dollar sign. -/
def dollar (flags : Flags) : Look :=
  if !flags.multiLine then .textEnd
  else if flags.anyLineEnd then .anyLineEnd else .lineEnd

/-- ASCII blanks, the whole of the class without `unicode`. -/
def asciiBlanks : CharSet := .oneOf ['\t', '\n', '\u000B', '\u000C', '\r', ' ']

/-- ASCII word characters, the whole of the class without `unicode`. -/
def asciiWord : CharSet := .unions [.range '0' '9', .range 'A' 'Z', .single '_', .range 'a' 'z']

/-- The class that a backslash and a letter name. The upper-case letter names the
complement, which is refused without `unicode`. -/
def letterClass? (flags : Flags) (letter : Char) : Option CharSet :=
  let positive : Option CharSet :=
    match letter.toLower with
    | 'd' => some (if flags.unicode then .digit else .range '0' '9')
    | 's' => some (if flags.unicode then .blank else asciiBlanks)
    | 'w' => some (if flags.unicode then .word else asciiWord)
    | _ => none
  if letter.isUpper then
    if flags.unicode then positive.map .compl else none
  else positive

/-- Adds the other cases of the members when case does not count. -/
def fold (flags : Flags) (set : CharSet) : CharSet :=
  if flags.anyCase then
    if flags.unicode then .folded set else .foldedAscii set
  else set

/-- A class as a pattern closes it: cases are added before it is negated. -/
def close? (flags : Flags) (negated : Bool) (set : CharSet) : Option CharSet :=
  if !negated then some (flags.fold set)
  else if flags.unicode then some (.compl (flags.fold set))
  else none

end Flags

end RouteAudit.Regex
