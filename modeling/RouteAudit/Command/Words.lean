/-! # The words of a command line

A command line is a list of words. A word that starts with two hyphens is an option
by its long name, with its value behind an equals sign or in the next word. A word
with one hyphen is a row of options by their letters, where the first one that takes
a value has the rest of the word for it, or the next word. A lone hyphen and all
other words are plain, and so is everything behind a lone double hyphen.

No value in a word of its own starts with a hyphen, so a forgotten value does not
swallow the option behind it.
-/

namespace RouteAudit.Command

/-- An option that a command knows. -/
structure OptionName where
  long : String
  letter : Option Char := none
  takesValue : Bool := false
  deriving Repr, BEq, DecidableEq

/-- One thing that a command line gives. -/
inductive Given where
  | option (long : String) (value : Option String)
  | plain (word : String)
  /-- Nothing that the command knows; what stands behind it does not matter. -/
  | fault
  deriving Repr, BEq, DecidableEq

/-- Whether a word stands for options. -/
def isOptionWord (word : String) : Bool :=
  match word.toList with
  | '-' :: _ :: _ => true
  | _ => false

/-- The name and the value of a long option as written. -/
def nameAndValue (cs : List Char) : String × Option String :=
  match cs.span (· != '=') with
  | (name, []) => (String.ofList name, none)
  | (name, _ :: value) => (String.ofList name, some (String.ofList value))

/-- What a row of letters gives, and the option that still needs its value. -/
def readLetters (known : List OptionName) : List Char → List Given × Option String
  | [] => ([], none)
  | c :: cs =>
    match known.find? (·.letter == some c) with
    | none => ([.fault], none)
    | some option =>
      if !option.takesValue then
        let (rest, waiting) := readLetters known cs
        (.option option.long none :: rest, waiting)
      else
        match cs with
        | [] => ([], some option.long)
        | '=' :: value => ([.option option.long (some (String.ofList value))], none)
        | value => ([.option option.long (some (String.ofList value))], none)

/-- What a long option gives, and whether it still needs its value. -/
def readLong (known : List OptionName) (cs : List Char) : List Given × Option String :=
  let (name, value) := nameAndValue cs
  match known.find? (·.long == name) with
  | none => ([.fault], none)
  | some option =>
    match option.takesValue, value with
    | true, none => ([], some option.long)
    | true, some value => ([.option option.long (some value)], none)
    | false, none => ([.option option.long none], none)
    | false, some _ => ([.fault], none)

/-- What words give to a command, and the words that are left. A command with
subcommands reads up to the first plain word, which names one. The second argument
but one is an option that needs the next word for its value. -/
def read (known : List OptionName) (hasSubcommands : Bool) (needsValue : Option String) :
    List String → List Given × List String
  | [] => (if needsValue.isSome then [.fault] else [], [])
  | word :: words =>
    match needsValue with
    | some long =>
      if isOptionWord word then ([.fault], [])
      else
        let (rest, left) := read known hasSubcommands none words
        (.option long (some word) :: rest, left)
    | none =>
      match word.toList with
      -- The name of a subcommand cannot stand behind a lone double hyphen.
      | ['-', '-'] => (if hasSubcommands then [.fault] else words.map .plain, [])
      | '-' :: '-' :: cs =>
        let (first, waiting) := readLong known cs
        let (rest, left) := read known hasSubcommands waiting words
        (first ++ rest, left)
      | '-' :: c :: cs =>
        let (first, waiting) := readLetters known (c :: cs)
        let (rest, left) := read known hasSubcommands waiting words
        (first ++ rest, left)
      | _ =>
        if hasSubcommands then ([.plain word], words)
        else
          let (rest, left) := read known hasSubcommands none words
          (.plain word :: rest, left)

end RouteAudit.Command
