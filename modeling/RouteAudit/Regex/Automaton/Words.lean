import RouteAudit.Regex.Automaton.Tally

/-! # The states of a choice of words

Words to choose from share the beginnings that they have in common. The state of a
beginning forks to the bytes that may follow it and, where a word ends, to the end
of all of them; the words preferred to one that ends there are kept apart from
those that come after it.
-/

namespace RouteAudit.Regex.Automaton

/-- A word, or what is left of it, as bytes. -/
abbrev Word := List Nat

namespace Word

/-- The words behind their first bytes, for each first byte. -/
def byFirst (words : List Word) : List (Nat × List Word) :=
  words.foldl (fun groups word =>
    match word with
    | [] => groups
    | first :: rest =>
      if groups.any (·.1 == first) then
        groups.map fun (byte, rests) => (byte, if byte = first then rests ++ [rest] else rests)
      else groups ++ [(first, [rest])]) []

/-- The words in stretches between those that are at their end. -/
def stretches : List Word → List (List Word)
  | [] => [[]]
  | [] :: words => [] :: stretches words
  | word :: words =>
    match stretches words with
    | [] => [[word]]
    | stretch :: rest => (word :: stretch) :: rest

/-- Words that are at their end before any other word count as one. -/
def mergeEnds : List Word → List Word
  | [] :: words => [] :: words.dropWhile List.isEmpty
  | words => words

end Word

/-- The tally with the states of some beginnings, each given by what is left of its
words, and of all that go on from them. Where nothing is left of any word, there is
no state. -/
def Tally.withBeginnings : (fuel : Nat) → List (List Word) → Tally → Tally
  | 0, _, tally | _, [], tally => tally
  | fuel + 1, words :: agenda, tally =>
    if words.all List.isEmpty then tally.withBeginnings fuel agenda
    else
      let stretches := Word.stretches (Word.mergeEnds words)
      let choices := (stretches.filter (!·.isEmpty)).map Word.byFirst
      let tally := choices.foldl (fun tally choice =>
        if choice.length = 1 then tally.withStates 1 else tally.withChoices choice.length) tally
      let tally := (tally.withStates 1).withBranches (choices.length + (stretches.length - 1))
      tally.withBeginnings fuel (choices.flatMap (·.map (·.2)) ++ agenda)

/-- The tally with the states of a choice of words and the one where they all end.
There are not more beginnings than bytes, but for the empty one. -/
def Tally.withWords (tally : Tally) (words : List Word) : Tally :=
  (tally.withStates 1).withBeginnings (words.foldl (· + ·.length) 1) [words]

end RouteAudit.Regex.Automaton
