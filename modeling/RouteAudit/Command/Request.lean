import RouteAudit.Command.Help
import RouteAudit.Risk.Level

/-! # Requests

What a command line asks for. Every option may be given once to each command it
belongs to, and its value is checked where it stands. Two of the options can be set
by variables instead; the command line comes first.
-/

namespace RouteAudit.Command

open Risk (Level)

/-- The form of a report. -/
inductive Format where
  | text
  | json
  deriving Repr, BEq, DecidableEq

/-- All that an analysis can be told. -/
structure AnalyzeOptions where
  patterns : List String := []
  file : Option String := none
  base : String := ""
  format : Format := .text
  ci : Bool := false
  threshold : Level := .high
  baseline : Option String := none
  saveBaseline : Option String := none
  fix : Bool := false
  output : Option String := none
  report : Option String := none
  timeoutMs : Option Nat := none
  noCache : Bool := false
  cacheDirectory : Option String := none
  deriving Repr, BEq, DecidableEq

/-- What is asked for. -/
inductive Request where
  | analyze (options : AnalyzeOptions)
  | cacheStats (json : Bool) (directory : Option String)
  | cacheClear (directory : Option String)
  | help (topic : Topic)
  | version
  deriving Repr, BEq, DecidableEq

/-- The level that a threshold names. -/
def thresholdOf? (text : String) : Option Level := (Level.parse text).toOption

/-- The form that a word names. -/
def formatOf? (text : String) : Option Format :=
  if text = "text" then some .text
  else if text = "json" then some .json
  else none

/-- Whether an option can have a value. Paths are not empty. -/
def isValid (long : String) (value : Option String) : Bool :=
  match value with
  | none => true
  | some text =>
    if long = "base" then true
    else if long = "format" then (formatOf? text).isSome
    else if long = "threshold" then (thresholdOf? text).isSome
    else if long = "timeout-ms" then (Config.count? text).isSome
    else text != ""

/-- What a command was given. -/
structure Gift where
  options : List (String × Option String) := []
  plain : List String := []
  deriving Repr, BEq, DecidableEq

namespace Gift

/-- Whether an option was given. -/
def has (gift : Gift) (long : String) : Bool := gift.options.any (·.1 == long)

/-- The value of an option. -/
def value? (gift : Gift) (long : String) : Option String := (gift.options.lookup long).join

end Gift

/-- What stops the reading of a command line. -/
inductive Stop where
  | refused
  | help (topic : Topic)
  | version
  deriving Repr, BEq, DecidableEq

/-- Takes what is given to the command of a topic, one thing after another. -/
def Gift.take (topic : Topic) (gift : Gift) : List Given → Except Stop Gift
  | [] => .ok gift
  | .fault :: _ => .error .refused
  | .plain word :: rest => take topic { gift with plain := gift.plain ++ [word] } rest
  | .option long value :: rest =>
    if long = "help" then .error (.help topic)
    else if long = "version" then .error .version
    else if gift.has long || !isValid long value then .error .refused
    else take topic { gift with options := gift.options ++ [(long, value)] } rest

/-- Reads what a command with subcommands is given: up to the name of one, and the
words behind it. -/
def readOuter (topic : Topic) (words : List String) :
    Except Stop (Gift × String × List String) := do
  let (given, rest) := read topic.known true none words
  let gift ← Gift.take topic {} given
  match gift.plain with
  | [name] => return (gift, name, rest)
  | _ => .error .refused

/-- Reads what a command without subcommands is given. -/
def readInner (topic : Topic) (words : List String) : Except Stop Gift :=
  Gift.take topic {} (read topic.known false none words).1

/-- The directory of the cache: as given, or as the variable says, which must not be
empty then. -/
def directoryOf (lookup : String → Option String) (gift : Gift) :
    Except Stop (Option String) :=
  match gift.value? "cache-dir" with
  | some directory => .ok (some directory)
  | none =>
    match lookup Config.directoryVariable with
    | some "" => .error .refused
    | directory => .ok directory

/-- Whether the cache stays in memory: as given, or as the variable says, which must
be one of two words then. -/
def noCacheOf (lookup : String → Option String) (gift : Gift) : Except Stop Bool :=
  if gift.has "no-cache" then .ok true
  else
    match lookup Config.memoryVariable with
    | none => .ok false
    | some text =>
      if text = "true" then .ok true
      else if text = "false" then .ok false
      else .error .refused

/-- Reads what an analysis is told. -/
def readAnalyze (lookup : String → Option String) (words : List String) :
    Except Stop Request := do
  let gift ← readInner .analyze words
  let noCache ← noCacheOf lookup gift
  let cacheDirectory ← directoryOf lookup gift
  return .analyze {
    patterns := gift.plain
    file := gift.value? "file"
    base := (gift.value? "base").getD ""
    format := ((gift.value? "format").bind formatOf?).getD .text
    ci := gift.has "ci"
    threshold := ((gift.value? "threshold").bind thresholdOf?).getD .high
    baseline := gift.value? "baseline"
    saveBaseline := gift.value? "save-baseline"
    fix := gift.has "fix"
    output := gift.value? "output"
    report := gift.value? "report"
    timeoutMs := (gift.value? "timeout-ms").bind Config.count?
    noCache
    cacheDirectory }

/-- Reads the name of a command that help is asked for. -/
def readHelp (commands : List (List String × Topic)) (words : List String) :
    Except Stop Request :=
  match commands.lookup words with
  | some topic => .ok (.help topic)
  | none => .error .refused

/-- Reads what is asked of the cache. The directory may stand on either side of the
action; the inner one comes first. -/
def readCache (lookup : String → Option String) (words : List String) :
    Except Stop Request := do
  let (outer, action, rest) ← readOuter .cache words
  if action = "stats" ∨ action = "clear" then
    let inner ← readInner (if action = "stats" then .cacheStats else .cacheClear) rest
    if !inner.plain.isEmpty then .error .refused
    else
      let fallback ← directoryOf lookup inner
      let outerDirectory ← directoryOf lookup outer
      let directory :=
        if inner.has "cache-dir" then fallback
        else if outer.has "cache-dir" then outerDirectory
        else fallback
      return if action = "stats" then .cacheStats (inner.has "json") directory
        else .cacheClear directory
  else if action = "help" then
    readHelp [([], .cache), (["stats"], .cacheStats), (["clear"], .cacheClear),
      (["help"], .cacheHelp)] rest
  else .error .refused

/-- Reads a whole command line. -/
def readRequest (lookup : String → Option String) (words : List String) :
    Except Stop Request := do
  let (_, command, rest) ← readOuter .program words
  if command = "analyze" then readAnalyze lookup rest
  else if command = "cache" then readCache lookup rest
  else if command = "help" then
    readHelp [([], .program), (["analyze"], .analyze), (["cache"], .cache),
      (["cache", "stats"], .cacheStats), (["cache", "clear"], .cacheClear),
      (["cache", "help"], .cacheHelp), (["help"], .help)] rest
  else .error .refused

/-- The request of a command line, unless it is refused. -/
def Request.parse? (lookup : String → Option String) (words : List String) : Option Request :=
  match readRequest lookup words with
  | .ok request => some request
  | .error (.help topic) => some (.help topic)
  | .error .version => some .version
  | .error .refused => none

end RouteAudit.Command
