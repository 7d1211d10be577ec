import RouteAudit.Command.Words
import RouteAudit.Config

/-! # Help

What the program says about its commands and their options. Every command has a page
of its own. The options of a page stand beside what they are for, unless that makes
the lines too long; then they stand above it.
-/

namespace RouteAudit.Command

/-- What is told of an option beyond what it is for. -/
inductive Note where
  /-- The variable that the option can be set by, shown with its value. -/
  | variableName (name : String)
  | fallback (value : String)
  | choices (values : List String)
  deriving Repr, BEq, DecidableEq

/-- The note as it is shown. -/
def Note.text (lookup : String → Option String) : Note → String
  | variableName name => "[env: " ++ name ++ "=" ++ (lookup name).getD "" ++ "]"
  | fallback value => "[default: " ++ value ++ "]"
  | choices values => "[possible values: " ++ ", ".intercalate values ++ "]"

/-- An option with what it is for. -/
structure OptionHelp where
  name : OptionName
  text : String
  notes : List Note := []
  deriving Repr, BEq, DecidableEq

namespace OptionHelp

/-- The option as it is written, with a name for its value. -/
def term (option : OptionHelp) : String :=
  (match option.name.letter with
    | some letter => "-" ++ letter.toString ++ ", --"
    | none => "    --") ++
  option.name.long ++
  (if option.name.takesValue then
    " <" ++ String.ofList (option.name.long.toList.map fun c => if c = '-' then '_' else c.toUpper)
      ++ ">"
  else "")

/-- What the option is for, with all notes. -/
def description (lookup : String → Option String) (option : OptionHelp) : String :=
  " ".intercalate (option.text :: option.notes.map (·.text lookup))

end OptionHelp

/-- A page of help. -/
structure Page where
  about : String
  usage : String
  commands : List (String × String) := []
  arguments : List (String × String) := []
  options : List OptionHelp := []
  deriving Repr, BEq, DecidableEq

namespace Page

/-- How long a line should be at most. -/
def lineWidth : Nat := 100

/-- How wide the widest of some terms is. -/
def termWidth (entries : List (String × String)) : Nat :=
  (entries.map (·.1.length)).foldl max 0

/-- Whether terms and descriptions have no room beside each other: the terms take more
than two fifths of a line, and a description does not fit into what they leave. -/
def isCrowded (entries : List (String × String)) : Bool :=
  let taken := termWidth entries + 12
  2 * lineWidth < 5 * taken && entries.any fun entry => lineWidth < entry.2.length + taken

/-- An entry with the description beside the term. -/
def beside (width : Nat) (entry : String × String) : String :=
  "  " ++ entry.1 ++ String.ofList (List.replicate (width - entry.1.length) ' ') ++ "  " ++ entry.2

/-- An entry with the description under the term. -/
def under (entry : String × String) : String :=
  "  " ++ entry.1 ++ "\n          " ++ entry.2

/-- A section of a page; there is none without entries. -/
def sectionText (heading : String) (entries : List (String × String)) : String :=
  if entries.isEmpty then ""
  else
    let line := if isCrowded entries then under else beside (termWidth entries)
    "\n" ++ heading ++ ":\n" ++ String.join (entries.map fun entry => line entry ++ "\n")

/-- The page as text. -/
def text (lookup : String → Option String) (page : Page) : String :=
  page.about ++ "\n\nUsage: " ++ page.usage ++ "\n" ++
  sectionText "Commands" page.commands ++
  sectionText "Arguments" page.arguments ++
  sectionText "Options" (page.options.map fun option => (option.term, option.description lookup))

end Page

/-! ## Options -/

/-- More is told about the run. -/
def verboseOption : OptionHelp := ⟨⟨"verbose", some 'v', false⟩, "Enable verbose output", []⟩

/-- What is told has a form for programs. -/
def jsonLogsOption : OptionHelp := ⟨⟨"json-logs", none, false⟩, "Emit JSON-formatted log lines", []⟩

/-- The page of the command is asked for. -/
def helpOption : OptionHelp := ⟨⟨"help", some 'h', false⟩, "Print help", []⟩

/-- The version is asked for. -/
def versionOption : OptionHelp := ⟨⟨"version", some 'V', false⟩, "Print version", []⟩

/-- The directory of the cache. -/
def directoryOption : OptionHelp :=
  ⟨⟨"cache-dir", none, true⟩, "Cache directory (default: platform cache dir)",
    [.variableName Config.directoryVariable]⟩

/-- The options of an analysis. -/
def analyzeOptions : List OptionHelp := [
  ⟨⟨"file", some 'f', true⟩,
    "Newline-delimited pattern file (`#` and `//` lines are comments)", []⟩,
  verboseOption,
  ⟨⟨"base", some 'b', true⟩, "Base URL relative patterns are joined onto", [.fallback ""]⟩,
  jsonLogsOption,
  ⟨⟨"format", none, true⟩, "Report format on stdout",
    [.fallback "text", .choices ["text", "json"]]⟩,
  ⟨⟨"ci", none, false⟩, "Exit non-zero when the gate or baseline check fails", []⟩,
  ⟨⟨"threshold", none, true⟩, "Lowest level that violates the gate", [.fallback "high"]⟩,
  ⟨⟨"baseline", none, true⟩, "Baseline snapshot to compare against", []⟩,
  ⟨⟨"save-baseline", none, true⟩, "Write the current snapshot as a new baseline", []⟩,
  ⟨⟨"fix", none, false⟩, "Write remediated patterns", []⟩,
  ⟨⟨"output", some 'o', true⟩, "Remediated output path (default: <file>.fixed.txt, or stdout)",
    []⟩,
  ⟨⟨"report", none, true⟩, "Also write the full JSON report here", []⟩,
  ⟨⟨"timeout-ms", none, true⟩, "Bound the wait on each compile (milliseconds)", []⟩,
  ⟨⟨"no-cache", none, false⟩, "Keep the compile cache in memory only",
    [.variableName Config.memoryVariable]⟩,
  directoryOption,
  helpOption]

/-- The options of the commands on the cache. -/
def cacheOptions : List OptionHelp := [directoryOption, verboseOption, jsonLogsOption, helpOption]

/-- The options of the overview of a cache. -/
def statsOptions : List OptionHelp := [
  directoryOption, ⟨⟨"json", none, false⟩, "Print as JSON", []⟩, verboseOption, jsonLogsOption,
  helpOption]

/-- The options of the program itself. -/
def programOptions : List OptionHelp := [verboseOption, jsonLogsOption, helpOption, versionOption]

/-! ## Pages -/

/-- What help can be asked for. -/
inductive Topic where
  | program
  | analyze
  | cache
  | cacheStats
  | cacheClear
  /-- The command that asks for help. -/
  | help
  | cacheHelp
  deriving Repr, BEq, DecidableEq

namespace Topic

/-- What the command that asks for help is for. -/
def aboutHelp : String := "Print this message or the help of the given subcommand(s)"

/-- What an analysis is for. -/
def aboutAnalyze : String := "Score route patterns for security risk"

/-- What the commands on the cache are for. -/
def aboutCache : String := "Inspect or reset the persistent compile cache"

/-- What the overview of a cache is for. -/
def aboutStats : String := "Show manifest size and entry ages"

/-- What emptying a cache is for. -/
def aboutClear : String := "Remove every manifest entry"

/-- The page of a command that asks for help. -/
def helpPage (usage : String) : Page where
  about := aboutHelp
  usage
  arguments := [("[COMMAND]...", "Print help for the subcommand(s)")]

/-- The page on a topic. -/
def page : Topic → Page
  | program => {
      about := "Route pattern risk analysis and CI gating"
      usage := "routeguard [OPTIONS] <COMMAND>"
      commands := [("analyze", aboutAnalyze), ("cache", aboutCache), ("help", aboutHelp)]
      options := programOptions }
  | analyze => {
      about := aboutAnalyze
      usage := "routeguard analyze [OPTIONS] [PATTERNS]..."
      arguments := [("[PATTERNS]...", "Patterns to analyze (in addition to --file)")]
      options := analyzeOptions }
  | cache => {
      about := aboutCache
      usage := "routeguard cache [OPTIONS] <COMMAND>"
      commands := [("stats", aboutStats), ("clear", aboutClear), ("help", aboutHelp)]
      options := cacheOptions }
  | cacheStats => {
      about := aboutStats
      usage := "routeguard cache stats [OPTIONS]"
      options := statsOptions }
  | cacheClear => {
      about := aboutClear
      usage := "routeguard cache clear [OPTIONS]"
      options := cacheOptions }
  | help => helpPage "routeguard help [COMMAND]..."
  | cacheHelp => helpPage "routeguard cache help [COMMAND]..."

/-- The options that may be given where the page says so. -/
def known (topic : Topic) : List OptionName := topic.page.options.map (·.name)

/-- The page on a topic as text. -/
def text (lookup : String → Option String) (topic : Topic) : String :=
  topic.page.text lookup

end Topic

end RouteAudit.Command
