import RouteAudit.Analysis.Run
import RouteAudit.Command.Request
import RouteAudit.Gate.BaselineFile
import RouteAudit.Pattern.ListFile
import RouteAudit.Remedy.Listing
import RouteAudit.Report.Text
import RouteAudit.Store.Overview
import RouteAudit.Text.Quoted

/-! # Running a request

A run is a function of what it finds: the variables, the files, the time, and a name
for itself. It answers with an exit code, what it prints, an error if it had to give
up, and the files as it leaves them. What was printed and written before an error
stays.
-/

namespace RouteAudit.Command

open Storage (Files)

/-- The version of the program. -/
def programVersion : String := "0.4.0"

/-- What a run finds. -/
structure World where
  setting : String → Option String := fun _ => none
  files : Files := {}
  /-- Milliseconds since 1970. -/
  epochMs : Nat := 0
  runId : String := ""

/-- What a run leaves behind. -/
structure Result where
  code : UInt32
  out : String
  error : Option String
  files : Files

/-- What a run has printed and written so far. -/
structure Desk where
  out : String := ""
  files : Files

/-- Work that prints, writes, and may give up with an error. -/
abbrev Work := ExceptT String (StateM Desk)

/-- Prints a text. -/
def say (text : String) : Work Unit :=
  modify fun desk => { desk with out := desk.out ++ text }

/-- Writes a file, or gives up. -/
def writeFile (path content : String) : Work Unit := do
  match (← get).files.write (.ofText path) content.toUTF8 with
  | some files => modify fun desk => { desk with files }
  | none => throw ("write " ++ Text.quoted path)

/-- The patterns to analyze: those of the command line and those of the file. -/
def collectPatterns (options : AnalyzeOptions) : Work (List String) := do
  let fromFile ← match options.file with
    | none => pure []
    | some path =>
      match Pattern.loadList (← get).files path with
      | .ok patterns => pure patterns
      | .error _ => throw "Failed to load pattern file"
  let patterns := options.patterns ++ fromFile
  if patterns.isEmpty then throw "no patterns given: pass them as arguments or with --file"
  return patterns

/-- The settings, where the directory may be named otherwise. -/
def configOf (world : World) (directory : Option String) : Config :=
  let config := Config.ofVariables world.setting
  { config with cacheDirectory := directory.getD config.cacheDirectory }

/-- The limits of the store. -/
def storeOptions (config : Config) : StoreOptions := ⟨config.maxEntries, config.flushEvery⟩

/-- The paths of all files that a request may read or write. -/
def pathsOf (setting : String → Option String) (request : Request) : List String :=
  let store (directory : Option String) : String :=
    Storage.inside (configOf { setting } directory).cacheDirectory Store.fileName
  match request with
  | .analyze options =>
    store options.cacheDirectory :: [options.file, options.baseline, options.saveBaseline,
      options.output, options.file.map Remedy.defaultPath, options.report].filterMap id
  | .cacheStats _ directory => [store directory]
  | .cacheClear directory => [store directory]
  | .help _ => []
  | .version => []

/-- A cache with a store as the settings say. -/
def openSession (engine : Cache.Engine) (config : Config) (files : Files) : Cache.Session :=
  if config.persist then
    let site := Store.Site.ofFiles files config.cacheDirectory
    { site
      cache := { store := some (.openAt site (storeOptions config) (.ofNat engine.epochMs)) } }
  else {}

/-- Puts on the desk what a store has written. -/
def keepSite (config : Config) (site : Store.Site) : Work Unit :=
  if config.persist then
    modify fun desk => { desk with files := site.toFiles desk.files config.cacheDirectory }
  else pure ()

/-- What the gate says, with the baseline if one is named; and keeps the new baseline
if a place for it is named. -/
def gateOutcome (options : AnalyzeOptions) (assessments : List Risk.Assessment) :
    Work Gate.Outcome := do
  let current := Gate.Snapshot.ofAssessments assessments options.threshold
  let verdict := Gate.evaluate assessments options.threshold
  let outcome : Gate.Outcome ← match options.baseline with
    | none => pure { verdict }
    | some path =>
      match Gate.Snapshot.load (← get).files path with
      | .ok baseline => pure { verdict, comparison := some (Gate.compare current baseline) }
      | .error error => pure { verdict, baselineError := some error.message }
  if let some path := options.saveBaseline then
    let (files, fault) := current.save (← get).files path
    modify fun desk => { desk with files }
    if fault.isSome then throw ("Failed to write baseline " ++ Text.quoted path)
  return outcome

/-- Where remediated patterns are written. -/
def fixedPath? (options : AnalyzeOptions) : Option String :=
  options.output <|> options.file.map Remedy.defaultPath

/-- Remediates the patterns, and writes or prints the listing. -/
def remediation (options : AnalyzeOptions) (patterns : List String) :
    Work (List Remedy.Result) := do
  let results := Remedy.remediateAll patterns
  match fixedPath? options with
  | some path => writeFile path (Remedy.listing results)
  | none => if options.format = .text then say (Remedy.listing results)
  return results

/-- The instant of a time of day. -/
def instantOf (epochMs : Nat) : Time.Instant :=
  ⟨epochMs / 1000, epochMs % 1000 * 1000000⟩

/-- Analyzes patterns, and answers with the exit code. -/
def runAnalyze (world : World) (options : AnalyzeOptions) : Work UInt32 := do
  let patterns ← collectPatterns options
  let config := configOf world options.cacheDirectory
  let config := if options.noCache then { config with persist := false } else config
  let engine : Cache.Engine := { epochMs := world.epochMs }
  let session := openSession engine config (← get).files
  let (analysis, session) :=
    session.analyze engine world.runId options.base patterns options.timeoutMs
  keepSite config session.site
  let gating := options.ci || options.baseline.isSome || options.saveBaseline.isSome
  let gate ← if gating then some <$> gateOutcome options analysis.assessments else pure none
  let results ← if options.fix then remediation options patterns else pure []
  let report : Report.Run :=
    { generatedAt := instantOf world.epochMs, analysis, gate, remediation := results }
  if let some path := options.report then writeFile path report.toJson.pretty
  match options.format with
  | .text => say report.text
  | .json => say (report.toJson.pretty ++ "\n")
  if let some graceMs := options.timeoutMs then
    let (_, session) := session.settleLate engine options.base analysis.timedOut graceMs
    keepSite config session.site
  return match gate, options.ci with
    | some outcome, true => outcome.exitCode
    | _, _ => 0

/-- The overview of a store as lines. -/
def overviewText (overview : Store.Overview) : String :=
  "Cache: " ++ overview.path ++ "\n" ++
  "  entries:      " ++ toString overview.entries ++ "\n" ++
  "  approx size:  " ++ toString overview.approxBytes ++ " bytes\n" ++
  match overview.oldestAgeMs, overview.newestAgeMs with
  | some oldest, some newest =>
    "  oldest entry: " ++ toString (oldest.toInt / 1000) ++ "s ago\n" ++
    "  newest entry: " ++ toString (newest.toInt / 1000) ++ "s ago\n"
  | _, _ => "  (empty)\n"

/-- Shows the store. -/
def runStats (world : World) (json : Bool) (directory : Option String) : Work Unit := do
  let config := configOf world directory
  let site := Store.Site.ofFiles (← get).files config.cacheDirectory
  let now := Int64.ofNat world.epochMs
  let overview := (Store.openAt site (storeOptions config) now).overview config.cacheDirectory now
  say (if json then overview.toJson.pretty ++ "\n" else overviewText overview)

/-- Empties the store. -/
def runClear (world : World) (directory : Option String) : Work Unit := do
  let config := configOf world directory
  let site := Store.Site.ofFiles (← get).files config.cacheDirectory
  let now := Int64.ofNat world.epochMs
  let done := (Store.openAt site (storeOptions config) now).clear site now
  keepSite { config with persist := true } done.site
  say (Json.compact (.record [
    ("path", .string (Storage.inside config.cacheDirectory Store.fileName)),
    ("cleared", .nat done.answer)]) ++ "\n")

/-- The work that a request asks for, with its exit code. -/
def work (world : World) : Request → Work UInt32
  | .analyze options => runAnalyze world options
  | .cacheStats json directory => do runStats world json directory; return 0
  | .cacheClear directory => do runClear world directory; return 0
  | .help topic => do say (topic.text world.setting); return 0
  | .version => do say ("routeguard " ++ programVersion ++ "\n"); return 0

/-- Runs a command line. One that is refused has the exit code two. -/
def run (world : World) (words : List String) : Result :=
  match Request.parse? world.setting words with
  | none => ⟨2, "", none, world.files⟩
  | some request =>
    match (work world request).run.run { files := world.files } with
    | (.ok code, desk) => ⟨code, desk.out, none, desk.files⟩
    | (.error error, desk) => ⟨1, desk.out, some error, desk.files⟩

end RouteAudit.Command
