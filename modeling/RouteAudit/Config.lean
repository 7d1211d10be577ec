import RouteAudit.Storage.Path
import RouteAudit.Text.Blank

/-! # Configuration

Where the record of earlier compilations is kept, how large it may grow, and how
often it is written. The settings come from named variables; a variable that is
blank counts as not set, and a count that is no number leaves the default.
-/

namespace RouteAudit

/-- The settings of the record of compilations. -/
structure Config where
  cacheDirectory : String := ".routeguard-cache"
  maxEntries : Nat := 10000
  /-- How many new entries make it write itself; zero for never. -/
  flushEvery : Nat := 50
  /-- Whether anything is written at all. -/
  persist : Bool := true
  deriving Repr, BEq, DecidableEq

namespace Config

/-- The variable that names the directory. -/
def directoryVariable : String := "ROUTEGUARD_CACHE_DIR"

/-- The variable that keeps the cache in memory. -/
def memoryVariable : String := "ROUTEGUARD_NO_CACHE"

/-- The names of all variables that matter. -/
def variableNames : List String :=
  [directoryVariable, "XDG_CACHE_HOME", "HOME", "ROUTEGUARD_CACHE_MAX_ENTRIES",
    "ROUTEGUARD_CACHE_FLUSH_EVERY", memoryVariable]

/-- The number that a text writes, within 64 bits: digits with at most a plus before
them. -/
def count? (text : String) : Option Nat :=
  let digits := match text.toList with
    | '+' :: digits => digits
    | digits => digits
  if digits.isEmpty || !digits.all Char.isDigit then none
  else
    let n := digits.foldl (fun n d => 10 * n + (d.toNat - '0'.toNat)) 0
    if n < UInt64.size then some n else none

/-- Whether a value switches something on. -/
def isOn (value : String) : Bool :=
  ["1", "true", "yes"].contains (Text.lowerAscii (Text.trim value))

/-- The settings that variables give. -/
def ofVariables (lookup : String → Option String) : Config :=
  let value (name : String) : Option String :=
    (lookup name).filter fun text => !Text.isBlankText text
  let count (name : String) (fallback : Nat) : Nat :=
    ((value name).bind fun text => count? (Text.trim text)).getD fallback
  let defaults : Config := {}
  { cacheDirectory :=
      (value directoryVariable
        <|> (value "XDG_CACHE_HOME").map (Storage.inside · "routeguard")
        <|> (value "HOME").map fun home =>
          Storage.inside (Storage.inside home ".cache") "routeguard").getD defaults.cacheDirectory
    maxEntries := count "ROUTEGUARD_CACHE_MAX_ENTRIES" defaults.maxEntries
    flushEvery := count "ROUTEGUARD_CACHE_FLUSH_EVERY" defaults.flushEvery
    persist := !(value memoryVariable).any isOn }

end Config

end RouteAudit
