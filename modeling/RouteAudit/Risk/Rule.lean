import RouteAudit.Pattern.Facts
import RouteAudit.Risk.Groups
import RouteAudit.Risk.Level
import RouteAudit.Risk.Marker

/-! # The table of risk rules

Each rule looks at the text of a pattern or at its facts, and each one that fires
adds its weight to the score. All rules are asked, in the order of the table;
none depends on another.
-/

namespace RouteAudit.Risk

open RouteAudit.Regex (Searcher)

/-- What kind of weakness a rule looks for. -/
inductive Category where
  | injectedInput
  | pathTraversal
  | openRedirect
  | ssrf
  | redos
  | wildcard
  | credential
  | xss
  | sqlInjection
  | commandInjection
  deriving Repr, BEq, DecidableEq

namespace Category

/-- Every category. -/
def all : List Category :=
  [injectedInput, pathTraversal, openRedirect, ssrf, redos, wildcard, credential, xss,
    sqlInjection, commandInjection]

/-- The word for a category in reports and files. -/
def word : Category → String
  | injectedInput => "injected-input"
  | pathTraversal => "path-traversal"
  | openRedirect => "open-redirect"
  | ssrf => "ssrf"
  | redos => "redos"
  | wildcard => "wildcard"
  | credential => "credential"
  | xss => "xss"
  | sqlInjection => "sql-injection"
  | commandInjection => "command-injection"

/-- The category that a word names. -/
def ofWord? (word : String) : Option Category :=
  all.find? (·.word == word)

/-- The name of a category where a rule is shown in full. -/
def title : Category → String
  | injectedInput => "InjectedInput"
  | pathTraversal => "PathTraversal"
  | openRedirect => "OpenRedirect"
  | ssrf => "Ssrf"
  | redos => "Redos"
  | wildcard => "Wildcard"
  | credential => "Credential"
  | xss => "Xss"
  | sqlInjection => "SqlInjection"
  | commandInjection => "CommandInjection"

end Category

/-- What makes a rule fire. -/
inductive Check where
  /-- The marker occurs in the pattern. -/
  | marker (regex : Searcher)
  /-- The marker occurs in the pattern once its closed groups are emptied. -/
  | markerOutsideGroups (regex : Searcher)
  /-- The pattern opens a group and the marker occurs. -/
  | markerWithGroups (regex : Searcher)
  /-- The pattern has at least so many wildcards. -/
  | wildcards (least : Nat)

/-- Whether a check succeeds for a pattern with given facts. -/
def Check.holds (pattern : String) (facts : Facts) : Check → Bool
  | marker regex => regex.isMatch pattern.toList
  | markerOutsideGroups regex => regex.isMatch (emptyOutside pattern.toList)
  | markerWithGroups regex => facts.hasGroups && regex.isMatch pattern.toList
  | wildcards least => facts.wildcards ≥ least

/-- One rule of the table. -/
structure Rule where
  id : String
  category : Category
  weight : Nat
  message : String
  check : Check

namespace Rule

/-- How grave a finding of the rule is. -/
def severity (rule : Rule) : Level := .ofWeight rule.weight

/-- Whether the rule fires. -/
def fires (rule : Rule) (pattern : String) (facts : Facts) : Bool :=
  rule.check.holds pattern facts

/-- The rule shown in full, for people who debug the table. -/
def debugText (rule : Rule) : String :=
  "RiskRule \x7b id: \"" ++ rule.id ++ "\", category: " ++ rule.category.title ++
    ", weight: " ++ toString rule.weight ++ " \x7d"

/-- The pattern opens an interpolation of some template language. -/
def injectedInput : Rule where
  id := "injected-input"
  category := .injectedInput
  weight := 2
  message := "template interpolation marker in pattern"
  check := .marker (.ofExpr Marker.interpolation)

/-- A segment of the pattern is two dots. -/
def pathTraversal : Rule where
  id := "path-traversal"
  category := .pathTraversal
  weight := 3
  message := "path traversal sequence"
  check := .marker (.ofExpr Marker.traversal)

/-- The request says where a redirection goes. -/
def openRedirect : Rule where
  id := "open-redirect"
  category := .openRedirect
  weight := 2
  message := "redirect target taken from the request"
  check := .marker (.ofExpr Marker.openRedirect)

/-- The host is one that only the inside should reach. -/
def ssrfInternalHost : Rule where
  id := "ssrf-internal-host"
  category := .ssrf
  weight := 3
  message := "internal or metadata hostname"
  check := .marker (.ofExpr Marker.internalHost)

/-- The request says which host is asked. -/
def ssrfDynamicHost : Rule where
  id := "ssrf-dynamic-host"
  category := .ssrf
  weight := 2
  message := "hostname built from a parameter or wildcard"
  check := .marker (.ofExpr Marker.dynamicHost)

/-- A group repeats something that repeats or branches inside. -/
def redosQuantifier : Rule where
  id := "redos-quantifier"
  category := .redos
  weight := 3
  message := "nested or overlapping quantifier in regex group"
  check := .markerWithGroups (.ofExpr Marker.nestedQuantifier)

/-- There is a wildcard. -/
def wildcardDanger : Rule where
  id := "wildcard-danger"
  category := .wildcard
  weight := 2
  message := "greedy wildcard matches arbitrary path depth"
  check := .wildcards 1

/-- There are at least three wildcards. -/
def wildcardExcessive : Rule where
  id := "wildcard-excessive"
  category := .wildcard
  weight := 2
  message := "too many wildcards"
  check := .wildcards 3

/-- The first segment is a wildcard. -/
def wildcardLeading : Rule where
  id := "wildcard-leading"
  category := .wildcard
  weight := 1
  message := "pattern starts with a wildcard"
  check := .marker (.ofExpr Marker.leadingWildcard)

/-- A segment is named like a credential. -/
def credentialSegment : Rule where
  id := "credential-segment"
  category := .credential
  weight := 2
  message := "credential-named segment exposes secrets in URLs"
  check := .marker (.ofExpr Marker.credentialName)

/-- A user stands before the host. -/
def basicAuth : Rule where
  id := "basic-auth"
  category := .credential
  weight := 3
  message := "embedded userinfo credentials"
  check := .marker (.ofExpr Marker.userInfo)

/-- There is the start of a script. -/
def xssMarker : Rule where
  id := "xss-marker"
  category := .xss
  weight := 3
  message := "script injection marker"
  check := .marker (.ofExpr Marker.script)

/-- There is a fragment of a query. -/
def sqlInjection : Rule where
  id := "sql-injection"
  category := .sqlInjection
  weight := 3
  message := "SQL injection marker"
  check := .marker (.ofExpr Marker.query)

/-- A shell character stands outside of all closed groups. -/
def commandInjection : Rule where
  id := "command-injection"
  category := .commandInjection
  weight := 3
  message := "shell metacharacter outside regex groups"
  check := .markerOutsideGroups (.ofExpr Marker.shell)

/-- The rules in the order in which findings are reported. -/
def table : List Rule :=
  [injectedInput, pathTraversal, openRedirect, ssrfInternalHost, ssrfDynamicHost,
    redosQuantifier, wildcardDanger, wildcardExcessive, wildcardLeading, credentialSegment,
    basicAuth, xssMarker, sqlInjection, commandInjection]

end Rule

end RouteAudit.Risk
