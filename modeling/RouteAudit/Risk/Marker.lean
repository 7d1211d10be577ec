import RouteAudit.Regex.Search

/-! # Markers of risk

Each marker is a regular expression that is looked for anywhere in a pattern.
Words are meant in any case, by simple case folding: the long s counts as `s`
and the Kelvin sign as `k`, also where a letter must not follow. Digits and
blanks are those of every script.
-/

namespace RouteAudit.Risk.Marker

open RouteAudit.Regex

/-- One of the characters of a text. -/
def anyOf (members : String) : Expr := .set (.oneOf members.toList)

/-- A character that the text does not have. -/
def noneOf (members : String) : Expr := .set (.compl (.oneOf members.toList))

/-- Any number of repetitions. -/
def many (body : Expr) : Expr := .star true body

/-- The expression or nothing. -/
def maybe (body : Expr) : Expr := .opt true body

/-- At least one repetition. -/
def oneOrMore (body : Expr) : Expr := .plus true body

/-- One of some words, in any case. -/
def anyWord (words : List String) : Expr := .oneOf (words.map .caseless)

/-- ASCII letters and digits. -/
def asciiAlphanumeric : CharSet := .unions [.range 'A' 'Z', .range 'a' 'z', .range '0' '9']

/-- What continues the name of a segment or a host: ASCII letters, digits and
`_`, `.`, `-`. -/
def nameChars : CharSet := .union asciiAlphanumeric (.oneOf ['_', '.', '-'])

/-- The two characters beyond ASCII that fold to a letter. -/
def foldedToAscii : CharSet := .oneOf ['\u017F', '\u212A']

/-- The end of the text, or a character outside the set. -/
def notBefore (set : CharSet) : Expr := .oneOf [.set (.compl set), .look .textEnd]

/-- A blank. -/
def blank : Expr := .set .blank

/-- A digit. -/
def digit : Expr := .set .digit

/-- Any number of blanks. -/
def blanks : Expr := many blank

/-- A dot and one to three digits. -/
def dotDigits : Expr := .cat (.text ".") (.repeated true 1 (some 3) digit)

/-- The opening of an interpolation in some template language. -/
def interpolation : Expr :=
  .oneOf (["$\x7b", "\x7b\x7b", "<%", "#\x7b", "%\x7b"].map .text)

/-- A segment of two dots, at the start or behind a separator, that no name goes on
from. -/
def traversal : Expr :=
  .seq [.oneOf [.look .textStart, anyOf "/\\"], .text "..", notBefore nameChars]

/-- A parameter, wildcard or group in the place of a redirection target, or two
slashes at the start. -/
def openRedirect : Expr :=
  .oneOf [
    .seq [.look .textStart, .text "//"],
    .seq [
      anyOf "/?&;",
      .oneOf [
        .cat (.caseless "redirect")
          (maybe (.seq [maybe (.text "_"), .caseless "ur", .oneOf [.caseless "i", .caseless "l"]])),
        .cat (.caseless "return")
          (maybe (.oneOf [
            .cat (maybe (.text "_")) (.caseless "to"),
            .cat (maybe (.text "_")) (.caseless "url")])),
        .caseless "next",
        .caseless "goto",
        .caseless "continue",
        .cat (.caseless "dest") (maybe (.caseless "ination")),
        .caseless "callback"],
      anyOf "/=",
      anyOf ":*("]]

/-- A host of the local machine, of a private network or of a metadata service. -/
def internalHost : Expr :=
  .seq [
    .text "://",
    maybe (.cat (many (noneOf "/@")) (.text "@")),
    .oneOf [
      .caseless "localhost",
      .text "0.0.0.0",
      .seq [.text "127", dotDigits, dotDigits, dotDigits],
      .seq [.text "10", dotDigits, dotDigits, dotDigits],
      .seq [.text "192.168", dotDigits, dotDigits],
      .seq [
        .text "172.",
        .oneOf [
          .cat (.text "1") (.set (.range '6' '9')),
          .cat (.text "2") digit,
          .cat (.text "3") (anyOf "01")],
        dotDigits, dotDigits],
      .seq [.text "169.254", dotDigits, dotDigits],
      .seq [.text "[::", maybe (.text "1"), .text "]"],
      .caseless "metadata.google.internal",
      .cat (many (noneOf "/:@")) (.caseless ".internal"),
      .cat (many (noneOf "/:@")) (.caseless ".local")],
    notBefore (.union nameChars foldedToAscii)]

/-- A host that starts with, or has a label that is, a parameter or a wildcard. -/
def dynamicHost : Expr :=
  .seq [
    .text "://",
    maybe (.cat (many (noneOf "/@")) (anyOf ".@")),
    .oneOf [
      .cat (.text ":") (.set (.unions [.range 'A' 'Z', .range 'a' 'z', .single '_'])),
      .text "*"]]

/-- A repeated group that holds a repetition or alternatives. -/
def nestedQuantifier : Expr :=
  .oneOf [
    .seq [.text "(", many (noneOf "()"), anyOf "+*", many (noneOf "()"), .text ")",
      anyOf "+*\x7b"],
    .seq [.text "(", many (noneOf "()"), .text "|", many (noneOf "()"), .text ")",
      anyOf "+*\x7b"]]

/-- A wildcard, or a parameter that takes several segments, as the first thing. -/
def leadingWildcard : Expr :=
  .seq [
    .look .textStart,
    maybe (.text "/"),
    .oneOf [
      .text "*",
      .seq [
        .text ":",
        .set (.unions [.range 'A' 'Z', .range 'a' 'z', .single '_']),
        many (.set (.union asciiAlphanumeric (.single '_'))),
        maybe (.seq [.text "(", many (noneOf ")"), .text ")"]),
        anyOf "*+"]]]

/-- Two words with a hyphen, an underscore or nothing between them. -/
def compound (first second : String) : Expr :=
  .seq [.caseless first, maybe (anyOf "_-"), .caseless second]

/-- A segment, parameter or query key named like a credential. -/
def credentialName : Expr :=
  .seq [
    .oneOf [.look .textStart, anyOf "/:?&="],
    .oneOf [
      .caseless "token",
      compound "access" "token",
      compound "refresh" "token",
      compound "auth" "token",
      .caseless "password",
      .caseless "passwd",
      .caseless "secret",
      compound "client" "secret",
      compound "api" "key",
      .caseless "apikey",
      compound "private" "key",
      .cat (.caseless "credential") (maybe (.caseless "s")),
      compound "session" "id"],
    notBefore (.union asciiAlphanumeric foldedToAscii)]

/-- A user name before the host. -/
def userInfo : Expr :=
  .seq [.text "://", oneOrMore (.set (.compl (.union (.oneOf ['/', '@']) .blank))), .text "@"]

/-- The start of a script, of an event handler, or of an element that loads one. -/
def script : Expr :=
  .oneOf [
    .seq [.text "<", blanks, anyWord ["script", "img", "iframe", "svg"]],
    .caseless "javascript:",
    .seq [.caseless "on", anyWord ["error", "load", "click", "mouseover"], blanks, .text "="],
    .seq [.caseless "%3c", blanks, .caseless "script"],
    .seq [.caseless "&lt;", blanks, .caseless "script"]]

/-- A fragment of a database query that breaks out of a value. -/
def query : Expr :=
  .oneOf [
    .seq [.text "'", blanks, anyWord ["or", "and"], blank],
    .seq [.caseless "union", oneOrMore blank, maybe (.cat (.caseless "all") (oneOrMore blank)),
      .caseless "select"],
    .seq [.text ";", blanks, anyWord ["drop", "delete", "insert", "update"], blank],
    .seq [.text "'", blanks, .text "--"],
    .seq [.look (.wordEdge true), .caseless "or", oneOrMore blank, .text "1", blanks, .text "=",
      blanks, .text "1"],
    .seq [.look (.wordEdge true), .caseless "sleep", blanks, .text "(", blanks, digit]]

/-- A character that a shell acts on. -/
def shell : Expr :=
  .oneOf [anyOf ";|\x60", .text "$(", .text "&&"]

end RouteAudit.Risk.Marker
