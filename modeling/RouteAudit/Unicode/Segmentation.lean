import RouteAudit.Unicode.Script
import RouteAudit.Unicode.Trait

/-! # Segmentation classes

Texts are split into what readers take for characters, into words and into sentences
by rules on classes of characters, one family of classes for each. Most classes are
set operations on other properties, as the rules themselves state them; the rest are
short lists. A class is listed under its short and its long name as names are
compared, and characters of no listed class have no class with a name.
-/

namespace RouteAudit.Unicode

/-- A class of a family. -/
structure BreakClass where
  names : List String
  table : RangeTable
  deriving Repr, BEq, DecidableEq

namespace BreakClass

/-- The table of a class in a family. -/
def find? (family : List BreakClass) (name : String) : Option RangeTable :=
  (family.find? (·.names.contains name)).map (·.table)

/-! ## Parts that families share -/

/-- The script with a name; without it, no characters. -/
def scriptTable (name : String) : RangeTable :=
  ((Script.ofName? name).map (·.table)).getD ⟨[]⟩

/-- Marks that belong to the character before them. -/
def extend : RangeTable :=
  Trait.graphemeExtend.table.union Category.spacingMark.table

/-- Number signs that stand before their digits, and a digit of a script whose words
are not parted. -/
def numberSigns : RangeTable := .ofText "600-605 6DD 890-891 8E2 19DA 110BD 110CD"

/-- Invisible characters that only steer the text around them. -/
def steering : RangeTable := .ofText
  "AD 61C 180E 200E-200F 202A-202E 2060-2064 2066-206F FEFF FFF9-FFFB 13430-1343F
    1BCA0-1BCA3 1D173-1D17A E0001"

/-- The mark of an abbreviation in Syriac. -/
def abbreviationMark : RangeTable := .ofText "70F"

def carriageReturn : BreakClass := ⟨["cr"], .ofText "D"⟩

def lineFeed : BreakClass := ⟨["lf"], .ofText "A"⟩

def regionalIndicator : BreakClass := ⟨["ri", "regionalindicator"], .ofText "1F1E6-1F1FF"⟩

def zeroWidthJoiner : BreakClass := ⟨["zwj"], .ofText "200D"⟩

/-! ## Grapheme clusters -/

/-- Everything that extends a grapheme cluster. -/
def clusterExtend : RangeTable :=
  Trait.graphemeExtend.table.union Trait.emojiModifier.table

/-- Hangul syllables that end in a vowel: every 28th one. -/
def openSyllables : RangeTable :=
  ⟨(List.range 399).map fun i => (0xAC00 + 28 * i, 0xAC00 + 28 * i)⟩

/-- The classes of grapheme clusters. -/
def graphemes : List BreakClass := [
  carriageReturn,
  lineFeed,
  ⟨["cn", "control"], .ofText
    "0-9 B-C E-1F 7F-9F AD 61C 180E 200B 200E-200F 2028-202E 2060-206F FEFF FFF0-FFFB
      13430-1343F 1BCA0-1BCA3 1D173-1D17A E0000-E001F E0080-E00FF E01F0-E0FFF"⟩,
  ⟨["ex", "extend"], clusterExtend⟩,
  ⟨["pp", "prepend"], .ofText
    "600-605 6DD 70F 890-891 8E2 D4E 110BD 110CD 111C2-111C3 113D1 1193F 11941 11A84-11A89
      11D46 11F02"⟩,
  ⟨["sm", "spacingmark"],
    ((Category.spacingMark.table.union (.ofText "E33 EB3")).diff clusterExtend).diff (.ofText
      "102B-102C 1038 1062-1064 1067-106D 1083 1087-108C 108F 109A-109C 1A61 1A63-1A64
        AA7B AA7D 11720-11721")⟩,
  ⟨["l"], .ofText "1100-115F A960-A97C"⟩,
  ⟨["v"], .ofText "1160-11A7 D7B0-D7C6 16D63 16D67-16D6A"⟩,
  ⟨["t"], .ofText "11A8-11FF D7CB-D7FB"⟩,
  ⟨["lv"], openSyllables⟩,
  ⟨["lvt"], (RangeTable.ofText "AC00-D7A3").diff openSyllables⟩,
  regionalIndicator,
  zeroWidthJoiner]

/-! ## Words -/

/-- Hebrew letters. -/
def hebrewLetters : RangeTable :=
  (scriptTable "hebrew").inter Category.otherLetter.table

/-- Katakana and the marks written with them. -/
def katakana : RangeTable :=
  (scriptTable "katakana").union (.ofText "3031-3035 309B-309C 30A0 30FC FF70")

/-- Letters of scripts that put nothing between words. -/
def unpartedLetters : RangeTable := .ofText
  "E01-E30 E32-E33 E40-E46 E81-E82 E84 E86-E8A E8C-EA3 EA5 EA7-EB0 EB2-EB3 EBD EC0-EC4 EC6
    EDC-EDF 1000-102A 103F 1050-1055 105A-105D 1061 1065-1066 106E-1070 1075-1081 108E
    1780-17B3 17D7 17DC 1950-196D 1970-1974 1980-19AB 19B0-19C9 1A20-1A54 1AA7 A9E0-A9E4
    A9E6-A9EF A9FA-A9FE AA60-AA76 AA7A AA7E-AAAF AAB1 AAB5-AAB6 AAB9-AABD AAC0 AAC2
    AADB-AADD 11700-1171A 11740-11746"

/-- Letters that words are made of, among them marks that are written like letters. -/
def wordLetters : RangeTable :=
  (RangeTable.unions [Trait.alphabetic.table, abbreviationMark, .ofText
    "2C2-2C5 2D2-2D7 2DE-2DF 2E5-2EB 2ED 2EF-2FF 55A-55C 55E 58A 5F3 A708-A716 A720-A721
      A789-A78A AB5B"]).diff
    (.unions [Trait.ideographic.table, katakana, scriptTable "hiragana", unpartedLetters,
      hebrewLetters, extend])

/-- The classes of words. -/
def wordClasses : List BreakClass := [
  carriageReturn,
  lineFeed,
  ⟨["nl", "newline"], .ofText "B-C 85 2028-2029"⟩,
  ⟨["extend"], extend.union Trait.emojiModifier.table⟩,
  ⟨["fo", "format"], steering⟩,
  ⟨["ka", "katakana"], katakana⟩,
  ⟨["hl", "hebrewletter"], hebrewLetters⟩,
  ⟨["le", "aletter"], wordLetters⟩,
  ⟨["sq", "singlequote"], .ofText "27"⟩,
  ⟨["dq", "doublequote"], .ofText "22"⟩,
  ⟨["mb", "midnumlet"], .ofText "2E 2018-2019 2024 FE52 FF07 FF0E"⟩,
  ⟨["ml", "midletter"], .ofText "3A B7 387 55F 5F4 2027 FE13 FE55 FF1A"⟩,
  ⟨["mn", "midnum"], .ofText
    "2C 3B 37E 589 60C-60D 66C 7F8 2044 FE10 FE14 FE50 FE54 FF0C FF1B"⟩,
  ⟨["nu", "numeric"],
    .unions [Category.decimalNumber.table, numberSigns, .ofText "66B"]⟩,
  ⟨["ex", "extendnumlet"], Category.connectorPunctuation.table.union (.ofText "202F")⟩,
  ⟨["wsegspace"], .ofText "20 1680 2000-2006 2008-200A 205F 3000"⟩,
  regionalIndicator,
  zeroWidthJoiner]

/-! ## Sentences -/

/-- Lower-case letters; Georgian has case for headings only and counts as caseless. -/
def sentenceLower : RangeTable :=
  (Trait.lowercase.table.diff Trait.graphemeExtend.table).diff (.ofText "10D0-10FA 10FD-10FF")

/-- Upper-case and title-case letters. -/
def sentenceUpper : RangeTable :=
  (Trait.uppercase.table.union Category.titlecaseLetter.table).diff
    (.ofText "1C90-1CBA 1CBD-1CBF")

/-- Marks that belong to the character before them, the joiner among them. -/
def sentenceExtend : RangeTable := extend.union zeroWidthJoiner.table

/-- Full stops, which may also stand for an abbreviation. -/
def fullStops : RangeTable := .ofText "2E 2024 FE52 FF0E"

/-- Paragraph ends other than carriage return and line feed. -/
def paragraphEnds : RangeTable := .ofText "85 2028-2029"

/-- Blanks inside a paragraph. -/
def sentenceBlanks : RangeTable :=
  Trait.whiteSpace.table.diff (.unions [paragraphEnds, .ofText "A D"])

/-- The classes of sentences. -/
def sentences : List BreakClass := [
  carriageReturn,
  lineFeed,
  ⟨["ex", "extend"], sentenceExtend⟩,
  ⟨["se", "sep"], paragraphEnds⟩,
  ⟨["fo", "format"], .unions [steering, abbreviationMark, .ofText "200B"]⟩,
  ⟨["sp"], sentenceBlanks⟩,
  ⟨["lo", "lower"], sentenceLower⟩,
  ⟨["up", "upper"], sentenceUpper⟩,
  ⟨["le", "oletter"], (Trait.alphabetic.table.union (.ofText "5F3")).diff
    (.unions [sentenceLower, sentenceUpper, sentenceExtend])⟩,
  ⟨["nu", "numeric"],
    .unions [Category.decimalNumber.table, numberSigns, .ofText "66B-66C"]⟩,
  ⟨["at", "aterm"], fullStops⟩,
  ⟨["sc", "scontinue"], .ofText
    "2C-2D 3A-3B 37E 55D 60C-60D 7F8 1802 1808 2013-2014 3001 FE10-FE11 FE13-FE14 FE31-FE32
      FE50-FE51 FE54-FE55 FE58 FE63 FF0C-FF0D FF1A-FF1B FF64"⟩,
  ⟨["st", "sterm"], Trait.sentenceTerminal.table.diff fullStops⟩,
  ⟨["cl", "close"], .unions [Category.openPunctuation.table, Category.closePunctuation.table,
    .ofText
      "22 27 AB BB 2018-2019 201B-201D 201F 2039-203A 275B-2760 2E00-2E0D 2E1C-2E1D 2E20-2E21
        1F676-1F678"]⟩]

end BreakClass

end RouteAudit.Unicode
