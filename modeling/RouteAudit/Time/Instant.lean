import RouteAudit.Text.Blank

/-! # Instants and how they are written

An instant counts seconds from the start of 1970 in universal time, with
nanoseconds; a leap second is its predecessor with a thousand million more of
them. It is written as date, `T`, time and `Z`, with no fraction or one of three,
six or nine digits, whichever is the shortest that says it all.

The reader takes more than the writer makes: single digits, blanks between the
parts, a blank for the `T`, and an offset in hours and minutes for the `Z`.
-/

namespace RouteAudit.Time

/-- A moment in universal time. -/
structure Instant where
  seconds : Int
  nanos : Nat
  deriving Repr, BEq, DecidableEq

/-- The days from 1970-01-01 to a date of the Gregorian calendar. -/
def daysOfDate (year : Int) (month day : Nat) : Int :=
  let y := if month ≤ 2 then year - 1 else year
  let era := y.fdiv 400
  let yearOfEra := y - era * 400
  let shifted : Int := if month > 2 then month - 3 else month + 9
  let dayOfYear := (153 * shifted + 2) / 5 + day - 1
  let dayOfEra := yearOfEra * 365 + yearOfEra / 4 - yearOfEra / 100 + dayOfYear
  era * 146097 + dayOfEra - 719468

/-- The date that is so many days after 1970-01-01, as year, month and day. -/
def dateOfDays (days : Int) : Int × Nat × Nat :=
  let z := days + 719468
  let era := z.fdiv 146097
  let dayOfEra := z - era * 146097
  let yearOfEra := (dayOfEra - dayOfEra / 1460 + dayOfEra / 36524 - dayOfEra / 146096) / 365
  let dayOfYear := dayOfEra - (365 * yearOfEra + yearOfEra / 4 - yearOfEra / 100)
  let shifted := (5 * dayOfYear + 2) / 153
  let day := dayOfYear - (153 * shifted + 2) / 5 + 1
  let month := if shifted < 10 then shifted + 3 else shifted - 9
  let year := yearOfEra + era * 400 + (if month ≤ 2 then 1 else 0)
  (year, month.toNat, day.toNat)

/-- Whether a year has a 29th of February. -/
def isLeapYear (year : Int) : Bool :=
  year % 4 == 0 && (year % 100 != 0 || year % 400 == 0)

/-- How many days a month has. -/
def daysInMonth (year : Int) (month : Nat) : Nat :=
  if month = 2 then (if isLeapYear year then 29 else 28)
  else if month = 4 ∨ month = 6 ∨ month = 9 ∨ month = 11 then 30
  else 31

/-- A number with zeros before it up to a width. -/
def padded (width n : Nat) : String :=
  let digits := toString n
  String.ofList (List.replicate (width - digits.length) '0') ++ digits

namespace Instant

/-- The fraction of a second in the shortest of the four forms. -/
def fractionText (nanos : Nat) : String :=
  if nanos = 0 then ""
  else if nanos % 1000000 = 0 then "." ++ padded 3 (nanos / 1000000)
  else if nanos % 1000 = 0 then "." ++ padded 6 (nanos / 1000)
  else "." ++ padded 9 nanos

/-- A year, with a sign outside of the four-digit range. -/
def yearText (year : Int) : String :=
  if 0 ≤ year ∧ year ≤ 9999 then padded 4 year.toNat
  else (if year < 0 then "-" else "+") ++ padded 4 year.natAbs

/-- The instant as it is written. -/
def text (instant : Instant) : String :=
  let day := instant.seconds.fdiv 86400
  let second := (instant.seconds - day * 86400).toNat
  let (year, month, dayOfMonth) := dateOfDays day
  let leap := instant.nanos / 1000000000
  yearText year ++ "-" ++ padded 2 month ++ "-" ++ padded 2 dayOfMonth ++ "T" ++
    padded 2 (second / 3600) ++ ":" ++ padded 2 (second / 60 % 60) ++ ":" ++
    padded 2 (second % 60 + leap) ++ fractionText (instant.nanos % 1000000000) ++ "Z"

end Instant

/-! ## Reading -/

/-- The first year of the calendar. -/
def firstYear : Int := -262143

/-- The last year of the calendar. -/
def lastYear : Int := 262142

/-- Whether the calendar of universal time has the instant. -/
def Instant.isInCalendar (instant : Instant) : Bool :=
  daysOfDate firstYear 1 1 * 86400 ≤ instant.seconds &&
    instant.seconds < daysOfDate (lastYear + 1) 1 1 * 86400

/-- The text from its first character that is no blank. -/
def skipBlanks (cs : List Char) : List Char :=
  cs.dropWhile Text.isBlank

/-- Reads a number of at least one digit and at most so many. -/
def readNumber? (most : Nat) (cs : List Char) : Option (Nat × List Char) :=
  let digits := (cs.take most).takeWhile Char.isDigit
  if digits.isEmpty then none
  else some (digits.foldl (fun n d => 10 * n + (d.toNat - '0'.toNat)) 0, cs.drop digits.length)

/-- Reads a number of one or two digits in a range, after blanks. -/
def readPart? (least most : Nat) (cs : List Char) : Option (Nat × List Char) := do
  let (n, rest) ← readNumber? 2 (skipBlanks cs)
  if least ≤ n ∧ n ≤ most then some (n, rest) else none

/-- Reads a given character, after blanks. -/
def readSeparator? (c : Char) (cs : List Char) : Option (List Char) :=
  match skipBlanks cs with
  | d :: rest => if d = c then some rest else none
  | [] => none

/-- Reads a year: four digits at most, or any number of them behind a sign. -/
def readYear? (cs : List Char) : Option (Int × List Char) :=
  match skipBlanks cs with
  | '-' :: cs => (readNumber? cs.length cs).map fun (n, rest) => (-(n : Int), rest)
  | '+' :: cs => (readNumber? cs.length cs).map fun (n, rest) => ((n : Int), rest)
  | cs => (readNumber? 4 cs).map fun (n, rest) => ((n : Int), rest)

/-- Reads a fraction of a second, as nanoseconds: nine digits, where those that are
not written are zeros. Digits beyond the ninth are dropped. -/
def readFraction? : List Char → Option (Nat × List Char)
  | '.' :: cs =>
    let digits := cs.takeWhile Char.isDigit
    if digits.isEmpty then none
    else (readNumber? 9 (digits ++ List.replicate 9 '0')).map fun (n, _) =>
      (n, cs.drop digits.length)
  | cs => some (0, cs)

/-- Reads two digits, the first of them up to a limit. -/
def readTwoDigits? (limit : Char) : List Char → Option (Nat × List Char)
  | a :: b :: cs =>
    if a.isDigit && a ≤ limit && b.isDigit then
      some (10 * (a.toNat - '0'.toNat) + (b.toNat - '0'.toNat), cs)
    else none
  | _ => none

/-- Reads an offset from universal time, in seconds. -/
def readOffset? (cs : List Char) : Option (Int × List Char) :=
  match cs with
  | 'Z' :: rest | 'z' :: rest => some (0, rest)
  | u :: t :: c :: rest =>
    if u.toUpper = 'U' ∧ t.toUpper = 'T' ∧ c.toUpper = 'C' then some (0, rest)
    else if u = '+' then hoursAndMinutes? 1 (t :: c :: rest)
    else if u = '-' ∨ u = '\u2212' then hoursAndMinutes? (-1) (t :: c :: rest)
    else none
  | _ => none
where
  hoursAndMinutes? (sign : Int) (cs : List Char) : Option (Int × List Char) := do
    let (hours, rest) ← readTwoDigits? '9' cs
    let (minutes, rest) ← readTwoDigits? '5'
      (rest.dropWhile fun c => c == ':' || Text.isBlank c)
    if hours < 24 then some (sign * (hours * 3600 + minutes * 60), rest) else none

/-- Reads an instant. Both its date as written and its date in universal time have to be
in the calendar. -/
def Instant.parse? (text : String) : Option Instant := do
  let (year, rest) ← readYear? text.toList
  let (month, rest) ← readPart? 1 12 (← readSeparator? '-' rest)
  let (day, rest) ← readPart? 1 (daysInMonth year month) (← readSeparator? '-' rest)
  let rest ← match rest with
    | c :: rest => if c = 'T' ∨ c = 't' ∨ c = ' ' then some rest else none
    | [] => none
  let (hour, rest) ← readPart? 0 23 rest
  let (minute, rest) ← readPart? 0 59 (← readSeparator? ':' rest)
  let (second, rest) ← readPart? 0 60 (← readSeparator? ':' rest)
  let (nanos, rest) ← readFraction? rest
  let (offset, rest) ← readOffset? (skipBlanks rest)
  let leap := if second = 60 then 1 else 0
  let instant : Instant := {
    seconds := daysOfDate year month day * 86400 + hour * 3600 + minute * 60 +
      (second - leap : Nat) - offset
    nanos := nanos + leap * 1000000000 }
  if (skipBlanks rest).isEmpty ∧ firstYear ≤ year ∧ year ≤ lastYear ∧ instant.isInCalendar then
    some instant
  else none

end RouteAudit.Time
