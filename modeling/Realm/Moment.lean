import Realm.Text.Blank

/-!
# Moments

A point in time as snapshots are stamped with it, on the clock of the zero meridian. The written
form is a date, a `T`, a time of day with an optional fraction of a second, and a `Z`. What is read
may carry an offset from the zero meridian instead, has blanks between its parts if it likes, and
is moved to the zero meridian; since an offset is less than a day, that is to the day before or the
day after at most.
-/

set_option autoImplicit false

namespace Realm

/-- A day of the calendar. -/
structure Date where
  year : Int
  month : Nat
  day : Nat
  deriving DecidableEq

namespace Date

/-- Every fourth year, but of the hundreds only every fourth. -/
def isLeap (year : Int) : Bool := year % 4 == 0 && (year % 100 != 0 || year % 400 == 0)

/-- The number of days in a month, zero if there is no such month. -/
def daysIn (year : Int) (month : Nat) : Nat :=
  if month = 2 then if isLeap year then 29 else 28
  else if month = 4 ∨ month = 6 ∨ month = 9 ∨ month = 11 then 30
  else if 1 ≤ month ∧ month ≤ 12 then 31
  else 0

/-- Whether there is such a day, in the years that are counted. -/
def isValid (date : Date) : Bool :=
  decide (-262143 ≤ date.year ∧ date.year ≤ 262142) &&
  decide (1 ≤ date.day ∧ date.day ≤ daysIn date.year date.month)

def next (date : Date) : Date :=
  if date.day < daysIn date.year date.month then { date with day := date.day + 1 }
  else if date.month < 12 then { date with month := date.month + 1, day := 1 }
  else { year := date.year + 1, month := 1, day := 1 }

def previous (date : Date) : Date :=
  if 1 < date.day then { date with day := date.day - 1 }
  else if 1 < date.month then
    { date with month := date.month - 1, day := daysIn date.year (date.month - 1) }
  else { year := date.year - 1, month := 12, day := 31 }

end Date

/-- A point in time. -/
structure Moment where
  date : Date
  /-- The second of the day. -/
  second : Nat
  /-- The part of the second that is over; a whole second and more in a leap second, which is told
      as part of the second before. -/
  nanosecond : Nat := 0
  deriving DecidableEq

namespace Moment

/-! ## Writing -/

/-- A number with at least so many digits. -/
def padded (width n : Nat) : String :=
  let digits := Nat.toDigits 10 n
  String.ofList (List.replicate (width - digits.length) '0' ++ digits)

/-- A year of four digits, or with a sign if it needs more. -/
def yearText (year : Int) : String :=
  if 0 ≤ year ∧ year ≤ 9999 then padded 4 year.toNat
  else (if year < 0 then "-" else "+") ++ padded 4 year.natAbs

/-- A fraction of a second with three, six or nine digits, as many as it needs. -/
def fractionText (nanosecond : Nat) : String :=
  if nanosecond = 0 then ""
  else if nanosecond % 1000000 = 0 then "." ++ padded 3 (nanosecond / 1000000)
  else if nanosecond % 1000 = 0 then "." ++ padded 6 (nanosecond / 1000)
  else "." ++ padded 9 nanosecond

def text (moment : Moment) : String :=
  let leap := moment.nanosecond / 1000000000
  yearText moment.date.year ++ "-" ++ padded 2 moment.date.month ++ "-" ++ padded 2 moment.date.day
    ++ "T" ++ padded 2 (moment.second / 3600) ++ ":" ++ padded 2 (moment.second / 60 % 60)
    ++ ":" ++ padded 2 (moment.second % 60 + leap)
    ++ fractionText (moment.nanosecond % 1000000000) ++ "Z"

/-! ## Reading -/

/-- The rest after blanks. -/
def skipBlanks (chars : List Char) : List Char := chars.dropWhile Text.isBlank

/-- A number of at most so many digits, and the rest. -/
def number? (most : Nat) (chars : List Char) : Option (Nat × List Char) :=
  let digits := (chars.take most).takeWhile Char.isDigit
  if digits.isEmpty then none
  else some (Nat.ofDigitChars 10 digits 0, chars.drop digits.length)

/-- The rest after a mark, with or without blanks before it. -/
def mark? (mark : Char) (chars : List Char) : Option (List Char) :=
  match skipBlanks chars with
  | c :: rest => if c = mark then some rest else none
  | [] => none

/-- A year: four digits, or any number of them after a sign. -/
def year? (chars : List Char) : Option (Int × List Char) :=
  match skipBlanks chars with
  | '-' :: rest => (number? rest.length rest).map fun (n, rest) => (-(n : Int), rest)
  | '+' :: rest => (number? rest.length rest).map fun (n, rest) => ((n : Int), rest)
  | chars => (number? 4 chars).map fun (n, rest) => ((n : Int), rest)

/-- A date that there is. -/
def date? (chars : List Char) : Option (Date × List Char) := do
  let (year, rest) ← year? chars
  let (month, rest) ← number? 2 (skipBlanks (← mark? '-' rest))
  let (day, rest) ← number? 2 (skipBlanks (← mark? '-' rest))
  let date : Date := { year, month, day }
  if date.isValid then some (date, rest) else none

/-- A fraction of a second; digits after the ninth do not count. -/
def fraction? : List Char → Option (Nat × List Char)
  | '.' :: rest => do
    let (n, after) ← number? 9 rest
    let digits := rest.length - after.length
    return (n * Nat.pow 10 (9 - digits), after.dropWhile Char.isDigit)
  | rest => some (0, rest)

/-- A time of day: the second of the day, and nanoseconds. -/
def time? (chars : List Char) : Option ((Nat × Nat) × List Char) := do
  let (hour, rest) ← number? 2 (skipBlanks chars)
  let (minute, rest) ← number? 2 (skipBlanks (← mark? ':' rest))
  let (second, rest) ← number? 2 (skipBlanks (← mark? ':' rest))
  let (nanosecond, rest) ← fraction? rest
  if hour < 24 ∧ minute < 60 ∧ second ≤ 60 then
    let leap := second / 60
    some ((hour * 3600 + minute * 60 + second - leap, nanosecond + leap * 1000000000), rest)
  else none

/-- The minutes of an offset: two digits for the hours and two for the minutes, with colons or
    blanks between them if any. -/
def offsetSize? (chars : List Char) : Option (Nat × List Char) :=
  match chars with
  | h :: h' :: rest => do
    let (hours, _) ← if h'.isDigit then number? 2 [h, h'] else none
    match rest.dropWhile fun c => c == ':' || Text.isBlank c with
    | m :: m' :: rest =>
      let (minutes, _) ← if m'.isDigit then number? 2 [m, m'] else none
      if h.isDigit && m.isDigit && decide (minutes < 60) && decide (hours < 24) then
        some (hours * 60 + minutes, rest)
      else none
    | _ => none
  | _ => none

/-- The offset from the zero meridian, in minutes. -/
def offset? : List Char → Option (Int × List Char)
  | 'Z' :: rest | 'z' :: rest => some (0, rest)
  | '+' :: rest => (offsetSize? rest).map fun (n, rest) => ((n : Int), rest)
  | '-' :: rest | '−' :: rest => (offsetSize? rest).map fun (n, rest) => (-(n : Int), rest)
  | u :: t :: c :: rest =>
    if [u, t, c].map Char.toUpper = ['U', 'T', 'C'] then some (0, rest) else none
  | _ => none

/-- Moves a moment to the zero meridian. -/
def shift (moment : Moment) (minutes : Int) : Moment :=
  let second := (moment.second : Int) - minutes * 60
  if second < 0 then
    { moment with date := moment.date.previous, second := (second + 86400).toNat }
  else if 86400 ≤ second then
    { moment with date := moment.date.next, second := (second - 86400).toNat }
  else { moment with second := second.toNat }

/-- Reads a moment. -/
def ofText? (text : String) : Option Moment := do
  let (date, rest) ← date? text.toList
  let rest ← match rest with
    | 'T' :: rest | 't' :: rest | ' ' :: rest => some rest
    | _ => none
  let ((second, nanosecond), rest) ← time? rest
  let (offset, rest) ← offset? (skipBlanks rest)
  if (skipBlanks rest).isEmpty then
    let moment := shift { date, second, nanosecond } offset
    if moment.date.isValid then some moment else none
  else none

end Moment

end Realm
