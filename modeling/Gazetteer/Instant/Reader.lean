import Gazetteer.Instant.Basic
import Gazetteer.Number.Decimal
import Gazetteer.Text.Blank

/-!
# Reading instants

`Instant.ofText?` reads the Internet form of a date and time with some freedom: blanks before each
number, before `-` and `:` and around the zone, numbers without padding, `t` or a space between date
and time, and as zone `Z`, `UTC` or an offset such as `+05:45`.  Fraction digits after the ninth are
passed over.  The result is the same moment in UTC.
-/

namespace Gazetteer.Instant

/-! ## Pieces of the text -/

/-- From one to `width` digits, after blanks, and what follows them. -/
def readNumber? (width : Nat) (s : List Char) : Option (Nat × List Char) :=
  let s := Text.trimStart s
  let digits := (s.take width).takeWhile Char.isDigit
  if digits = [] then none else some (digitsValue digits, s.drop digits.length)

/-- A year: any number of digits after a sign, otherwise up to four. -/
def readYear? (s : List Char) : Option (Int × List Char) :=
  match Text.trimStart s with
  | '-' :: s => (readSigned s).map fun (n, rest) => (-(n : Int), rest)
  | '+' :: s => (readSigned s).map fun (n, rest) => ((n : Int), rest)
  | s => (readNumber? 4 s).map fun (n, rest) => ((n : Int), rest)
where
  readSigned (s : List Char) : Option (Nat × List Char) :=
    let digits := s.takeWhile Char.isDigit
    if digits = [] then none else some (digitsValue digits, s.drop digits.length)

/-- A mark after blanks. -/
def readMark? (mark : Char) (s : List Char) : Option (List Char) :=
  match Text.trimStart s with
  | c :: s => if c = mark then some s else none
  | [] => none

/-- A fraction of a second in nanoseconds, if there is a point. -/
def readFraction? : List Char → Option (Nat × List Char)
  | '.' :: s =>
    let digits := s.takeWhile Char.isDigit
    let kept := digits.take 9
    if digits = [] then none
    else some (digitsValue kept * Nat.pow 10 (9 - kept.length), s.drop digits.length)
  | s => some (0, s)

/-- A zone as its offset in minutes. -/
def readZone? (s : List Char) : Option (Int × List Char) :=
  match Text.trimStart s with
  | 'Z' :: s => some (0, s)
  | 'z' :: s => some (0, s)
  | sign :: s =>
    if ((sign :: s).take 3).map Char.toLower = ['u', 't', 'c'] then some (0, s.drop 2)
    else if sign = '+' then readOffset 1 s
    else if sign = '-' ∨ sign = '\u2212' then readOffset (-1) s
    else none
  | [] => none
where
  readOffset (sign : Int) : List Char → Option (Int × List Char)
    | h :: h' :: s =>
      match s.dropWhile fun c => c = ':' || Text.isBlank c with
      | m :: m' :: rest =>
        let hours := digitsValue [h, h']
        let minutes := digitsValue [m, m']
        if [h, h', m, m'].all Char.isDigit ∧ minutes < 60 ∧ hours < 24 then
          some (sign * (hours * 60 + minutes : Nat), rest)
        else none
      | _ => none
    | _ => none

/-! ## Calendar -/

/-- The years that a date may lie in. -/
def yearRange : Int × Int := (-262143, 262142)

/-- The day after. -/
def nextDay (year : Int) (month day : Nat) : Int × Nat × Nat :=
  if day < daysInMonth year month then (year, month, day + 1)
  else if month < 12 then (year, month + 1, 1)
  else (year + 1, 1, 1)

/-- The day before. -/
def previousDay (year : Int) (month day : Nat) : Int × Nat × Nat :=
  if 1 < day then (year, month, day - 1)
  else if 1 < month then (year, month - 1, daysInMonth year (month - 1))
  else (year - 1, 12, 31)

/-- The instant with the given fields, if there is one. -/
def ofFields? (date : Int × Nat × Nat) (minutes second nano : Nat) : Option Instant :=
  let (year, month, day) := date
  if h : IsCivil year month day (minutes / 60) (minutes % 60) second nano then
    if yearRange.1 ≤ year ∧ year ≤ yearRange.2 then
      some ⟨year, month, day, minutes / 60, minutes % 60, second, nano, h⟩
    else none
  else none

/-- The moment shown by a calendar and a clock that are `offset` minutes ahead of UTC, less than a
day. -/
def shifted? (t : Instant) (offset : Int) : Option Instant :=
  let minutes : Int := (t.hour * 60 + t.minute : Nat) - offset
  let date :=
    if minutes < 0 then previousDay t.year t.month t.day
    else if 1440 ≤ minutes then nextDay t.year t.month t.day
    else (t.year, t.month, t.day)
  ofFields? date (minutes % 1440).toNat t.second t.nano

/-! ## The whole text -/

def ofChars? (s : List Char) : Option Instant := do
  let (year, s) ← readYear? s
  let s ← readMark? '-' s
  let (month, s) ← readNumber? 2 s
  let s ← readMark? '-' s
  let (day, s) ← readNumber? 2 s
  let s ← match s with
    | c :: s => if c = 'T' ∨ c = 't' ∨ c = ' ' then some s else none
    | [] => none
  let (hour, s) ← readNumber? 2 s
  let s ← readMark? ':' s
  let (minute, s) ← readNumber? 2 s
  let s ← readMark? ':' s
  let (second, s) ← readNumber? 2 s
  let (nano, s) ← readFraction? s
  let (offset, s) ← readZone? s
  if Text.trimStart s ≠ [] ∨ 23 < hour ∨ 59 < minute ∨ 60 < second then none
  else
    let leap := if second = 60 then 1000000000 else 0
    let shown ← ofFields? (year, month, day) (hour * 60 + minute) (min second 59) (nano + leap)
    shown.shifted? offset

def ofText? (text : String) : Option Instant := ofChars? text.toList

end Gazetteer.Instant
