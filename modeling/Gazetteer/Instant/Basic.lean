/-!
# Instants

A point in time to the nanosecond, kept as its calendar date and clock time in UTC.  A leap second
is a 59th second with a billion nanoseconds more.  Instants are ordered by their fields, from the
year down.

`Instant.text` is the Internet form, `2001-02-03T04:05:06.500Z`, with as many groups of three
fraction digits as needed.
-/

namespace Gazetteer

def isLeapYear (year : Int) : Bool := year % 4 == 0 && (year % 100 != 0 || year % 400 == 0)

/-- The length of a month; 0 if there is no such month. -/
def daysInMonth (year : Int) : Nat → Nat
  | 1 | 3 | 5 | 7 | 8 | 10 | 12 => 31
  | 4 | 6 | 9 | 11 => 30
  | 2 => if isLeapYear year then 29 else 28
  | _ => 0

/-- The date exists, and the clock time too. -/
def IsCivil (year : Int) (month day hour minute second nano : Nat) : Prop :=
  (1 ≤ day ∧ day ≤ daysInMonth year month) ∧ hour < 24 ∧ minute < 60 ∧ second < 60 ∧
    nano < (if second = 59 then 2000000000 else 1000000000)

instance (year : Int) (month day hour minute second nano : Nat) :
    Decidable (IsCivil year month day hour minute second nano) :=
  inferInstanceAs (Decidable (_ ∧ _))

structure Instant where
  year : Int
  month : Nat
  day : Nat
  hour : Nat
  minute : Nat
  second : Nat
  nano : Nat
  civil : IsCivil year month day hour minute second nano
deriving DecidableEq, Repr

namespace Instant

/-! ## Order -/

/-- The fields after the year, as one number. -/
def withinYear (t : Instant) : Nat :=
  ((((t.month * 32 + t.day) * 24 + t.hour) * 60 + t.minute) * 60 + t.second) * 2000000000 + t.nano

/-- Not after. -/
def le (a b : Instant) : Bool :=
  a.year < b.year || (a.year == b.year && a.withinYear ≤ b.withinYear)

/-! ## Texts -/

/-- A number with at least `width` digits. -/
def padded (width n : Nat) : List Char :=
  let digits := Nat.toDigits 10 n
  List.replicate (width - digits.length) '0' ++ digits

/-- Four digits, and a sign outside of the years 0 to 9999. -/
def yearChars (year : Int) : List Char :=
  if 0 ≤ year ∧ year ≤ 9999 then padded 4 year.natAbs
  else (if year < 0 then '-' else '+') :: padded 4 year.natAbs

/-- The second as a clock shows it: a leap second is the 60th. -/
def shownSecond (t : Instant) : Nat := t.second + t.nano / 1000000000

/-- Nothing, or a point and 3, 6 or 9 digits. -/
def fractionChars (t : Instant) : List Char :=
  let n := t.nano % 1000000000
  if n = 0 then []
  else if n % 1000000 = 0 then '.' :: padded 3 (n / 1000000)
  else if n % 1000 = 0 then '.' :: padded 6 (n / 1000)
  else '.' :: padded 9 n

def dateChars (year : Int) (month day : Nat) : List Char :=
  yearChars year ++ '-' :: padded 2 month ++ '-' :: padded 2 day

def clockChars (hour minute second : Nat) : List Char :=
  padded 2 hour ++ ':' :: padded 2 minute ++ ':' :: padded 2 second

def chars (t : Instant) : List Char :=
  dateChars t.year t.month t.day ++ 'T' :: clockChars t.hour t.minute t.shownSecond
    ++ t.fractionChars ++ ['Z']

/-- The Internet form. -/
def text (t : Instant) : String := String.ofList t.chars

end Instant

end Gazetteer
