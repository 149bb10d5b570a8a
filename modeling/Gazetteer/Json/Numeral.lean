import Gazetteer.Json.Basic

/-!
# Numbers as they stand in JSON texts

A `Numeral` keeps the parts of a number text.  `Numeral.double?` gives it a double by a short
computation instead of a correctly rounded one: the digits are collected into a 64-bit significand
(`significand`), which is rounded to a double and then multiplied or divided once by the double
nearest to a power of ten.  So the result may be a neighbour of the nearest double, and a text that
another writer rounded correctly need not be read as the number it was written for.
-/

namespace Gazetteer.Json

/-- A number text: `whole` and `fraction` are decimal digits, `exponent` a sign and digits. -/
structure Numeral where
  negative : Bool
  whole : List Char
  fraction : Option (List Char)
  exponent : Option (Bool × List Char)
deriving DecidableEq, Repr

namespace Numeral

/-! ## Reading the parts -/

/-- At least one digit. -/
def readDigits? (s : List Char) : Option (List Char × List Char) :=
  let digits := s.takeWhile Char.isDigit
  if digits = [] then none else some (digits, s.dropWhile Char.isDigit)

/-- Digits without a superfluous zero in front. -/
def readWhole? (s : List Char) : Option (List Char × List Char) :=
  match readDigits? s with
  | some ('0' :: _ :: _, _) => none
  | r => r

def readFraction? : List Char → Option (Option (List Char) × List Char)
  | '.' :: s => (readDigits? s).map fun (digits, rest) => (some digits, rest)
  | s => some (none, s)

def readExponent? : List Char → Option (Option (Bool × List Char) × List Char)
  | e :: s =>
    if e = 'e' ∨ e = 'E' then
      let (negative, s) := match s with
        | '-' :: s => (true, s)
        | '+' :: s => (false, s)
        | s => (false, s)
      (readDigits? s).map fun (digits, rest) => (some (negative, digits), rest)
    else some (none, e :: s)
  | [] => some (none, [])

/-- A numeral at the front of a text, as long as possible, and what follows it. -/
def read? (s : List Char) : Option (Numeral × List Char) := do
  let (negative, s) := match s with
    | '-' :: s => (true, s)
    | s => (false, s)
  let (whole, s) ← readWhole? s
  let (fraction, s) ← readFraction? s
  let (exponent, s) ← readExponent? s
  return (⟨negative, whole, fraction, exponent⟩, s)

/-! ## The double of a numeral -/

/-- Takes digits into a 64-bit significand as long as they fit; what is left over. -/
def collect (significand : Nat) : List Char → Nat × List Char
  | [] => (significand, [])
  | d :: ds =>
    let next := 10 * significand + (d.toNat - '0'.toNat)
    if next < UInt64.size then collect next ds else (significand, d :: ds)

/-- The written exponent. -/
def writtenExponent (n : Numeral) : Int :=
  match n.exponent with
  | none => 0
  | some (negative, digits) => if negative then -(digitsValue digits : Int) else digitsValue digits

/-- The significand and its decimal exponent.  Whole digits that do not fit raise the exponent,
fraction digits that do not fit are dropped. -/
def significand (n : Numeral) : Decimal :=
  let (s, lost) := collect 0 n.whole
  let fraction := n.fraction.getD []
  let (s, dropped) := collect s fraction
  ⟨s, lost.length - ((fraction.length : Int) - dropped.length) + n.writtenExponent⟩

/-- The double nearest to a power of ten up to `10 ^ 308`, in units. -/
def powerUnits (exponent : Nat) : Nat := nearestMagnitude (Nat.pow 10 exponent * unitScale) 1

/-- A magnitude divided by a power of ten, rounded. -/
def dividedUnits (units exponent : Nat) : Nat :=
  nearestMagnitude (units * unitScale) (powerUnits exponent)

/-- Repeated division by `10 ^ 308`. -/
def shrunkUnits (steps units : Nat) : Nat := Nat.repeat (dividedUnits · 308) steps units

/-- A magnitude times a power of ten.  Beyond `10 ^ -308` the division takes several steps; after
three of them every 64-bit significand has become zero. -/
def scaledUnits (units : Nat) (exponent : Int) : Nat :=
  if 0 ≤ exponent then nearestMagnitude (units * powerUnits exponent.toNat) unitScale
  else
    let places := (-exponent).toNat
    dividedUnits (shrunkUnits (min (places / 308) 3) units) (places % 308)

/-- The double that a numeral is read as; none beyond the range of doubles. -/
def double? (n : Numeral) : Option Binary64 :=
  let d := n.significand
  let units := nearestMagnitude (d.digits * unitScale) 1
  if units = 0 then some (.zero n.negative)
  else if 308 < d.exponent then none
  else
    let x := Binary64.ofUnits n.negative (scaledUnits units d.exponent) 1
    if x.isFinite then some x else none

/-- The value of a numeral: without fraction and exponent a whole number from `-2 ^ 63` to below
`2 ^ 64`, otherwise (and for `-0`) a double. -/
def value? (n : Numeral) : Option Value :=
  let size := digitsValue n.whole
  if n.fraction.isNone ∧ n.exponent.isNone ∧ !n.negative ∧ size < UInt64.size then
    some (.natural size)
  else if n.fraction.isNone ∧ n.exponent.isNone ∧ n.negative ∧ 0 < size ∧ size ≤ Nat.pow 2 63 then
    some (.negative size)
  else n.double?.map .double

end Numeral

end Gazetteer.Json
