import Gazetteer.Number.Binary64

/-!
# Decimal numbers and the doubles nearest to them

`Binary64.ofDecimal` rounds a decimal number correctly, however long or large it is.
`Binary64.ofText` reads the number grammar of coordinate texts: an optional sign, then digits with
at most one point and at least one digit, then an optional exponent; or `inf`, `infinity`, `nan`
in any case.  No blanks, no separators.
-/

namespace Gazetteer

/-- The number `digits · 10 ^ exponent`. -/
structure Decimal where
  digits : Nat
  exponent : Int
deriving DecidableEq, Repr

/-- How many decimal digits a number is written with (1 for 0). -/
def digitCount (n : Nat) : Nat := (Nat.toDigits 10 n).length

/-- The number that a list of decimal digits denotes. -/
def digitsValue (digits : List Char) : Nat :=
  digits.foldl (fun n c => 10 * n + (c.toNat - '0'.toNat)) 0

/-- The same number without trailing zeros in its digits. -/
def Decimal.trim (d : Decimal) : Decimal :=
  if h : d.digits ≠ 0 ∧ d.digits % 10 = 0 then
    Decimal.trim ⟨d.digits / 10, d.exponent + 1⟩
  else d
termination_by d.digits
decreasing_by exact Nat.div_lt_self (Nat.pos_of_ne_zero h.1) (by decide)

namespace Binary64

/-- The double nearest to a decimal number.  The two cut-offs lie beyond the range of doubles; they
keep the powers of ten small. -/
def ofDecimal (negative : Bool) (d : Decimal) : Binary64 :=
  let size := digitCount d.digits + d.exponent
  if d.digits = 0 ∨ size < -330 then zero negative
  else if 310 < size then infinite negative
  else
    ofUnits negative (d.digits * Nat.pow 10 d.exponent.toNat * unitScale)
      (Nat.pow 10 (-d.exponent).toNat)

end Binary64

/-! ## Number texts -/

/-- Why a text is no number. -/
inductive NumberFault where
  | empty
  | invalid
deriving DecidableEq, Repr

def NumberFault.message : NumberFault → String
  | empty => "cannot parse float from empty string"
  | invalid => "invalid float literal"

/-- An exponent, the empty text standing for 0; `e` or `E`, an optional sign and digits otherwise.
-/
def readExponent : List Char → Option Int
  | [] => some 0
  | e :: s =>
    if e = 'e' ∨ e = 'E' then
      match s with
      | '-' :: ds => if ds ≠ [] ∧ ds.all Char.isDigit then some (-(digitsValue ds : Int)) else none
      | '+' :: ds => if ds ≠ [] ∧ ds.all Char.isDigit then some (digitsValue ds) else none
      | ds => if ds ≠ [] ∧ ds.all Char.isDigit then some (digitsValue ds) else none
    else none

/-- The part of a number text after its sign, when it is written with digits. -/
def Decimal.ofChars? (s : List Char) : Option Decimal :=
  let whole := s.takeWhile Char.isDigit
  let (fraction, tail) := match s.dropWhile Char.isDigit with
    | '.' :: t => (t.takeWhile Char.isDigit, t.dropWhile Char.isDigit)
    | t => ([], t)
  if whole = [] ∧ fraction = [] then none
  else (readExponent tail).map fun e => ⟨digitsValue (whole ++ fraction), e - fraction.length⟩

namespace Binary64

/-- The part of a number text after its sign. -/
def ofUnsigned? (negative : Bool) (s : List Char) : Option Binary64 :=
  let name := s.map Char.toLower
  if name = ['i', 'n', 'f'] ∨ name = ['i', 'n', 'f', 'i', 'n', 'i', 't', 'y'] then
    some (infinite negative)
  else if name = ['n', 'a', 'n'] then some nan
  else (Decimal.ofChars? s).map (ofDecimal negative)

def ofChars? : List Char → Option Binary64
  | '-' :: s => ofUnsigned? true s
  | '+' :: s => ofUnsigned? false s
  | s => ofUnsigned? false s

/-- Reads a number text, correctly rounded. -/
def ofText (text : String) : Except NumberFault Binary64 :=
  if text.isEmpty then .error .empty
  else match ofChars? text.toList with
    | some x => .ok x
    | none => .error .invalid

end Binary64

end Gazetteer
