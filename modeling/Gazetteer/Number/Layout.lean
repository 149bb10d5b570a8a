import Gazetteer.Number.Shortest

/-!
# Number texts

A `Layout` says how the shortest digits of a double are written: where positional notation ends,
whether whole numbers keep a point, how an exponent looks.  The library writes three of them, and
`Binary64.fixed` for a fixed number of places, where the exact value is rounded, ties to even.
-/

namespace Gazetteer

structure Layout where
  /-- Numbers from `10 ^ low` to below `10 ^ high` are positional, others have an exponent; all are
  positional if there is no range. -/
  range : Option (Int × Int)
  /-- Whole numbers end in `.0`. -/
  keepsPoint : Bool
  /-- Positive exponents have a `+`. -/
  exponentPlus : Bool
  tie : Tie

namespace Layout

/-- Plain texts: always positional, whole numbers without a point. -/
def plain : Layout := ⟨none, false, false, .up⟩

/-- Numbers of JSON documents: `20.0`, `0.00001`, `1e+16`. -/
def json : Layout := ⟨some (-5, 16), true, true, .toEven⟩

/-- Coordinates inside messages: `20.0`, `0.0001`, `1e16`. -/
def message : Layout := ⟨some (-4, 16), true, false, .up⟩

end Layout

/-- `count` zeros. -/
def zeros (count : Nat) : List Char := List.replicate count '0'

/-- Digits with a point after the first `before` of them; zeros fill up on either side. -/
def positional (keepsPoint : Bool) (digits : List Char) (before : Int) : List Char :=
  if before ≤ 0 then '0' :: '.' :: zeros (-before).toNat ++ digits
  else if digits.length ≤ before then
    digits ++ zeros (before.toNat - digits.length) ++ (if keepsPoint then ['.', '0'] else [])
  else digits.take before.toNat ++ '.' :: digits.drop before.toNat

/-- One digit, a point before the others if there are any, and an exponent. -/
def scientific (exponentPlus : Bool) (digits : List Char) (exponent : Int) : List Char :=
  let head := match digits with
    | d :: r :: rest => d :: '.' :: r :: rest
    | ds => ds
  let sign := if exponent < 0 then ['-'] else if exponentPlus then ['+'] else []
  head ++ 'e' :: sign ++ Nat.toDigits 10 exponent.natAbs

/-- A decimal in the given layout. -/
def Decimal.chars (layout : Layout) (d : Decimal) : List Char :=
  let digits := Nat.toDigits 10 d.digits
  let before := digits.length + d.exponent
  match layout.range with
  | none => positional layout.keepsPoint digits before
  | some (low, high) =>
    if low < before ∧ before ≤ high then positional layout.keepsPoint digits before
    else scientific layout.exponentPlus digits (before - 1)

/-- Rounds `num / den` to a whole number, ties to even. -/
def roundHalfEven (num den : Nat) : Nat :=
  let q := num / den
  let rest := num % den
  if den < 2 * rest || (den == 2 * rest && q % 2 == 1) then q + 1 else q

namespace Binary64

/-- The text of a double in the given layout. -/
def chars (layout : Layout) : Binary64 → List Char
  | nan => ['N', 'a', 'N']
  | infinite s => if s then ['-', 'i', 'n', 'f'] else ['i', 'n', 'f']
  | finite s u _ =>
    let body :=
      if u = 0 then '0' :: (if layout.keepsPoint then ['.', '0'] else [])
      else (shortestDecimal layout.tie u).chars layout
    if s then '-' :: body else body

/-- The plain text of a double. -/
def text (x : Binary64) : String := String.ofList (x.chars .plain)

instance : ToString Binary64 := ⟨text⟩

/-- The text of a double with a fixed number of places after the point (at least one). -/
def fixedChars (places : Nat) : Binary64 → List Char
  | finite s u _ =>
    let digits := Nat.toDigits 10 (roundHalfEven (u * Nat.pow 10 places) unitScale)
    let padded := zeros (places + 1 - digits.length) ++ digits
    let body := positional false padded ((padded.length : Int) - places)
    if s then '-' :: body else body
  | x => x.chars .plain

def fixed (places : Nat) (x : Binary64) : String := String.ofList (x.fixedChars places)

end Binary64

end Gazetteer
