import Gazetteer.Number.Decimal

/-!
# The shortest decimal that reads back

Among the decimals that `Binary64.ofDecimal` reads as a given magnitude, `shortestDecimal` takes one
with the fewest digits, and of those the nearest.  On each grid of decimals only the two neighbours
of the value are tried.  A value exactly between two neighbours is settled by the caller's `Tie`.
-/

namespace Gazetteer

/-- Which neighbour a value halfway between two decimals goes to. -/
inductive Tie where
  | toEven
  | up
deriving DecidableEq, Repr

/-- The exponent of the leading decimal digit of `units`.  The factor brings every magnitude above
1. -/
def leadingExponent (units : Nat) : Int := digitCount (units * Nat.pow 10 400 / unitScale) - 401

/-- The neighbours of `units` on the multiples of `10 ^ exponent`, nearer one first. -/
def neighbours (tie : Tie) (units : Nat) (exponent : Int) : List Decimal :=
  let num := units * Nat.pow 10 (-exponent).toNat
  let den := unitScale * Nat.pow 10 exponent.toNat
  let lower := num / den
  let rest := num % den
  let up := den < 2 * rest || (den == 2 * rest && (tie == .up || lower % 2 == 1))
  if up then [⟨lower + 1, exponent⟩, ⟨lower, exponent⟩]
  else [⟨lower, exponent⟩, ⟨lower + 1, exponent⟩]

/-- All digits of a magnitude. -/
def exactDecimal (units : Nat) : Decimal := ⟨units * Nat.pow 5 1074, -1074⟩

/-- Whether a decimal is read as the magnitude `units`. -/
def readsAs (units : Nat) (d : Decimal) : Bool :=
  (Binary64.ofDecimal false d).position == some (units : Int)

/-- The nearest of the shortest decimals that are read as `units`. -/
def shortestDecimal (tie : Tie) (units : Nat) : Decimal :=
  let top := leadingExponent units
  let found := (List.range 17).findSome? fun (n : Nat) =>
    (neighbours tie units (top - n)).find? (readsAs units)
  (found.getD (exactDecimal units)).trim

end Gazetteer
