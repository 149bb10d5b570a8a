/-!
# Double-precision numbers, exactly

A finite double is a sign and a whole number of units of `2 ^ -1074`.  Every operation on doubles
that the library needs is then one exact computation on natural numbers followed by one rounding:

    nearestMagnitude num den    the magnitude nearest to num / den units, ties to the even one
    ofUnits neg num den         the double nearest to ± num / den units, infinite beyond the range

Order and numeric equality (`le`, `sameNumber`) are those of IEEE 754: zeros of either sign are
the same number and NaN is comparable to nothing.  The equality `=` of the type tells all values
apart.
-/

namespace Gazetteer

/-- The units in 1. -/
def unitScale : Nat := Nat.pow 2 1074

/-- One more than every magnitude: `2 ^ 1024`, in units. -/
def magnitudeLimit : Nat := Nat.pow 2 2098

/-- The spacing of magnitudes around `units`: with more than 53 bits, the lower ones are zero. -/
def spacing (units : Nat) : Nat := Nat.pow 2 (units.log2 - 52)

/-- The unit counts that a double holds: at most 53 significant bits, below `2 ^ 1024`. -/
def IsMagnitude (units : Nat) : Prop := units < magnitudeLimit ∧ units % spacing units = 0

instance (units : Nat) : Decidable (IsMagnitude units) := inferInstanceAs (Decidable (_ ∧ _))

theorem isMagnitude_zero : IsMagnitude 0 := by
  refine ⟨?_, Nat.zero_mod _⟩
  unfold magnitudeLimit
  apply Nat.pow_pos
  decide

/-- A double.  One NaN, two infinities, and signed magnitudes (so two zeros). -/
inductive Binary64 where
  | nan
  | infinite (negative : Bool)
  | finite (negative : Bool) (units : Nat) (isMagnitude : IsMagnitude units)
deriving DecidableEq, Repr

/-- The magnitude nearest to `num / den` units; halfway, the one with an even last place.
It ignores the upper end of the range. -/
def nearestMagnitude (num den : Nat) : Nat :=
  let step := den * spacing (num / den)
  let places := num / step
  let rest := num % step
  let up := step < 2 * rest || (step == 2 * rest && places % 2 == 1)
  (if up then places + 1 else places) * spacing (num / den)

namespace Binary64

/-- The double nearest to `num / den` units, with the given sign. -/
def ofUnits (negative : Bool) (num den : Nat) : Binary64 :=
  let units := nearestMagnitude num den
  if h : IsMagnitude units then finite negative units h else infinite negative

/-- The double nearest to a whole number. -/
def ofNat (n : Nat) : Binary64 := ofUnits false (n * unitScale) 1

/-- Zero with a sign. -/
def zero (negative : Bool) : Binary64 := finite negative 0 isMagnitude_zero

def isFinite : Binary64 → Bool
  | finite .. => true
  | _ => false

def negate : Binary64 → Binary64
  | nan => nan
  | infinite s => infinite !s
  | finite s u h => finite (!s) u h

/-- The place of a number on the line, in units; infinities beyond all finite ones, NaN nowhere. -/
def position : Binary64 → Option Int
  | nan => none
  | infinite s => some (if s then -(magnitudeLimit : Int) else magnitudeLimit)
  | finite s u _ => some (if s then -(u : Int) else u)

/-- `a ≤ b` as numbers. -/
def le (a b : Binary64) : Bool :=
  match a.position, b.position with
  | some x, some y => x ≤ y
  | _, _ => false

/-- Equality as numbers: NaN equals nothing, the two zeros are equal. -/
def sameNumber (a b : Binary64) : Bool :=
  match a.position, b.position with
  | some x, some y => x == y
  | _, _ => false

/-- Within `[-limit, limit]`. -/
def within (limit : Nat) (x : Binary64) : Bool := (ofNat limit).negate.le x && x.le (ofNat limit)

end Binary64

end Gazetteer
