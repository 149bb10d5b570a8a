import Gazetteer.Geometry.Fault

/-!
# Geohashes

A geohash interleaves the leading bits of longitude and latitude, each as a fraction of its range,
and writes them in groups of five.  The fractions are computed in doubles, with one rounding after
the product and one after the sum, so points at the upper end of a range wrap around to the lower.
-/

namespace Gazetteer

namespace Geohash

/-- The double nearest to 1/180, in units. -/
def perHalfTurn : Nat := nearestMagnitude unitScale 180

/-- The double nearest to 1/360, in units. -/
def perTurn : Nat := nearestMagnitude unitScale 360

/-- `x · factor + 1.5`, rounded after each step, in units. -/
def shifted (factor : Nat) (x : Int) : Nat :=
  let product : Int := nearestMagnitude (x.natAbs * factor) unitScale
  let signed := if x < 0 then -product else product
  nearestMagnitude (signed + (3 * unitScale / 2 : Nat)).toNat 1

/-- The leading 32 bits of what `shifted` has beyond 1. -/
def leadingBits (factor : Nat) (x : Int) : Nat :=
  (shifted factor x - unitScale) * UInt32.size / unitScale % UInt32.size

/-- Bit number `i` of a 32-bit number, from the left. -/
def bit (n i : Nat) : Nat := n / Nat.pow 2 (31 - i) % 2

/-- Bit number `i` of the interleaved numbers: longitude first. -/
def interleavedBit (lon lat i : Nat) : Nat := if i % 2 = 0 then bit lon (i / 2) else bit lat (i / 2)

def alphabet : List Char := "0123456789bcdefghjkmnpqrstuvwxyz".toList

/-- Character number `i` of a geohash. -/
def digit (lon lat i : Nat) : Char :=
  let code := (List.range 5).foldl (fun n j => 2 * n + interleavedBit lon lat (5 * i + j)) 0
  alphabet.getD code '0'

end Geohash

/-- The geohash of a point with a number of characters. -/
def Geometry.geohash (g : Geometry) (length : Nat) : Except GeometryFault String :=
  match g with
  | .point p =>
    match p.x.within 180 && p.y.within 90, p.x.position, p.y.position with
    | true, some x, some y =>
      if 1 ≤ length ∧ length ≤ 12 then
        let lon := Geohash.leadingBits Geohash.perTurn x
        let lat := Geohash.leadingBits Geohash.perHalfTurn y
        .ok (String.ofList ((List.range length).map (Geohash.digit lon lat)))
      else .error (.badLength length)
    | _, _, _ => .error (.outOfRange p)
  | _ => .error .notPoint

end Gazetteer
