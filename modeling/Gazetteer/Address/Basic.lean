import Gazetteer.Number.Layout

/-!
# Coordinates and addresses

Points in decimal degrees, and the addresses that providers find for them.
-/

namespace Gazetteer

/-- A point in decimal degrees. -/
structure Coordinates where
  latitude : Binary64
  longitude : Binary64
deriving DecidableEq, Repr

namespace Coordinates

/-- `latitude,longitude` in plain number texts. -/
def text (c : Coordinates) : String := c.latitude.text ++ "," ++ c.longitude.text

instance : ToString Coordinates := ⟨text⟩

/-- Equality as numbers: zeros of either sign are the same, NaN is not itself. -/
def same (a b : Coordinates) : Bool :=
  a.latitude.sameNumber b.latitude && a.longitude.sameNumber b.longitude

end Coordinates

/-- A box around a place, in decimal degrees. -/
structure Bounds where
  south : Binary64
  west : Binary64
  north : Binary64
  east : Binary64
deriving DecidableEq, Repr

/-- A place that a provider found. -/
structure Address where
  coordinates : Coordinates
  streetNumber : Option String := none
  streetName : Option String := none
  subLocality : Option String := none
  locality : Option String := none
  postalCode : Option String := none
  adminArea : Option String := none
  country : Option String := none
  countryCode : Option String := none
  /-- The name under which the provider shows the place. -/
  formatted : Option String := none
  bounds : Option Bounds := none
  /-- The id of the provider. -/
  providedBy : String
deriving DecidableEq, Repr

end Gazetteer
