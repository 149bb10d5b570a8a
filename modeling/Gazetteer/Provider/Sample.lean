import Gazetteer.Provider.Basic

/-!
# The test provider

Knows one place, for tests and demonstrations.
-/

namespace Gazetteer

namespace Sample

def gotham : Address where
  coordinates := ⟨Binary64.ofNat 20, Binary64.ofNat 40⟩
  locality := some "Gotham City"
  adminArea := some "New Jersey"
  country := some "United States"
  countryCode := some "US"
  formatted := some "Gotham City, United States"
  providedBy := ProviderId.test.name

def places : List Address := [gotham]

/-- Equality up to the case of ASCII letters. -/
def sameName (a b : String) : Bool := a.toList.map Char.toLower == b.toList.map Char.toLower

/-- The places in a locality. -/
def named (text : String) : List Address :=
  places.filter fun a => a.locality.any (sameName · (Text.trim text))

/-- The places at a point. -/
def located (c : Coordinates) : List Address := places.filter (·.coordinates.same c)

end Sample

/-- The provider of the sample places. -/
def Provider.sample {π : Type} : Provider π where
  id := ProviderId.test.name
  label := ProviderId.test.label
  geocode text := return Sample.named text
  reverse c := return Sample.located c

end Gazetteer
