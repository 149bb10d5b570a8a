import Gazetteer.Text.Letters

/-!
# Built-in providers

The providers that every configuration knows by name, in the order in which they are listed.
-/

namespace Gazetteer

inductive ProviderId where
  | test
  | openStreetMap
  | mapsCo
deriving DecidableEq, Repr

namespace ProviderId

def name : ProviderId → String
  | test => "test_provider"
  | openStreetMap => "openstreetmap"
  | mapsCo => "mapsco"

def label : ProviderId → String
  | test => "Test provider"
  | openStreetMap => "OpenStreetMap (Nominatim)"
  | mapsCo => "geocode.maps.co"

def requiresApiKey : ProviderId → Bool
  | mapsCo => true
  | _ => false

def all : List ProviderId := [test, openStreetMap, mapsCo]

/-- The provider with a name, in any letter case. -/
def ofName? (name : String) : Option ProviderId := all.find? fun id => id.name == Text.lower name

end ProviderId

end Gazetteer
