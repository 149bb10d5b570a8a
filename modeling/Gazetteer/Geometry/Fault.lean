import Gazetteer.Geometry.Basic
import Gazetteer.Json.Basic

/-!
# What goes wrong with geometries
-/

namespace Gazetteer

/-- Why a JSON text is no GeoJSON document. -/
inductive GeoJsonFault where
  /-- The text is no JSON. -/
  | malformed
  | notObject (found : Json.Value)
  | notText (found : Json.Value)
  /-- The `type` member of the document is missing or no text. -/
  | untyped
  /-- The document is of no known type. -/
  | unknownDocument
  | unknownGeometry (type : String)
  | notFeature (type : String)
  | missing (member : String)
  /-- Not an array, but a value of the given kind. -/
  | notArray (kind : String)
  | notNumber
  | shortPosition (length : Nat)
  | badGeometry (found : Json.Value)
  | badProperties (found : Json.Value)
  | badId (found : Json.Value)
  | badBox (found : Json.Value)
  | badBoxNumber
  /-- The document holds no geometry at all. -/
  | noGeometry
deriving Inhabited

def GeoJsonFault.message : GeoJsonFault → String
  | malformed => "malformed document"
  | notObject found => "Expected an owned Object, but got `" ++ found.compact ++ "`"
  | notText found => "Expected a String value, but got a `" ++ found.compact ++ "`"
  | untyped => "Encountered an unknown 'geometry' object type: `type`"
  | unknownDocument =>
    "Expected a Feature, FeatureCollection, or Geometry, but got an empty type"
  | unknownGeometry type => "Encountered an unknown 'geometry' object type: `" ++ type ++ "`"
  | notFeature type => "Expected a Feature mapping, but got a `" ++ type ++ "`"
  | missing member => "Expected a GeoJSON property for `" ++ member ++ "`, but got None"
  | notArray kind => "Expected an Array value, but got `" ++ kind ++ "`"
  | notNumber => "Expected a floating-point value, but got None"
  | shortPosition length =>
    "A position must contain two or more elements, but got `" ++ toString length ++ "`"
  | badGeometry found =>
    "Encountered neither object type nor null type for 'geometry' field on 'feature' object: `"
      ++ found.compact ++ "`"
  | badProperties found =>
    "Encountered neither object type nor null type for 'properties' object: `"
      ++ found.compact ++ "`"
  | badId found =>
    "Encountered neither number type nor string type for 'id' field on 'feature' object: `"
      ++ found.compact ++ "`"
  | badBox found =>
    "Encountered non-array value for a 'bbox' object: `" ++ found.compact ++ "`"
  | badBoxNumber => "Encountered non-numeric value within 'bbox' array"
  | noGeometry => "Missing Geometry"

/-- Why a geometry cannot be read or written. -/
inductive GeometryFault where
  | document (cause : GeoJsonFault)
  /-- Only points have a geohash. -/
  | notPoint
  | outOfRange (p : Position)
  | badLength (length : Nat)
deriving Inhabited

def GeometryFault.message : GeometryFault → String
  | document cause => "processing geometry `" ++ cause.message ++ "`"
  | notPoint => "geohash needs a point geometry"
  | outOfRange p =>
    "invalid coordinate range: COORD(" ++ String.ofList (p.x.chars .message) ++ " "
      ++ String.ofList (p.y.chars .message) ++ ")"
  | badLength length =>
    "Invalid length specified: " ++ toString length
      ++ ". Accepted values are between 1 and 12, inclusive"

end Gazetteer
