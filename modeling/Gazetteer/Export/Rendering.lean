import Gazetteer.Address.Label
import Gazetteer.Address.Json
import Gazetteer.Error
import Gazetteer.Geometry.GeoJson
import Gazetteer.Geometry.Geohash
import Gazetteer.Program
import Gazetteer.Xml

/-!
# Addresses in output formats

`Address.render` writes an address in one of the formats.  Well-known text and geohash start from
the GeoJSON text of the point, so they see its coordinates as that text is read, and there are
none for coordinates that JSON cannot write.
-/

namespace Gazetteer

open Json (Value)

/-! ## GeoJSON -/

/-- An object with its members in the order of their keys. -/
def sortedObject (members : List (String × Value)) : Value := .object (Table.ofList members).entries

/-- The GeoJSON of a point: longitude first. -/
def Coordinates.toGeoJson (c : Coordinates) : Value :=
  sortedObject [("type", .text "Point"),
    ("coordinates", .array [.double c.longitude, .double c.latitude])]

/-- The geometry that the GeoJSON text of a point is read as. -/
def Coordinates.geometry (c : Coordinates) : Except GeometryFault Geometry :=
  Geometry.ofGeoJson c.toGeoJson.compact

namespace Address

/-- The components of an address under their GeoJSON names. -/
def properties (a : Address) : Value :=
  sortedObject (presentMembers [
    ("streetNumber", a.streetNumber.map .text),
    ("streetName", a.streetName.map .text),
    ("subLocality", a.subLocality.map .text),
    ("locality", a.locality.map .text),
    ("postalCode", a.postalCode.map .text),
    ("adminArea", a.adminArea.map .text),
    ("country", a.country.map .text),
    ("countryCode", a.countryCode.map .text),
    ("formattedAddress", a.formatted.map .text),
    ("providedBy", some (.text a.providedBy))])

/-- A feature with a point and the components of the address. -/
def toFeature (a : Address) : Value :=
  let bounds (b : Bounds) := sortedObject
    [("south", .double b.south), ("west", .double b.west), ("north", .double b.north),
      ("east", .double b.east)]
  sortedObject (presentMembers [
    ("type", some (.text "Feature")),
    ("geometry", some a.coordinates.toGeoJson),
    ("properties", some a.properties),
    ("bounds", a.bounds.map bounds)])

/-! ## Waypoint and placemark documents -/

/-- Degrees with seven places. -/
def degreesText (x : Binary64) : String := x.fixed 7

/-- A document with one waypoint. -/
def toGpx (a : Address) : Xml.Document :=
  let bounds (b : Bounds) := Xml.Element.empty "bounds"
    [("minlat", degreesText b.south), ("minlon", degreesText b.west),
      ("maxlat", degreesText b.north), ("maxlon", degreesText b.east)]
  let waypoint := Xml.Element.parent "wpt"
    [("lat", degreesText a.coordinates.latitude), ("lon", degreesText a.coordinates.longitude)]
    [.sections "name" a.label, .sections "type" "Address"]
  let root := Xml.Element.parent "gpx"
    [("version", "1.0"), ("creator", programName ++ " " ++ programVersion),
      ("xmlns:xsi", "http://www.w3.org/2001/XMLSchema-instance"),
      ("xmlns", "http://www.topografix.com/GPX/1/0"),
      ("xsi:schemaLocation",
        "http://www.topografix.com/GPX/1/0 http://www.topografix.com/GPX/1/0/gpx.xsd")]
    ((a.bounds.map bounds).toList ++ [waypoint])
  ⟨some "no", root⟩

/-- A document with one placemark. -/
def toKml (a : Address) : Xml.Document :=
  let position := degreesText a.coordinates.longitude ++ ","
    ++ degreesText a.coordinates.latitude ++ ",0"
  let placemark := Xml.Element.parent "Placemark" []
    [.sections "name" a.label, .sections "description" a.label,
      .parent "Point" [] [.text "coordinates" position]]
  ⟨none, .parent "kml" [("xmlns", "http://www.opengis.net/kml/2.2")]
    [.parent "Document" [] [placemark]]⟩

/-! ## Geometry texts -/

def toWkt (a : Address) : Except GeometryFault String := a.coordinates.geometry.map Geometry.wkt

def toGeohash (length : Nat) (a : Address) : Except GeometryFault String := do
  (← a.coordinates.geometry).geohash length

/-- The length of a geohash unless another is asked for. -/
def geohashLength : Nat := 12

/-- The address in a format. -/
def render (a : Address) (format : ExportFormat) : Except Error String :=
  match format with
  | .geoJson => .ok a.toFeature.compact
  | .gpx => .ok a.toGpx.render
  | .kml => .ok a.toKml.render
  | .wkt => a.toWkt.mapError .geometry
  | .geohash => (a.toGeohash geohashLength).mapError .geometry
  | .addressText => .ok a.label

end Address

end Gazetteer
