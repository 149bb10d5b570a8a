import Gazetteer.Text.Letters

/-!
# Output formats

The formats in which an address is written, in the order in which they are listed.
-/

namespace Gazetteer

inductive ExportFormat where
  | geoJson
  | gpx
  | kml
  | wkt
  | geohash
  | addressText
deriving DecidableEq, Repr

namespace ExportFormat

def name : ExportFormat → String
  | geoJson => "geojson"
  | gpx => "gpx"
  | kml => "kml"
  | wkt => "wkt"
  | geohash => "geohash"
  | addressText => "address_text"

def label : ExportFormat → String
  | geoJson => "GeoJSON"
  | gpx => "GPS Exchange Format (GPX)"
  | kml => "Keyhole Markup Language (KML)"
  | wkt => "Well-known text (WKT)"
  | geohash => "Geohash"
  | addressText => "Address text"

def all : List ExportFormat := [geoJson, gpx, kml, wkt, geohash, addressText]

/-- The format with a name, in any letter case. -/
def ofName? (name : String) : Option ExportFormat := all.find? fun f => f.name == Text.lower name

end ExportFormat

end Gazetteer
