import Gazetteer.Geometry.Fault
import Gazetteer.Json.Document

/-!
# Geometries from GeoJSON

`Geometry.ofGeoJson` reads a geometry, a feature or a collection of features.  A feature stands for
its geometry; a collection of features for its only geometry or for the collection of all.  Members
are looked at in a fixed order, so of two faults the same one is always reported: in a geometry the
box, the type, the coordinates; in a feature the type, the geometry, the other members, the box; in
a collection of features the type, the box, the features.
-/

namespace Gazetteer

open Json (Value)

/-- Where reading GeoJSON can stop. -/
abbrev Reading := Except GeoJsonFault

namespace GeoJson

abbrev Members := List (String × Value)

def member (name : String) (m : Members) : Reading Value :=
  match m.lookup name with
  | some v => .ok v
  | none => .error (.missing name)

/-- The kind of a value that is no array. -/
def kindName : Value → String
  | .null => "Null"
  | .bool _ => "Bool"
  | .natural _ | .negative _ | .double _ => "Number"
  | .text _ => "String"
  | .array _ => "Array"
  | .object _ => "Object"

/-- The items of a list of features or geometries. -/
def items : Value → Reading (List Value)
  | .array l => .ok l
  | v => .error (.notArray (kindName v))

/-- The items of a list of coordinates. -/
def coordinateItems : Value → Reading (List Value)
  | .array l => .ok l
  | _ => .error (.notArray "None")

def number? : Value → Option Binary64
  | .natural n => some (Binary64.ofNat n)
  | .negative n => some (Binary64.ofNat n).negate
  | .double x => some x
  | _ => none

/-- The type of an object inside a document. -/
def typeName (m : Members) : Reading String := do
  match ← member "type" m with
  | .text s => .ok s
  | v => .error (.notText v)

/-- The box of an object is checked and not used. -/
def checkBox (m : Members) : Reading Unit :=
  match m.lookup "bbox" with
  | none | some .null => .ok ()
  | some (.array l) => if l.all (number? · |>.isSome) then .ok () else .error .badBoxNumber
  | some v => .error (.badBox v)

/-! ## Coordinates -/

/-- A position has two numbers or more; the first two are used. -/
def position (v : Value) : Reading Position := do
  let l ← coordinateItems v
  if l.length < 2 then .error (.shortPosition l.length)
  else
    let numbers ← l.mapM fun v => match number? v with
      | some x => .ok x
      | none => .error .notNumber
    match numbers with
    | x :: y :: _ => .ok ⟨x, y⟩
    | _ => .error (.shortPosition l.length)

def line (v : Value) : Reading (List Position) := do (← coordinateItems v).mapM position

def lines (v : Value) : Reading (List (List Position)) := do (← coordinateItems v).mapM line

def polygons (v : Value) : Reading (List (List (List Position))) := do
  (← coordinateItems v).mapM lines

/-! ## Geometries -/

/-- The geometry of an object with coordinates. -/
def simple (type : String) (m : Members) : Reading Geometry := do
  match type with
  | "Point" => return .point (← position (← member "coordinates" m))
  | "MultiPoint" => return .multiPoint (← line (← member "coordinates" m))
  | "LineString" => return .lineString (← line (← member "coordinates" m))
  | "MultiLineString" => return .multiLineString (← lines (← member "coordinates" m))
  | "Polygon" => return .polygon (.ofRings (← lines (← member "coordinates" m)))
  | "MultiPolygon" =>
    return .multiPolygon ((← polygons (← member "coordinates" m)).map Polygon.ofRings)
  | other => .error (.unknownGeometry other)

/-- The geometry of an object.  Collections may nest up to `depth` times. -/
def geometry : Nat → Members → Reading Geometry
  | 0, _ => .error .malformed
  | depth + 1, m => do
    checkBox m
    let type ← typeName m
    if type = "GeometryCollection" then
      let parts ← (← items (← member "geometries" m)).mapM fun
        | .object m => geometry depth m
        | v => .error (.notObject v)
      return .collection parts
    else simple type m

/-! ## Features -/

/-- Documents nest no deeper than values do. -/
def geometryDepth : Nat := Json.Tree.maxDepth + 1

/-- The geometry of a feature, if it has one. -/
def featureGeometry (m : Members) : Reading (Option Geometry) := do
  match ← member "geometry" m with
  | .object g => return some (← geometry geometryDepth g)
  | .null => return none
  | v => .error (.badGeometry v)

def checkProperties (m : Members) : Reading Unit :=
  match m.lookup "properties" with
  | none | some .null | some (.object _) => .ok ()
  | some v => .error (.badProperties v)

def checkId (m : Members) : Reading Unit :=
  match m.lookup "id" with
  | none | some (.text _) => .ok ()
  | some v => if (number? v).isSome then .ok () else .error (.badId v)

def feature (m : Members) : Reading (Option Geometry) := do
  let type ← typeName m
  if type ≠ "Feature" then .error (.notFeature type)
  let g ← featureGeometry m
  checkProperties m
  checkId m
  checkBox m
  return g

/-- The geometries of a collection of features, in order. -/
def features (m : Members) : Reading (List Geometry) := do
  checkBox m
  let l ← (← items (← member "features" m)).mapM fun
    | .object f => feature f
    | v => .error (.notObject v)
  return l.filterMap id

def geometryTypes : List String :=
  ["Point", "MultiPoint", "LineString", "MultiLineString", "Polygon", "MultiPolygon",
    "GeometryCollection"]

/-- The geometry of a document. -/
def document (v : Value) : Reading Geometry := do
  match v with
  | .object m =>
    match m.lookup "type" with
    | some (.text type) =>
      let found ← if type = "FeatureCollection" then features m
        else if type = "Feature" then (feature m).map Option.toList
        else if type ∈ geometryTypes then (geometry geometryDepth m).map fun g => [g]
        else .error .unknownDocument
      match found with
      | [] => .error .noGeometry
      | [g] => return g
      | several => return .collection several
    | _ => .error .untyped
  | v => .error (.notObject v)

end GeoJson

/-- Reads a GeoJSON text. -/
def Geometry.ofGeoJson (text : String) : Except GeometryFault Geometry :=
  let read := match Value.ofText? text with
    | some v => GeoJson.document v
    | none => .error .malformed
  read.mapError .document

end Gazetteer
