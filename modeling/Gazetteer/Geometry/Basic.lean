import Gazetteer.Number.Layout

/-!
# Geometries and their well-known text

Shapes on the plane.  Rings of polygons are closed: the first position comes again at the end.
-/

namespace Gazetteer

/-- A position: x is the longitude, y the latitude. -/
structure Position where
  x : Binary64
  y : Binary64
deriving DecidableEq, Repr

/-- A position of another shape is meant to be this one again. -/
def Position.same (a b : Position) : Bool := a.x.sameNumber b.x && a.y.sameNumber b.y

structure Polygon where
  exterior : List Position
  interiors : List (List Position)
deriving DecidableEq, Repr

/-- The ring through some positions: the first is repeated at the end unless it stands there. -/
def closedRing : List Position → List Position
  | [] => []
  | p :: ps => if (p :: ps).getLast?.any p.same then p :: ps else p :: ps ++ [p]

/-- The polygon with the given rings, the exterior first.  Without any, its exterior is empty. -/
def Polygon.ofRings : List (List Position) → Polygon
  | [] => ⟨[], []⟩
  | exterior :: interiors => ⟨closedRing exterior, interiors.map closedRing⟩

inductive Geometry where
  | point (p : Position)
  | lineString (ps : List Position)
  | polygon (p : Polygon)
  | multiPoint (ps : List Position)
  | multiLineString (lines : List (List Position))
  | multiPolygon (polygons : List Polygon)
  | collection (parts : List Geometry)
deriving Inhabited

/-! ## Well-known text -/

def Position.wkt (p : Position) : String := p.x.text ++ " " ++ p.y.text

/-- Parts in parentheses, or `EMPTY`, which follows a keyword after a space. -/
def wktGroup (afterKeyword : Bool) (parts : List String) : String :=
  if parts.isEmpty then (if afterKeyword then " EMPTY" else "EMPTY")
  else "(" ++ ",".intercalate parts ++ ")"

/-- A list of positions as a part of a larger shape. -/
def wktLine (ps : List Position) : String := wktGroup false (ps.map Position.wkt)

/-- The rings of a polygon. -/
def Polygon.wkt (p : Polygon) : String := wktGroup false ((p.exterior :: p.interiors).map wktLine)

namespace Geometry

mutual

/-- The well-known text of a geometry. -/
def wkt : Geometry → String
  | point p => "POINT(" ++ p.wkt ++ ")"
  | lineString ps => "LINESTRING" ++ wktGroup true (ps.map Position.wkt)
  | polygon p => "POLYGON" ++ p.wkt
  | multiPoint ps => "MULTIPOINT" ++ wktGroup true (ps.map Position.wkt)
  | multiLineString lines => "MULTILINESTRING" ++ wktGroup true (lines.map wktLine)
  | multiPolygon polygons => "MULTIPOLYGON" ++ wktGroup true (polygons.map Polygon.wkt)
  | collection parts => "GEOMETRYCOLLECTION" ++ wktGroup true (wktTexts parts)

def wktTexts : List Geometry → List String
  | [] => []
  | g :: rest => g.wkt :: wktTexts rest

end

end Geometry

end Gazetteer
