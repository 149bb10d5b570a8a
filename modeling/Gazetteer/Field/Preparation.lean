import Gazetteer.Error
import Gazetteer.Query

/-!
# From field values to queries

A value becomes a query in a direction: texts and postal addresses are looked up as texts, texts and
stored points as points.  `Coordinates.ofText` reads `lat,lon`.
-/

namespace Gazetteer

/-- A finite number of degrees. -/
def degrees (input : String) (axis : Axis) (part : List Char) : Except Error Binary64 :=
  match Binary64.ofChars? part with
  | some x =>
    if x.isFinite then .ok x
    else .error (.malformedCoordinates input (.notNumber axis (String.ofList part)))
  | none => .error (.malformedCoordinates input (.notNumber axis (String.ofList part)))

/-- Reads two numbers with a comma between them and blanks around them.  What follows a second comma
is passed over. -/
def Coordinates.ofText (input : String) : Except Error Coordinates :=
  match (Text.splitAt ',' input.toList).map Text.trimChars with
  | first :: second :: _ => do
    let latitude ← degrees input .latitude first
    let longitude ← degrees input .longitude second
    if !latitude.within 90 then
      .error (.malformedCoordinates input (.outOfRange .latitude latitude))
    else if !longitude.within 180 then
      .error (.malformedCoordinates input (.outOfRange .longitude longitude))
    else .ok ⟨latitude, longitude⟩
  | _ => .error (.malformedCoordinates input .notPair)

namespace FieldValue

/-- The query that a value asks in a direction. -/
def query (value : FieldValue) (direction : Direction) : Except Error Query :=
  match value, direction with
  | text s, .geocode => .ok (.text (Text.trim s))
  | text s, .reverse => (Coordinates.ofText s).map .point
  | geofield item, .reverse => .ok (.point item.coordinates)
  | address a, .geocode => .ok (.text (", ".intercalate a.components))
  | value, direction => .error (.unsupportedField value.kind direction)

end FieldValue

end Gazetteer
