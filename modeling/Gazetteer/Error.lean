import Gazetteer.Export.Format
import Gazetteer.Field.Basic
import Gazetteer.Geometry.Fault
import Gazetteer.Provider.Id

/-!
# Errors

The causes for which a lookup or an export fails, and their messages.  That nothing was found is no
error.
-/

namespace Gazetteer

inductive Axis where
  | latitude
  | longitude
deriving DecidableEq, Repr

def Axis.name : Axis → String
  | latitude => "latitude"
  | longitude => "longitude"

/-- Why a text is no pair of coordinates. -/
inductive CoordinateFault where
  | notPair
  | notNumber (axis : Axis) (part : String)
  | outOfRange (axis : Axis) (value : Binary64)
deriving DecidableEq, Repr

def CoordinateFault.message : CoordinateFault → String
  | notPair => "expected \"lat,lon\""
  | notNumber axis part => axis.name ++ " '" ++ part ++ "' is not a number"
  | outOfRange axis value => axis.name ++ " " ++ value.text ++ " out of range"

inductive Error where
  | malformedCoordinates (input : String) (fault : CoordinateFault)
  /-- A request without providers. -/
  | noProviders
  /-- A provider cannot work without a key. -/
  | missingApiKey (id : ProviderId)
  | unknownProvider (name : String)
  | unknownFormat (name : String)
  | unsupportedField (kind : FieldKind) (direction : Direction)
  | geometry (fault : GeometryFault)
deriving Inhabited

def Error.message : Error → String
  | malformedCoordinates input fault =>
    "malformed coordinates '" ++ input ++ "': " ++ fault.message
  | noProviders => "configuration error: no providers given for the request"
  | missingApiKey id =>
    "configuration error: No API key configured for provider '" ++ id.name
      ++ "'.\nHint: run `geocoder configure " ++ id.name ++ "` and enter your API key."
  | unknownProvider name => "unknown provider '" ++ name ++ "'"
  | unknownFormat name =>
    "unknown dumper '" ++ name ++ "'. Supported dumpers: "
      ++ ", ".intercalate (ExportFormat.all.map ExportFormat.name)
  | unsupportedField kind direction =>
    kind.name ++ " fields cannot be prepared for " ++ direction.name
  | geometry fault => "geometry conversion failed: " ++ fault.message

/-- The built-in provider with a name. -/
def ProviderId.ofName (name : String) : Except Error ProviderId :=
  match ofName? name with
  | some id => .ok id
  | none => .error (.unknownProvider name)

/-- The format with a name. -/
def ExportFormat.ofName (name : String) : Except Error ExportFormat :=
  match ofName? name with
  | some format => .ok format
  | none => .error (.unknownFormat name)

end Gazetteer
