import Gazetteer.Address.Basic
import Gazetteer.Text.Blank

/-!
# Field values

The values that a content field holds before they are looked up: free text, a stored point with its
geometry, or a postal address.
-/

namespace Gazetteer

/-- Which way a value is looked up. -/
inductive Direction where
  | geocode
  | reverse
deriving DecidableEq, Repr

/-- The name of a direction in messages. -/
def Direction.name : Direction → String
  | geocode => "geocode"
  | reverse => "reverse geocode"

inductive FieldKind where
  | text
  | geofield
  | address
deriving DecidableEq, Repr

def FieldKind.name : FieldKind → String
  | text => "text"
  | geofield => "geofield"
  | address => "address"

/-- A stored point: a geometry text and the point's coordinates. -/
structure Geofield where
  value : String
  coordinates : Coordinates
deriving DecidableEq, Repr

structure PostalAddress where
  line1 : Option String := none
  line2 : Option String := none
  locality : Option String := none
  administrativeArea : Option String := none
  postalCode : Option String := none
  countryCode : Option String := none
deriving DecidableEq, Repr

/-- The components that are present and not blank, trimmed. -/
def PostalAddress.components (a : PostalAddress) : List String :=
  let all := [a.line1, a.line2, a.locality, a.administrativeArea, a.postalCode, a.countryCode]
  ((all.filterMap id).map Text.trim).filter fun c => !c.isEmpty

inductive FieldValue where
  | text (s : String)
  | geofield (item : Geofield)
  | address (a : PostalAddress)
deriving DecidableEq, Repr

namespace FieldValue

def kind : FieldValue → FieldKind
  | text _ => .text
  | geofield _ => .geofield
  | address _ => .address

/-- Nothing to look up. -/
def isEmpty : FieldValue → Bool
  | text s => (Text.trim s).isEmpty
  | geofield item => (Text.trim item.value).isEmpty
  | address a => a.components.isEmpty

end FieldValue

end Gazetteer
