import Gazetteer.Address.Basic
import Gazetteer.Json.Document

/-!
# Addresses as JSON

`Address.toJson` writes the fields of an address in a fixed order and leaves out those that are
absent; `Address.ofTree?` reads them in any order, or from an array of all of them.
-/

namespace Gazetteer

open Json (Tree Value)

/-- Present members only. -/
def presentMembers (members : List (String × Option Value)) : List (String × Value) :=
  members.filterMap fun (name, value) => value.map (name, ·)

namespace Coordinates

def toJson (c : Coordinates) : Value :=
  .object [("latitude", .double c.latitude), ("longitude", .double c.longitude)]

def ofTree? (t : Tree) : Option Coordinates := do
  match ← t.fields? ["latitude", "longitude"] with
  | [latitude, longitude] =>
    return ⟨← Tree.required Tree.double? latitude, ← Tree.required Tree.double? longitude⟩
  | _ => none

end Coordinates

namespace Bounds

def toJson (b : Bounds) : Value :=
  .object [("south", .double b.south), ("west", .double b.west), ("north", .double b.north),
    ("east", .double b.east)]

def ofTree? (t : Tree) : Option Bounds := do
  match ← t.fields? ["south", "west", "north", "east"] with
  | [south, west, north, east] =>
    return ⟨← Tree.required Tree.double? south, ← Tree.required Tree.double? west,
      ← Tree.required Tree.double? north, ← Tree.required Tree.double? east⟩
  | _ => none

end Bounds

namespace Address

def fieldNames : List String :=
  ["coordinates", "street_number", "street_name", "sub_locality", "locality", "postal_code",
    "admin_area", "country", "country_code", "formatted", "bounds", "provided_by"]

def toJson (a : Address) : Value :=
  .object (presentMembers [
    ("coordinates", some a.coordinates.toJson),
    ("street_number", a.streetNumber.map .text),
    ("street_name", a.streetName.map .text),
    ("sub_locality", a.subLocality.map .text),
    ("locality", a.locality.map .text),
    ("postal_code", a.postalCode.map .text),
    ("admin_area", a.adminArea.map .text),
    ("country", a.country.map .text),
    ("country_code", a.countryCode.map .text),
    ("formatted", a.formatted.map .text),
    ("bounds", a.bounds.map Bounds.toJson),
    ("provided_by", some (.text a.providedBy))])

def ofTree? (t : Tree) : Option Address := do
  match ← t.fields? fieldNames with
  | [coordinates, streetNumber, streetName, subLocality, locality, postalCode, adminArea, country,
      countryCode, formatted, bounds, providedBy] =>
    return {
      coordinates := ← Tree.required Coordinates.ofTree? coordinates
      streetNumber := ← Tree.optional Tree.text? streetNumber
      streetName := ← Tree.optional Tree.text? streetName
      subLocality := ← Tree.optional Tree.text? subLocality
      locality := ← Tree.optional Tree.text? locality
      postalCode := ← Tree.optional Tree.text? postalCode
      adminArea := ← Tree.optional Tree.text? adminArea
      country := ← Tree.optional Tree.text? country
      countryCode := ← Tree.optional Tree.text? countryCode
      formatted := ← Tree.optional Tree.text? formatted
      bounds := ← Tree.optional Bounds.ofTree? bounds
      providedBy := ← Tree.required Tree.text? providedBy }
  | _ => none

/-- Addresses as the text of an array. -/
def listToText (addresses : List Address) : String := (Value.array (addresses.map toJson)).compact

def listOfText? (text : String) : Option (List Address) := do
  (← Tree.ofText? text).list? ofTree?

end Address

end Gazetteer
