import Gazetteer.Export.Rendering
import Gazetteer.Field.Preparation
import Gazetteer.Geocoder

/-!
# Views of fields

The values of a field are looked up one after the other, and the first address of each is shown in a
format or stored as a point.  Empty values are passed over; values without an address show nothing.
-/

namespace Gazetteer

/-- How the values of a field are looked up. -/
structure FieldLookup where
  providers : List String
  direction : Direction
deriving DecidableEq, Repr

/-- What is shown for a value; `delta` is its place in the field. -/
structure ShownItem where
  delta : Nat
  output : String
deriving DecidableEq, Repr

namespace FieldLookup

variable {π σ : Type}

/-- The first address of each value, with the place of the value, counted from `delta`.  The value
at place `n` is looked up at the time `now n`. -/
def resolve (f : FieldLookup) (g : Geocoder π σ) (now : Nat → Instant) (delta : Nat) :
    List FieldValue → ExceptT Error (LookupM π σ) (List (Nat × Address))
  | [] => return []
  | value :: rest =>
    if value.isEmpty then f.resolve g now (delta + 1) rest
    else do
      let query ← value.query f.direction
      let found ← g.lookup (now delta) ⟨query, f.providers⟩
      let others ← f.resolve g now (delta + 1) rest
      return match found with
        | first :: _ => (delta, first) :: others
        | [] => others

/-- The values in a format. -/
def shown (f : FieldLookup) (g : Geocoder π σ) (now : Nat → Instant) (format : ExportFormat)
    (values : List FieldValue) : ExceptT Error (LookupM π σ) (List ShownItem) := do
  let resolved ← f.resolve g now 0 values
  (resolved.mapM fun (delta, a) => (a.render format).map (ShownItem.mk delta) : Except Error _)

/-- The values as points with their well-known texts. -/
def geofields (f : FieldLookup) (g : Geocoder π σ) (now : Nat → Instant)
    (values : List FieldValue) : ExceptT Error (LookupM π σ) (List Geofield) := do
  let resolved ← f.resolve g now 0 values
  (resolved.mapM fun (_, a) => (a.render .wkt).map (Geofield.mk · a.coordinates) : Except Error _)

end FieldLookup

end Gazetteer
