import Gazetteer.Proofs.Field.Geofields
import Gazetteer.Proofs.Text.Trim

/-!
# Stored and shown in step

A field that is stored as points and a field that is shown as well-known text come to the same from
every state: both have the fault of one lookup, or the fault of one text, or an item for each value
with an address.  The items have one text at each place.  What is stored is a value of a field
again: it is not empty, as every well-known text begins with a keyword, and looked up in reverse it
is the point of the address that it was stored for.

    g.wkt begins with one of keywords                                              (wkt_keyword)
    one address, stored and shown                                             (geofield_inStep)
    a field, stored and shown, with the states that are left                 (geofields_inStep)
-/

namespace Gazetteer

/-! ## Well-known texts are not blank -/

namespace Geometry

/-- How well-known texts begin. -/
def keywords : List String := ["POINT(", "LINESTRING", "POLYGON", "MULTIPOINT", "MULTILINESTRING",
  "MULTIPOLYGON", "GEOMETRYCOLLECTION"]

theorem wkt_keyword (g : Geometry) : ∃ word ∈ keywords, ∃ rest, g.wkt = word ++ rest := by
  cases g with
  | point p => exact ⟨"POINT(", by decide, p.wkt ++ ")", String.append_assoc ..⟩
  | lineString ps => exact ⟨"LINESTRING", by decide, _, rfl⟩
  | polygon p => exact ⟨"POLYGON", by decide, _, rfl⟩
  | multiPoint ps => exact ⟨"MULTIPOINT", by decide, _, rfl⟩
  | multiLineString lines => exact ⟨"MULTILINESTRING", by decide, _, rfl⟩
  | multiPolygon polygons => exact ⟨"MULTIPOLYGON", by decide, _, rfl⟩
  | collection parts => exact ⟨"GEOMETRYCOLLECTION", by decide, _, rfl⟩

theorem trim_wkt_ne_empty (g : Geometry) : Text.trim g.wkt ≠ "" := by
  obtain ⟨word, hword, rest, hwkt⟩ := g.wkt_keyword
  have hletters : keywords.all (fun word => word.toList.any fun c => !Text.isBlank c) = true := by
    decide +kernel
  obtain ⟨c, hc, hletter⟩ := List.any_eq_true.mp (List.all_eq_true.mp hletters word hword)
  rw [Ne, Text.trim_eq_empty_iff, hwkt, String.toList_append]
  intro hblank
  rw [hblank c (List.mem_append_left _ hc)] at hletter
  cases hletter

end Geometry

theorem Address.trim_wkt_ne_empty {a : Address} {text : String} (h : a.render .wkt = .ok text) :
    Text.trim text ≠ "" := by
  rw [render, mapError_eq_ok_iff, toWkt] at h
  cases hgeometry : a.coordinates.geometry with
  | error fault =>
    rw [hgeometry] at h
    cases h
  | ok g =>
    rw [hgeometry] at h
    cases h
    exact g.trim_wkt_ne_empty

/-! ## Fields -/

namespace FieldLookup

variable {π σ : Type} (f : FieldLookup) (g : Geocoder π σ) (now : Nat → Instant)
  (values : List FieldValue) (s : π × σ)

/-- What is stored and what is shown for the value at one place of a field. -/
structure SamePlace (item : Geofield) (element : ShownItem) : Prop where
  value : item.value = element.output
  /-- The stored item is a value to look up. -/
  nonempty : (FieldValue.geofield item).isEmpty = false
  /-- In reverse it is looked up at the first address that is found for the place. -/
  point : ∃ a, f.firstAt? g now 0 values s element.delta = some a ∧
    (FieldValue.geofield item).query .reverse = .ok (.point a.coordinates)

variable {f g now values s}

/-- An address is stored if and only if it is shown. -/
theorem geofield_inStep {delta : Nat} {a : Address}
    (h : f.firstAt? g now 0 values s delta = some a) :
    InStep (f.SamePlace g now values s) a.geofield (showItem .wkt (delta, a)) := by
  unfold Address.geofield showItem
  dsimp only
  cases hrender : a.render .wkt with
  | error e => exact .failed e
  | ok text =>
    apply InStep.succeeded
    constructor
    case value => rfl
    case nonempty =>
      have htext := Address.trim_wkt_ne_empty hrender
      simpa [FieldValue.isEmpty] using htext
    case point => exact ⟨a, h, rfl⟩

variable (f g now values s)

theorem geofields_of_resolved {resolved : List (Nat × Address)} {s' : π × σ}
    (h : (f.resolve g now 0 values).run.run s = (.ok resolved, s')) :
    (f.geofields g now values).run.run s = (resolved.mapM fun a => a.2.geofield, s') :=
  run_bind_ok h

/-- A field is stored as it is shown.  Storing a field and showing it as well-known text fail
with one error, or succeed with one text at each place; and they leave one state.  Each stored item
is a value again, for the point of the first address that was found. -/
theorem geofields_inStep :
    InStep (List.Forall₂ (f.SamePlace g now values s)) ((f.geofields g now values).run.run s).1
      ((f.shown g now .wkt values).run.run s).1 ∧
    ((f.geofields g now values).run.run s).2 = ((f.shown g now .wkt values).run.run s).2 := by
  cases hresolve : (f.resolve g now 0 values).run.run s with
  | mk result s' =>
    cases result with
    | error e =>
      have hstored : (f.geofields g now values).run.run s = (.error e, s') :=
        run_bind_error _ hresolve
      have hshown : (f.shown g now .wkt values).run.run s = (.error e, s') :=
        run_bind_error _ hresolve
      rw [hstored, hshown]
      exact ⟨.failed e, rfl⟩
    | ok resolved =>
      rw [geofields_of_resolved f g now values s hresolve,
        shown_of_resolved f g now .wkt values s hresolve]
      refine ⟨InStep.mapM fun a ha => ?_, rfl⟩
      rw [firsts_of_resolved f g now 0 values s hresolve] at ha
      exact geofield_inStep ((mem_firsts f g now values s a.1 a.2).mp ha)

end FieldLookup

end Gazetteer
