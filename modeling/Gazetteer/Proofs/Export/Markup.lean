import Mathlib.Data.List.Forall2
import Gazetteer.Export.Rendering
import Gazetteer.Proofs.Number.Fixed
import Gazetteer.Proofs.Xml.ReadBack

/-!
# Waypoints and placemarks are read back

The documents of an address, read by a plain reader of XML, say what they are to say: a waypoint at
the texts of its degrees, with the label for its name, and the bounds if the address has some; a
placemark with the label for name and description, at a point.  The label may hold any characters,
those of marks, tags and entities among them.  Degrees have seven places, rounded to the nearest.

    a.toGpx.root.Proper, a.toKml.root.Proper                (proper_toGpx, proper_toKml)
    what is read for the two documents of an address        (documents_exact)
-/

namespace Gazetteer

open Xml (Node Element IsName IsTag)

theorem Xml.IsTag.of_keys {name : String} {attributes : List (String × String)}
    (keys : List String) (hkeys : attributes.map (·.1) = keys)
    (h : IsName name ∧ (∀ key ∈ keys, IsName key) ∧ keys.Nodup) : IsTag name attributes := by
  subst hkeys
  exact ⟨h.1, fun a ha => h.2.1 a.1 (List.mem_map_of_mem ha), h.2.2⟩

namespace Address

/-- The element of a box, by the corners of least and greatest degrees. -/
def IsBox (b : Bounds) (n : Node) : Prop :=
  ∃ south west north east, b.south.ShownAs 7 south ∧ b.west.ShownAs 7 west ∧
    b.north.ShownAs 7 north ∧ b.east.ShownAs 7 east ∧
    n = .element "bounds"
      [("minlat", south), ("minlon", west), ("maxlat", north), ("maxlon", east)] "" []

/-- The element of a waypoint at a point, with a name. -/
def IsWaypoint (c : Coordinates) (label : String) (n : Node) : Prop :=
  ∃ latitude longitude, c.latitude.ShownAs 7 latitude ∧ c.longitude.ShownAs 7 longitude ∧
    n = .element "wpt" [("lat", latitude), ("lon", longitude)] ""
      [.element "name" [] label [], .element "type" [] "Address" []]

/-- The element of a placemark at a point, with a name that is its description too. -/
def IsPlacemark (c : Coordinates) (label : String) (n : Node) : Prop :=
  ∃ latitude longitude, c.latitude.ShownAs 7 latitude ∧ c.longitude.ShownAs 7 longitude ∧
    n = .element "Placemark" [] ""
      [.element "name" [] label [], .element "description" [] label [],
        .element "Point" [] ""
          [.element "coordinates" [] (longitude ++ "," ++ latitude ++ ",0") []]]

theorem shownAs_degreesText (x : Binary64) : x.ShownAs 7 (degreesText x) :=
  Binary64.shownAs_fixed (by decide) x

theorem proper_toGpx (a : Address) : a.toGpx.root.Proper := by
  have hwaypoint (c : Coordinates) (label : String) : Element.Proper (.parent "wpt"
      [("lat", degreesText c.latitude), ("lon", degreesText c.longitude)]
      [.sections "name" label, .sections "type" "Address"]) :=
    ⟨.of_keys ["lat", "lon"] rfl (by decide +kernel), by simp, (by decide +kernel : IsName "name"),
      (by decide +kernel : IsName "type"), trivial⟩
  have hbounds (b : Bounds) : Element.Proper (.empty "bounds"
      [("minlat", degreesText b.south), ("minlon", degreesText b.west),
        ("maxlat", degreesText b.north), ("maxlon", degreesText b.east)]) :=
    .of_keys ["minlat", "minlon", "maxlat", "maxlon"] rfl (by decide +kernel)
  refine ⟨.of_keys ["version", "creator", "xmlns:xsi", "xmlns", "xsi:schemaLocation"] rfl
    (by decide +kernel), by simp, ?_⟩
  cases a.bounds with
  | none => exact ⟨hwaypoint _ _, trivial⟩
  | some b => exact ⟨hbounds b, hwaypoint _ _, trivial⟩

theorem proper_toKml (a : Address) : a.toKml.root.Proper := by
  have hplain (name : String) (h : IsName name) : IsTag name [] := Xml.isTag_of_isName h
  have hpoint (position : String) : Element.Proper (.parent "Point" []
      [.text "coordinates" position]) :=
    ⟨hplain _ (by decide +kernel), by simp, (by decide +kernel : IsName "coordinates"), trivial⟩
  have hplacemark (label position : String) : Element.Proper (.parent "Placemark" []
      [.sections "name" label, .sections "description" label,
        .parent "Point" [] [.text "coordinates" position]]) :=
    ⟨hplain _ (by decide +kernel), by simp, (by decide +kernel : IsName "name"),
      (by decide +kernel : IsName "description"), hpoint position, trivial⟩
  have hdocument := hplacemark a.label (degreesText a.coordinates.longitude ++ ","
    ++ degreesText a.coordinates.latitude ++ ",0")
  exact ⟨.of_keys ["xmlns"] rfl (by decide +kernel), by simp,
    ⟨hplain _ (by decide +kernel), by simp, hdocument, trivial⟩, trivial⟩

/-- What is read for the documents of an address. -/
structure DocumentsExact (a : Address) (label gpx kml : String) : Prop where
  gpx : ∃ attributes boxes waypoint,
    Node.ofText? gpx = some (.element "gpx" attributes "" (boxes ++ [waypoint])) ∧
      List.Forall₂ IsBox a.bounds.toList boxes ∧ IsWaypoint a.coordinates label waypoint
  kml : ∃ attributes placemark,
    Node.ofText? kml =
      some (.element "kml" attributes "" [.element "Document" [] "" [placemark]]) ∧
      IsPlacemark a.coordinates label placemark

theorem documents_exact (a : Address) : ∃ label gpx kml, a.render .addressText = .ok label ∧
    a.render .gpx = .ok gpx ∧ a.render .kml = .ok kml ∧ a.DocumentsExact label gpx kml := by
  have hlatitude := shownAs_degreesText a.coordinates.latitude
  have hlongitude := shownAs_degreesText a.coordinates.longitude
  refine ⟨a.label, a.toGpx.render, a.toKml.render, rfl, rfl, rfl, ?gpx, ?kml⟩
  case gpx =>
    have hwaypoint : IsWaypoint a.coordinates a.label _ := ⟨_, _, hlatitude, hlongitude, rfl⟩
    rw [Node.ofText?_render a.toGpx (by simp [Xml.IsAnswer, toGpx]) a.proper_toGpx]
    unfold toGpx
    cases a.bounds with
    | none => exact ⟨_, [], _, rfl, .nil, hwaypoint⟩
    | some b =>
      have hbox : IsBox b _ := ⟨_, _, _, _, shownAs_degreesText b.south, shownAs_degreesText b.west,
        shownAs_degreesText b.north, shownAs_degreesText b.east, rfl⟩
      exact ⟨_, [_], _, rfl, .cons hbox .nil, hwaypoint⟩
  case kml =>
    rw [Node.ofText?_render a.toKml (by simp [Xml.IsAnswer, toKml]) a.proper_toKml]
    exact ⟨_, _, rfl, ⟨_, _, hlatitude, hlongitude, rfl⟩⟩

/-- Both degrees are halfway between two numbers of seven places. -/
theorem documents_exact_halfway :
    let a : Address :=
      { coordinates := ⟨.ofDecimal false ⟨390625, -8⟩, .ofDecimal true ⟨1171875, -8⟩⟩
        bounds := some ⟨.nan, .infinite true, .zero true, .ofDecimal false ⟨99999999996, -8⟩⟩
        locality := some "<]]>&"
        providedBy := "p" }
    ∃ gpx kml gpxAttributes kmlAttributes, a.render .gpx = .ok gpx ∧ a.render .kml = .ok kml ∧
      Node.ofText? gpx = some (.element "gpx" gpxAttributes ""
        [.element "bounds" [("minlat", "NaN"), ("minlon", "-inf"), ("maxlat", "-0.0000000"),
          ("maxlon", "1000.0000000")] "" [],
        .element "wpt" [("lat", "0.0039062"), ("lon", "-0.0117188")] ""
          [.element "name" [] "<]]>&" [], .element "type" [] "Address" []]]) ∧
      Node.ofText? kml = some (.element "kml" kmlAttributes ""
        [.element "Document" [] "" [.element "Placemark" [] ""
          [.element "name" [] "<]]>&" [], .element "description" [] "<]]>&" [],
            .element "Point" [] ""
              [.element "coordinates" [] "-0.0117188,0.0039062,0" []]]]]) := by
  intro a
  obtain ⟨label, gpx, kml, hlabel, hgpx, hkml, hread⟩ := documents_exact a
  have hname : a.label = "<]]>&" := by decide +kernel
  obtain rfl : label = "<]]>&" := (Except.ok.inj hlabel).symm.trans hname
  have hshown {x : Binary64} {text : String} (hx : x.ShownAs 7 text) (shown : String)
      (h : shown = x.fixed 7) : text = shown :=
    hx.unique ((Binary64.shownAs_iff (by decide)).mpr h)
  obtain ⟨gpxAttributes, boxes, waypoint, hgpxRead, hboxes, lat, lon, hlat, hlon, rfl⟩ := hread.gpx
  obtain ⟨kmlAttributes, placemark, hkmlRead, lat', lon', hlat', hlon', rfl⟩ := hread.kml
  obtain ⟨box, rest, ⟨south, west, north, east, hsouth, hwest, hnorth, heast, rfl⟩, hrest, rfl⟩ :=
    List.forall₂_cons_left_iff.mp hboxes
  obtain rfl := List.forall₂_nil_left_iff.mp hrest
  obtain rfl := hshown hlat "0.0039062" (by decide +kernel)
  obtain rfl := hshown hlon "-0.0117188" (by decide +kernel)
  obtain rfl := hshown hlat' "0.0039062" (by decide +kernel)
  obtain rfl := hshown hlon' "-0.0117188" (by decide +kernel)
  obtain rfl := hshown hsouth "NaN" (by decide +kernel)
  obtain rfl := hshown hwest "-inf" (by decide +kernel)
  obtain rfl := hshown hnorth "-0.0000000" (by decide +kernel)
  obtain rfl := hshown heast "1000.0000000" (by decide +kernel)
  exact ⟨gpx, kml, gpxAttributes, kmlAttributes, hgpx, hkml, hgpxRead, hkmlRead⟩

end Address

end Gazetteer
