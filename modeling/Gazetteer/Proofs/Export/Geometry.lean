import Gazetteer.Proofs.Export.Feature
import Gazetteer.Proofs.Export.Point
import Gazetteer.Proofs.Number.Finite

/-!
# The geometry of a feature

Every address has a GeoJSON text, but the geometry in it is read as one just if both coordinates are
finite: for NaN and the infinities JSON has no numbers, and a point with `null` in their place is
refused.  Well-known text starts from the same geometry, so it is refused for the same addresses
with the same fault.  A finite coordinate is never refused, not even at the end of the range.

    c.IsFinite → c.geometry = .ok (.point ..)                                    (exists_geometry)
    ¬ c.IsFinite → c.geometry = .error (.document .notNumber)                 (geometry_notNumber)
    the geometry in the text of a is read as a.coordinates.geometry         (ofGeoJson_memberText)
-/

namespace Gazetteer

open Json (Tree Value)

/-! ## Members of documents -/

namespace Json

/-- The member of an object under a key. -/
def Tree.member? (key : String) : Tree → Option Tree
  | .object members => ((keyed? members).bind (single? key)).join
  | _ => none

theorem member?_sortedObject (members : List (String × Option Value))
    (h : (members.map (·.1)).Nodup) {m : String × Option Value} (hm : m ∈ members) :
    (sortedObject (presentMembers members)).tree.member? m.1 = m.2.map Value.tree := by
  have hperm := (ofList_presentMembers_perm members h).map fun m => (m.1, m.2.tree)
  have hsingle := single?_of_nodup (presentTrees members) (h.sublist (presentTrees_keys members))
  rw [sortedObject, Value.tree, Tree.member?, keyed?_members, Option.bind_some,
    single?_perm hperm]
  show (Tree.single? m.1 (presentTrees members)).join = _
  rw [hsingle, Option.join_some, lookup_presentTrees members h m hm]

end Json

/-- A text of the member that a document has under a key. -/
def IsMemberText (key document part : String) : Prop :=
  ∃ whole member, Tree.ofText? document = some whole ∧ whole.member? key = some member ∧
    Tree.ofText? part = some member

/-! ## Points with and without a geometry -/

namespace GeoJson

theorem document_point (coordinates : Value) :
    document (.object [("coordinates", coordinates), ("type", .text "Point")]) =
      (position coordinates).map .point := by
  have hgeometry : geometry geometryDepth [("coordinates", coordinates), ("type", .text "Point")] =
      (position coordinates).map .point := by
    show (do return Geometry.point (← position coordinates)) = _
    cases position coordinates <;> rfl
  show ((geometry geometryDepth _).map fun g => [g]).bind _ = _
  rw [hgeometry]
  cases position coordinates <;> rfl

theorem position_notNumber {x y : Value} (h : number? x = none ∨ number? y = none) :
    position (.array [x, y]) = .error .notNumber := by
  unfold position
  rw [coordinateItems]
  show (do let numbers ← List.mapM _ [x, y]; _ : Reading Position) = _
  rw [List.mapM_cons, List.mapM_cons, List.mapM_nil]
  cases hx : number? x with
  | none => rfl
  | some first =>
    have hy : number? y = none := by simpa [hx] using h
    rw [hy]
    rfl

end GeoJson

namespace Coordinates

theorem exists_geometry {c : Coordinates} (h : c.IsFinite) :
    ∃ p, c.geometry = .ok (.point p) := by
  obtain ⟨latitude, hlatitude⟩ :=
    Option.isSome_iff_exists.mp (c.latitude.reread?_isSome_iff.mpr h.1)
  obtain ⟨longitude, hlongitude⟩ :=
    Option.isSome_iff_exists.mp (c.longitude.reread?_isSome_iff.mpr h.2)
  have hread : c.reread? = some ⟨latitude, longitude⟩ := by
    rw [reread?, hlatitude, hlongitude]
    rfl
  exact ⟨_, geometry_eq hread⟩

/-- What is read in the place of a double is a number just if the double is finite. -/
theorem exists_valueWithin? (x : Binary64) :
    ∃ v, (∀ depth, (Json.doubleTree x).valueWithin? depth = some v) ∧
      (x.isFinite = false → GeoJson.number? v = none) := by
  cases hfinite : x.isFinite with
  | true =>
    obtain ⟨y, hread⟩ := Option.isSome_iff_exists.mp (x.reread?_isSome_iff.mpr hfinite)
    exact ⟨.double y, Json.valueWithin?_doubleTree hread, nofun⟩
  | false =>
    refine ⟨.null, fun depth => ?_, fun _ => rfl⟩
    cases x with
    | nan => rfl
    | infinite s => rfl
    | finite s u h => cases hfinite

theorem geometry_notNumber {c : Coordinates} (h : ¬ c.IsFinite) :
    c.geometry = .error (.document .notNumber) := by
  obtain ⟨x, hx, hlongitude⟩ := exists_valueWithin? c.longitude
  obtain ⟨y, hy, hlatitude⟩ := exists_valueWithin? c.latitude
  have hnone : GeoJson.number? x = none ∨ GeoJson.number? y = none := by
    by_cases hfinite : c.longitude.isFinite = true
    · exact .inr (hlatitude (by simpa [IsFinite, hfinite] using h))
    · exact .inl (hlongitude (Bool.eq_false_iff.mpr hfinite))
  rw [geometry_of_values hx hy, GeoJson.document_point, GeoJson.position_notNumber hnone]
  rfl

end Coordinates

/-! ## The geometry in a text -/

/-- Two texts of one tree are read as one geometry. -/
theorem Geometry.ofGeoJson_congr {text text' : String}
    (h : Tree.ofText? text = Tree.ofText? text') : ofGeoJson text = ofGeoJson text' := by
  rw [ofGeoJson, ofGeoJson, Value.ofText?, Value.ofText?, h]

namespace Address

theorem member?_toFeature (a : Address) :
    a.toFeature.tree.member? "geometry" = some a.coordinates.toGeoJson.tree :=
  Json.member?_sortedObject [("type", some (.text "Feature")),
    ("geometry", some a.coordinates.toGeoJson), ("properties", some a.properties),
    ("bounds", a.bounds.map Bounds.toSides)] (by simp)
    (List.mem_cons_of_mem _ List.mem_cons_self)

theorem isMemberText_iff (a : Address) (part : String) :
    IsMemberText "geometry" a.toFeature.compact part ↔
      Tree.ofText? part = Tree.ofText? a.coordinates.toGeoJson.compact := by
  rw [IsMemberText, Json.ofText?_compact, Json.ofText?_compact]
  constructor
  · rintro ⟨whole, member, hwhole, hmember, hpart⟩
    cases hwhole
    rw [member?_toFeature, ← hpart] at hmember
    exact hmember.symm
  · intro hpart
    exact ⟨_, _, rfl, a.member?_toFeature, hpart⟩

/-- The geometry in the text of an address is read as that of its point. -/
theorem ofGeoJson_memberText {a : Address} {text part : String}
    (htext : a.render .geoJson = .ok text) (hpart : IsMemberText "geometry" text part) :
    Geometry.ofGeoJson part = a.coordinates.geometry := by
  cases htext
  exact Geometry.ofGeoJson_congr ((a.isMemberText_iff part).mp hpart)

theorem render_wkt {a : Address} {result : Except GeometryFault Geometry}
    (h : a.coordinates.geometry = result) :
    a.render .wkt = (result.map Geometry.wkt).mapError .geometry := by
  rw [render, toWkt, h]

theorem exists_memberText (a : Address) :
    ∃ part, IsMemberText "geometry" a.toFeature.compact part :=
  ⟨a.coordinates.toGeoJson.compact, (a.isMemberText_iff _).mpr rfl⟩

/-- Every address has a GeoJSON text.  With finite coordinates its geometry is read as a point, and
the well-known text is that of the point; with others both are refused for the same fault. -/
theorem render_geoJson_geometry (a : Address) :
    ∃ text, a.render .geoJson = .ok text ∧ (∃ part, IsMemberText "geometry" text part) ∧
      ∀ part, IsMemberText "geometry" text part →
        (a.coordinates.IsFinite ∧ ∃ p, Geometry.ofGeoJson part = .ok (.point p) ∧
          a.render .wkt = .ok (Geometry.point p).wkt) ∨
        (¬ a.coordinates.IsFinite ∧ Geometry.ofGeoJson part = .error (.document .notNumber) ∧
          a.render .wkt = .error (.geometry (.document .notNumber))) := by
  refine ⟨a.toFeature.compact, rfl, a.exists_memberText, fun part hpart => ?_⟩
  rw [ofGeoJson_memberText rfl hpart]
  by_cases hfinite : a.coordinates.IsFinite
  · obtain ⟨p, hgeometry⟩ := Coordinates.exists_geometry hfinite
    exact .inl ⟨hfinite, p, hgeometry, render_wkt hgeometry⟩
  · have hgeometry := Coordinates.geometry_notNumber hfinite
    exact .inr ⟨hfinite, hgeometry, render_wkt hgeometry⟩

/-- At the southern end of the doubles, on the meridian. -/
theorem render_geoJson_geometry_largest :
    let south : Binary64 := .finite true (largestDouble * unitScale) isMagnitude_largestDouble
    let a : Address := { coordinates := ⟨south, .zero true⟩, providedBy := "p" }
    ∃ text part, a.render .geoJson = .ok text ∧ IsMemberText "geometry" text part ∧
      ∃ p, Geometry.ofGeoJson part = .ok (.point p) ∧
        a.render .wkt = .ok (Geometry.point p).wkt := by
  intro south a
  obtain ⟨text, htext, ⟨part, hpart⟩, hread⟩ := render_geoJson_geometry a
  obtain ⟨-, hpoint⟩ | ⟨hunreal, -⟩ := hread part hpart
  · exact ⟨text, part, htext, hpart, hpoint⟩
  · exact absurd ⟨rfl, rfl⟩ hunreal

/-- NaN leaves a `null` in the text, which the geometry is refused for. -/
theorem render_geoJson_unreadable :
    let a : Address := { coordinates := ⟨.nan, Binary64.ofNat 40⟩, providedBy := "p" }
    ∃ text part, a.render .geoJson = .ok text ∧ IsMemberText "geometry" text part ∧
      (¬ ∃ p, Geometry.ofGeoJson part = .ok (.point p)) ∧ ¬ ∃ out, a.render .wkt = .ok out := by
  intro a
  have hunreal : ¬ a.coordinates.IsFinite := fun h => Bool.false_ne_true h.1
  have hgeometry := Coordinates.geometry_notNumber hunreal
  obtain ⟨part, hpart⟩ := a.exists_memberText
  refine ⟨_, part, rfl, hpart, ?_, ?_⟩
  · rw [ofGeoJson_memberText rfl hpart, hgeometry]
    rintro ⟨p, hp⟩
    cases hp
  · rw [render_wkt hgeometry]
    rintro ⟨out, hout⟩
    cases hout

end Address

end Gazetteer
