import Gazetteer.Export.Rendering
import Gazetteer.Field.Preparation
import Gazetteer.Proofs.Number.Limits
import Gazetteer.Proofs.Table

/-!
# The point behind well-known text and geohash

Two formats start from the GeoJSON text of a point, so they see the coordinates that are read back
from it: none if a number is refused, and perhaps a neighbour of one that was written.  For a point
on the globe both numbers are read back and stay on the globe, so every address at a point that was
read from a text has a text in every format.

    c.reread? = some c' → c.geometry = .ok (.point ⟨c'.longitude, c'.latitude⟩)   (geometry_eq)
    Coordinates.ofText text = .ok c → c.InRange                       (inRange_of_ofText)
    a.coordinates.InRange → a.render format is a text                 (exists_render)
-/

namespace Gazetteer

open Json (Tree Value)

/-! ## Numbers of documents as values -/

namespace Json

/-- In documents a double has a fraction or an exponent. -/
theorem isFractional_unitsNumeral (s : Bool) (u : Nat) :
    (Binary64.unitsNumeral .json s u).fraction.isSome ∨
      (Binary64.unitsNumeral .json s u).exponent.isSome := by
  unfold Binary64.unitsNumeral Decimal.numeral positionalNumeral scientificNumeral
  dsimp only [Layout.json]
  repeat' split
  all_goals simp

/-- The value of a double that is read back. -/
theorem valueWithin?_doubleTree {x y : Binary64} (h : x.reread? = some y) (depth : Nat) :
    (doubleTree x).valueWithin? depth = some (.double y) := by
  cases x with
  | nan => cases h
  | infinite s => cases h
  | finite s u hu =>
    have hdouble : (Binary64.unitsNumeral .json s u).double? = some y := h
    have hvalue : (Binary64.unitsNumeral .json s u).value? =
        (Binary64.unitsNumeral .json s u).double?.map .double := by
      unfold Numeral.value?
      dsimp only
      obtain hfraction | hexponent := isFractional_unitsNumeral s u
      · simp [Option.isNone_eq_false_iff.mpr hfraction]
      · simp [Option.isNone_eq_false_iff.mpr hexponent]
    show (Binary64.unitsNumeral .json s u).value? = some (.double y)
    rw [hvalue, hdouble]
    rfl

end Json

/-! ## The geometry of a point -/

namespace Coordinates

theorem toGeoJson_eq (c : Coordinates) :
    c.toGeoJson = .object [("coordinates", .array [.double c.longitude, .double c.latitude]),
      ("type", .text "Point")] := by
  simp only [toGeoJson, sortedObject, Table.ofList, Table.insert, Table.empty, List.foldl_cons,
    List.foldl_nil, Table.place]
  rw [if_pos (by decide +kernel)]

/-- What is read for the GeoJSON text of a point, from what is read for its numbers. -/
theorem value?_toGeoJson {c : Coordinates} {x y : Value}
    (hx : ∀ depth, (Json.doubleTree c.longitude).valueWithin? depth = some x)
    (hy : ∀ depth, (Json.doubleTree c.latitude).valueWithin? depth = some y) :
    c.toGeoJson.tree.value? =
      some (.object [("coordinates", .array [x, y]), ("type", .text "Point")]) := by
  have hsorted : c.toGeoJson.tree.value? = some (.object (Table.ofList
      [("coordinates", .array [x, y]), ("type", .text "Point")]).entries) := by
    rw [toGeoJson_eq]
    simp [Tree.value?, Tree.maxDepth, Value.tree, Value.membersTrees, Value.itemsTrees,
      Tree.valueWithin?, Tree.membersWithin?, Tree.itemsWithin?, hx, hy]
  -- The members are in order already, so making a table of them changes nothing.
  rw [hsorted]
  simp only [Table.ofList, Table.insert, Table.empty, List.foldl_cons, List.foldl_nil, Table.place]
  rw [if_neg (by decide +kernel), if_neg (by decide +kernel)]

theorem geometry_of_values {c : Coordinates} {x y : Value}
    (hx : ∀ depth, (Json.doubleTree c.longitude).valueWithin? depth = some x)
    (hy : ∀ depth, (Json.doubleTree c.latitude).valueWithin? depth = some y) :
    c.geometry = (GeoJson.document
      (.object [("coordinates", .array [x, y]), ("type", .text "Point")])).mapError .document := by
  rw [geometry, Geometry.ofGeoJson, Value.ofText?, Json.ofText?_compact, Option.bind_some,
    value?_toGeoJson hx hy]

theorem geometry_eq {c c' : Coordinates} (h : c.reread? = some c') :
    c.geometry = .ok (.point ⟨c'.longitude, c'.latitude⟩) := by
  obtain ⟨latitude, hlatitude, h⟩ := Option.bind_eq_some_iff.mp h
  obtain ⟨longitude, hlongitude, h⟩ := Option.bind_eq_some_iff.mp h
  cases h
  rw [geometry_of_values (Json.valueWithin?_doubleTree hlongitude)
    (Json.valueWithin?_doubleTree hlatitude)]
  rfl

/-- A point on the globe is read back on the globe. -/
theorem exists_reread?_inRange {c : Coordinates} (h : c.InRange) :
    ∃ c', c.reread? = some c' ∧ c'.InRange := by
  obtain ⟨c', hread⟩ := Option.isSome_iff_exists.mp (c.reread?_isSome h)
  refine ⟨c', hread, ?_⟩
  obtain ⟨latitude, hlatitude, hread⟩ := Option.bind_eq_some_iff.mp hread
  obtain ⟨longitude, hlongitude, hread⟩ := Option.bind_eq_some_iff.mp hread
  cases hread
  exact ⟨Binary64.within_of_reread? steady_ninety h.1 hlatitude,
    Binary64.within_of_reread? steady_halfTurn h.2 hlongitude⟩

/-- Only points on the globe are read from texts. -/
theorem inRange_of_ofText {text : String} {c : Coordinates} (h : ofText text = .ok c) :
    c.InRange := by
  unfold ofText at h
  split at h
  · next first second rest _ =>
    cases hlatitude : degrees text .latitude first with
    | error e =>
      rw [hlatitude] at h
      cases h
    | ok latitude =>
      cases hlongitude : degrees text .longitude second with
      | error e =>
        rw [hlatitude, hlongitude] at h
        cases h
      | ok longitude =>
        rw [hlatitude, hlongitude] at h
        dsimp only [bind, Except.bind] at h
        generalize hlat : latitude.within 90 = inLatitude at h
        generalize hlon : longitude.within 180 = inLongitude at h
        cases inLatitude with
        | false => cases h
        | true =>
          cases inLongitude with
          | false => cases h
          | true =>
            cases h
            exact ⟨hlat, hlon⟩
  · cases h

end Coordinates

/-! ## Texts in every format -/

/-- A point on the globe has a geohash of every length from 1 to 12. -/
theorem Geometry.exists_geohash {p : Position} (hx : p.x.within 180 = true)
    (hy : p.y.within 90 = true) {length : Nat} (hlength : 1 ≤ length ∧ length ≤ 12) :
    ∃ text, (point p).geohash length = .ok text := by
  obtain ⟨x, y⟩ := p
  dsimp only at hx hy
  obtain ⟨s, u, hu, rfl, -⟩ := Binary64.finite_of_within 180 (by decide) x hx
  obtain ⟨s', u', hu', rfl, -⟩ := Binary64.finite_of_within 90 (by decide) y hy
  unfold geohash
  dsimp only
  rw [hx, hy]
  show ∃ text, (if 1 ≤ length ∧ length ≤ 12 then _ else _) = Except.ok text
  rw [if_pos hlength]
  exact ⟨_, rfl⟩

namespace Address

theorem toGeohash_eq {a : Address} {g : Geometry} (h : a.coordinates.geometry = .ok g)
    (length : Nat) : a.toGeohash length = g.geohash length := by
  rw [toGeohash, h]
  rfl

theorem exists_render {a : Address} (h : a.coordinates.InRange) (format : ExportFormat) :
    ∃ text, a.render format = .ok text := by
  obtain ⟨c, hread, hlatitude, hlongitude⟩ := Coordinates.exists_reread?_inRange h
  have hgeometry := Coordinates.geometry_eq hread
  cases format with
  | geoJson => exact ⟨_, rfl⟩
  | gpx => exact ⟨_, rfl⟩
  | kml => exact ⟨_, rfl⟩
  | wkt =>
    rw [render, toWkt, hgeometry]
    exact ⟨_, rfl⟩
  | geohash =>
    obtain ⟨text, htext⟩ := @Geometry.exists_geohash ⟨c.longitude, c.latitude⟩ hlongitude hlatitude
      geohashLength (by decide)
    refine ⟨text, ?_⟩
    rw [render, toGeohash_eq hgeometry, htext]
    rfl
  | addressText => exact ⟨_, rfl⟩

/-- Every address at a point that is read from a text has a text in every format. -/
theorem exists_render_of_ofText {text : String} {c : Coordinates}
    (h : Coordinates.ofText text = .ok c) {a : Address} (ha : a.coordinates = c)
    (format : ExportFormat) : ∃ out, a.render format = .ok out := by
  apply exists_render
  rw [ha]
  exact Coordinates.inRange_of_ofText h

/-- At the corner of both ranges. -/
theorem exists_render_of_ofText_corner :
    let c : Coordinates := ⟨(Binary64.ofNat 90).negate, Binary64.ofNat 180⟩
    Coordinates.ofText " -90.0 ,+1.8e2" = .ok c ∧
      ∀ format, ∃ out,
        (Address.mk c none none none none none none none none none none "").render format =
          .ok out := by
  intro c
  have hsome : (Coordinates.ofText " -90.0 ,+1.8e2").toOption = some c := by decide +kernel
  cases hread : Coordinates.ofText " -90.0 ,+1.8e2" with
  | error e =>
    rw [hread] at hsome
    cases hsome
  | ok corner =>
    rw [hread] at hsome
    have hcorner : corner = c := Option.some.inj hsome
    subst hcorner
    exact ⟨rfl, exists_render_of_ofText hread rfl⟩

end Address

end Gazetteer
