import Gazetteer.Export.Rendering
import Gazetteer.Proofs.Address.ReadBack
import Gazetteer.Proofs.Table

/-!
# Features are read back

`Address.ofFeature?` decodes the GeoJSON text of an address: a point with longitude first, the
components that are there, the box if it is there, and every number as the double that its digits
denote.  A finite double is the nearest to its shortest digits, so an address with finite numbers
comes back as it was, and no other such address has its text.

    (sortedObject (presentMembers members)).tree has the members as fields   (fields?_sortedObject)
    a.IsFinite → ofFeature? a.toFeature.compact = some a                     (ofFeature?_compact)
-/

namespace Gazetteer

open Json (Tree Value)

/-! ## Decoding -/

namespace Json.Tree

/-- The double nearest to a number. -/
def nearest? : Tree → Option Binary64
  | number n => some (.ofDecimal n.negative n.decimal)
  | _ => none

/-- A field that may be missing. -/
def present? {α : Type} (read : Tree → Option α) : Option Tree → Option (Option α)
  | none => some none
  | some t => (read t).map some

end Json.Tree

/-- A point with longitude first. -/
def Coordinates.ofPoint? (t : Tree) : Option Coordinates := do
  match ← t.fields? ["type", "coordinates"] with
  | [some type, some (.array [longitude, latitude])] =>
    if type.text? = some "Point" then
      return ⟨← latitude.nearest?, ← longitude.nearest?⟩
    else none
  | _ => none

/-- The four sides of a box. -/
def Bounds.ofSides? (t : Tree) : Option Bounds := do
  match ← t.fields? ["south", "west", "north", "east"] with
  | [south, west, north, east] =>
    return ⟨← Tree.required Tree.nearest? south, ← Tree.required Tree.nearest? west,
      ← Tree.required Tree.nearest? north, ← Tree.required Tree.nearest? east⟩
  | _ => none

namespace Address

def propertyNames : List String :=
  ["streetNumber", "streetName", "subLocality", "locality", "postalCode", "adminArea", "country",
    "countryCode", "formattedAddress", "providedBy"]

/-- An address at a point, with its components. -/
def ofProperties? (coordinates : Coordinates) (bounds : Option Bounds) (t : Tree) :
    Option Address := do
  match ← t.fields? propertyNames with
  | [streetNumber, streetName, subLocality, locality, postalCode, adminArea, country, countryCode,
      formatted, providedBy] =>
    return {
      coordinates
      streetNumber := ← Tree.present? Tree.text? streetNumber
      streetName := ← Tree.present? Tree.text? streetName
      subLocality := ← Tree.present? Tree.text? subLocality
      locality := ← Tree.present? Tree.text? locality
      postalCode := ← Tree.present? Tree.text? postalCode
      adminArea := ← Tree.present? Tree.text? adminArea
      country := ← Tree.present? Tree.text? country
      countryCode := ← Tree.present? Tree.text? countryCode
      formatted := ← Tree.present? Tree.text? formatted
      bounds
      providedBy := ← Tree.required Tree.text? providedBy }
  | _ => none

/-- The address of a feature. -/
def ofFeature? (text : String) : Option Address := do
  match ← (← Tree.ofText? text).fields? ["type", "geometry", "properties", "bounds"] with
  | [some type, some geometry, some properties, bounds] =>
    if type.text? = some "Feature" then
      ofProperties? (← Coordinates.ofPoint? geometry) (← Tree.present? Bounds.ofSides? bounds)
        properties
    else none
  | _ => none

end Address

/-! ## Objects with sorted members -/

namespace Json

theorem single?_perm {l l' : List (String × Tree)} (h : l.Perm l') (key : String) :
    Tree.single? key l = Tree.single? key l' := by
  have hfilter := h.filter fun m => m.1 == key
  unfold Tree.single?
  generalize l.filter (fun m => m.1 == key) = found at hfilter ⊢
  generalize l'.filter (fun m => m.1 == key) = found' at hfilter ⊢
  match found, hfilter with
  | [], hfilter => rw [hfilter.nil_eq]
  | [m], hfilter => rw [hfilter.singleton_eq]
  | m₁ :: m₂ :: rest, hfilter =>
    have hlength := hfilter.length_eq
    match found', hlength with
    | m₁' :: m₂' :: rest', _ => rfl

/-- The order of its members has no part in the fields of an object. -/
theorem fields?_perm {l l' : List (String × Value)} (h : l.Perm l') (names : List String) :
    (Value.object l).tree.fields? names = (Value.object l').tree.fields? names := by
  have hsingle := single?_perm (h.map fun m => (m.1, m.2.tree))
  rw [Value.tree, Value.tree, Tree.fields?, Tree.fields?, Tree.members?, Tree.members?,
    keyed?_members, keyed?_members]
  simp only [Option.bind_eq_bind, Option.bind_some, hsingle]

/-- Sorting members with different keys loses none. -/
theorem ofList_presentMembers_perm (members : List (String × Option Value))
    (h : (members.map (·.1)).Nodup) :
    (Table.ofList (presentMembers members)).entries.Perm (presentMembers members) := by
  have hnodup : ((presentMembers members).map (·.1)).Nodup := by
    have hkeys := h.sublist (presentTrees_keys members)
    rwa [presentTrees, List.map_map] at hkeys
  exact Table.foldl_insert_perm Table.empty _ hnodup

theorem fields?_sortedObject (members : List (String × Option Value))
    (h : (members.map (·.1)).Nodup) :
    (sortedObject (presentMembers members)).tree.fields? (members.map (·.1)) =
      some (members.map fun m => m.2.map Value.tree) := by
  rw [sortedObject, fields?_perm (ofList_presentMembers_perm members h), fields?_present members h]

/-! ## Parts of a feature -/

theorem nearest?_doubleTree {x : Binary64} (h : x.isFinite = true) :
    (doubleTree x).nearest? = some x := by
  cases x with
  | nan => cases h
  | infinite s => cases h
  | finite s u hu =>
    show some (Binary64.ofDecimal (Binary64.unitsNumeral .json s u).negative
      (Binary64.unitsNumeral .json s u).decimal) = _
    rw [Binary64.negative_unitsNumeral, Binary64.ofDecimal_unitsNumeral]

theorem present?_text (s : Option String) :
    Tree.present? Tree.text? ((s.map Value.text).map Value.tree) = some s := by
  cases s with
  | none => rfl
  | some s =>
    show (Piece.text? (piecesOf s)).map some = some (some s)
    rw [text?_piecesOf]
    rfl

end Json

/-! ## Addresses with finite numbers -/

namespace Coordinates

def IsFinite (c : Coordinates) : Prop := c.latitude.isFinite = true ∧ c.longitude.isFinite = true

instance (c : Coordinates) : Decidable c.IsFinite := inferInstanceAs (Decidable (_ ∧ _))

theorem ofPoint?_toGeoJson (c : Coordinates) (h : c.IsFinite) :
    ofPoint? c.toGeoJson.tree = some c := by
  have hfields : c.toGeoJson.tree.fields? ["type", "coordinates"] =
      some [some (Value.text "Point").tree,
        some (.array [Json.doubleTree c.longitude, Json.doubleTree c.latitude])] :=
    Json.fields?_sortedObject [("type", some (.text "Point")),
      ("coordinates", some (.array [.double c.longitude, .double c.latitude]))] (by simp)
  have htype : (Value.text "Point").tree.text? = some "Point" := Json.text?_piecesOf "Point"
  rw [ofPoint?, hfields]
  simp only [Option.bind_eq_bind, Option.bind_some, htype, if_true, Option.pure_def,
    Json.nearest?_doubleTree h.1, Json.nearest?_doubleTree h.2]

end Coordinates

namespace Bounds

def IsFinite (b : Bounds) : Prop :=
  (b.south.isFinite = true ∧ b.west.isFinite = true) ∧
    b.north.isFinite = true ∧ b.east.isFinite = true

instance (b : Bounds) : Decidable b.IsFinite := inferInstanceAs (Decidable (_ ∧ _))

/-- A box with its sides under their names. -/
def toSides (b : Bounds) : Value :=
  sortedObject [("south", .double b.south), ("west", .double b.west), ("north", .double b.north),
    ("east", .double b.east)]

theorem ofSides?_toSides (b : Bounds) (h : b.IsFinite) : ofSides? b.toSides.tree = some b := by
  have hfields : b.toSides.tree.fields? ["south", "west", "north", "east"] =
      some [some (Json.doubleTree b.south), some (Json.doubleTree b.west),
        some (Json.doubleTree b.north), some (Json.doubleTree b.east)] :=
    Json.fields?_sortedObject [("south", some (.double b.south)), ("west", some (.double b.west)),
      ("north", some (.double b.north)), ("east", some (.double b.east))] (by simp)
  obtain ⟨⟨hsouth, hwest⟩, hnorth, heast⟩ := h
  rw [ofSides?, hfields]
  simp only [Option.bind_eq_bind, Option.bind_some, Tree.required, Option.pure_def,
    Json.nearest?_doubleTree hsouth, Json.nearest?_doubleTree hwest,
    Json.nearest?_doubleTree hnorth, Json.nearest?_doubleTree heast]

theorem present?_toSides (b : Option Bounds) (h : ∀ x ∈ b, x.IsFinite) :
    Tree.present? ofSides? ((b.map toSides).map Value.tree) = some b := by
  cases b with
  | none => rfl
  | some b =>
    show (ofSides? b.toSides.tree).map some = some (some b)
    rw [ofSides?_toSides b (h b rfl)]
    rfl

end Bounds

namespace Address

/-- An address whose numbers JSON has texts for. -/
def IsFinite (a : Address) : Prop := a.coordinates.IsFinite ∧ ∀ b ∈ a.bounds, b.IsFinite

instance (a : Address) : Decidable a.IsFinite := inferInstanceAs (Decidable (_ ∧ _))

theorem ofProperties?_properties (a : Address) :
    ofProperties? a.coordinates a.bounds a.properties.tree = some a := by
  have hfields : a.properties.tree.fields? propertyNames = some (([
      a.streetNumber.map .text, a.streetName.map .text, a.subLocality.map .text,
      a.locality.map .text, a.postalCode.map .text, a.adminArea.map .text, a.country.map .text,
      a.countryCode.map .text, a.formatted.map .text, some (.text a.providedBy)] :
        List (Option Value)).map fun v => v.map Value.tree) :=
    Json.fields?_sortedObject [("streetNumber", a.streetNumber.map .text),
      ("streetName", a.streetName.map .text), ("subLocality", a.subLocality.map .text),
      ("locality", a.locality.map .text), ("postalCode", a.postalCode.map .text),
      ("adminArea", a.adminArea.map .text), ("country", a.country.map .text),
      ("countryCode", a.countryCode.map .text), ("formattedAddress", a.formatted.map .text),
      ("providedBy", some (.text a.providedBy))] (by simp)
  have hprovider : Tree.required Tree.text? (some (Value.text a.providedBy).tree) =
      some a.providedBy := Json.text?_piecesOf a.providedBy
  rw [ofProperties?, hfields]
  simp only [List.map_cons, List.map_nil, Option.bind_eq_bind, Option.bind_some,
    Option.map_some, Json.present?_text, hprovider, Option.pure_def]

/-- The text of a feature is decoded to the address it was written for. -/
theorem ofFeature?_compact (a : Address) (h : a.IsFinite) :
    ofFeature? a.toFeature.compact = some a := by
  have hfields : a.toFeature.tree.fields? ["type", "geometry", "properties", "bounds"] =
      some [some (Value.text "Feature").tree, some a.coordinates.toGeoJson.tree,
        some a.properties.tree, (a.bounds.map Bounds.toSides).map Value.tree] :=
    Json.fields?_sortedObject [("type", some (.text "Feature")),
      ("geometry", some a.coordinates.toGeoJson), ("properties", some a.properties),
      ("bounds", a.bounds.map Bounds.toSides)] (by simp)
  have htype : (Value.text "Feature").tree.text? = some "Feature" := Json.text?_piecesOf "Feature"
  rw [ofFeature?, Json.ofText?_compact, Option.bind_eq_bind, Option.bind_some, hfields]
  simp only [Option.bind_eq_bind, Option.bind_some, htype, if_true,
    a.coordinates.ofPoint?_toGeoJson h.1, Bounds.present?_toSides a.bounds h.2]
  exact ofProperties?_properties a

/-- Nothing is lost in the GeoJSON of an address with finite numbers: it is decoded to the address,
and it is the text of no other. -/
theorem render_geoJson_lossless (a : Address) (h : a.IsFinite) :
    ∃ text, a.render .geoJson = .ok text ∧ ofFeature? text = some a ∧
      ∀ b : Address, b.IsFinite → b.render .geoJson = .ok text → b = a := by
  refine ⟨a.toFeature.compact, rfl, ofFeature?_compact a h, fun b hb hsame => ?_⟩
  have htext : b.toFeature.compact = a.toFeature.compact := Except.ok.inj hsame
  have hdecoded := ofFeature?_compact b hb
  rw [htext, ofFeature?_compact a h] at hdecoded
  exact (Option.some.inj hdecoded).symm

/-- With a negative zero, an empty component and a name that needs escapes. -/
theorem render_geoJson_lossless_escapes :
    let a : Address := {
      coordinates := ⟨.zero true, Binary64.ofNat 40⟩
      locality := some ""
      formatted := some "\"Gotham\"\n"
      bounds := some ⟨Binary64.ofNat 1, Binary64.ofNat 2, Binary64.ofNat 3, Binary64.ofNat 4⟩
      providedBy := "test_provider" }
    a.IsFinite ∧ ∃ text, a.render .geoJson = .ok text ∧ ofFeature? text = some a ∧
      ∀ b : Address, b.IsFinite → b.render .geoJson = .ok text → b = a := by
  intro a
  have hfinite : a.IsFinite := by decide +kernel
  exact ⟨hfinite, render_geoJson_lossless a hfinite⟩

end Address

end Gazetteer
