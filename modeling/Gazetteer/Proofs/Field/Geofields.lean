import Gazetteer.Proofs.Cache.Entry
import Gazetteer.Proofs.Export.Point
import Gazetteer.Proofs.Field.View
import Gazetteer.Proofs.Lookup.Repeat
import Gazetteer.Proofs.Number.Exact
import Gazetteer.Proofs.Provider.Sample

/-!
# What is stored for a field

For each value with an address a point is stored, as well-known text and in columns of its own.  The
columns are the coordinates of the address.  The text is made from the GeoJSON of the point, so it
denotes the point that is read back from there: one on the globe, and the same one just if both of
its doubles are read back as themselves.  With at most twelve places after their points they are.

    ofWkt? c.wkt = some c                                                        (ofWkt?_wkt)
    an address on the globe has an item that is stored for it                 (exists_geofield)
    a field has such an item for each of its addresses, in order             (geofields_stored)
-/

namespace Gazetteer

theorem Text.stripFront_append (word s : List Char) : stripFront word (word ++ s) = some s := by
  induction word with
  | nil => cases s <;> rfl
  | cons w word ih => rw [List.cons_append, stripFront, if_pos rfl, ih]

namespace Coordinates

/-- The well-known text of a point: its longitude comes first. -/
def wkt (c : Coordinates) : String :=
  "POINT(" ++ (c.longitude.text ++ " " ++ c.latitude.text) ++ ")"

/-- The point that a well-known text denotes, its numbers read as the nearest doubles. -/
def ofWkt? (text : String) : Option Coordinates := do
  let inner ← Text.stripFront "POINT(".toList text.toList
  let (x, y) ← Text.splitOnce ' ' inner.dropLast
  if inner.getLast? = some ')' then
    return ⟨← Binary64.ofChars? y, ← Binary64.ofChars? x⟩
  else none

theorem ofWkt?_wkt (c : Coordinates) : ofWkt? c.wkt = some c := by
  have hchars : c.wkt.toList = "POINT(".toList ++
      (c.longitude.chars .plain ++ ' ' :: c.latitude.chars .plain ++ [')']) := by
    simp [wkt, Binary64.text]
  have hsplit := Text.splitOnce_append ' ' (c.longitude.chars .plain) (c.latitude.chars .plain)
    (Binary64.space_not_mem_chars .plain c.longitude)
  rw [ofWkt?, hchars, Text.stripFront_append]
  simp only [Option.bind_eq_bind, Option.bind_some, List.dropLast_concat, List.getLast?_concat,
    hsplit, if_true, Binary64.ofChars?_chars, Option.pure_def]

/-- The text of what is read back denotes the point just if its doubles are read back. -/
theorem wkt_denotes {c c' : Coordinates} (h : c.reread? = some c') :
    ofWkt? c'.wkt = some c ↔ ∀ x ∈ c.doubles, x.ReadsBack := by
  rw [ofWkt?_wkt, ← reread?_eq_self_iff, h]

/-- A point of short coordinates is read back as itself. -/
theorem readsBack_of_isShort {c : Coordinates} (h : c.InRange)
    (hshort : ∀ x ∈ c.doubles, x.IsShort) : ∀ x ∈ c.doubles, x.ReadsBack := by
  simp only [doubles, List.forall_mem_cons, Binary64.readsBack_iff] at hshort ⊢
  obtain ⟨hlatitude, hlongitude, -⟩ := hshort
  exact ⟨Binary64.reread?_of_isShort (by decide) h.1 hlatitude,
    Binary64.reread?_of_isShort (by decide) h.2 hlongitude,
    List.forall_mem_nil _⟩

end Coordinates

/-- A stored point beside the address that it is stored for. -/
structure StoredFor (a : Address) (item : Geofield) : Prop where
  /-- The columns are the coordinates of the address. -/
  columns : item.coordinates = a.coordinates
  /-- The text is that of the point that these are read back as, and this is on the globe. -/
  text : ∃ c, a.coordinates.reread? = some c ∧ c.InRange ∧ item.value = c.wkt ∧
    Coordinates.ofWkt? item.value = some c
  /-- Text and columns denote one point if and only if both doubles are read back as themselves. -/
  exact : Coordinates.ofWkt? item.value = some item.coordinates ↔
    ∀ x ∈ a.coordinates.doubles, x.ReadsBack
  /-- Short coordinates are stored exactly. -/
  short : (∀ x ∈ a.coordinates.doubles, x.IsShort) →
    Coordinates.ofWkt? item.value = some item.coordinates

namespace Address

/-- The point that is stored for an address. -/
def geofield (a : Address) : Except Error Geofield :=
  (a.render .wkt).map (Geofield.mk · a.coordinates)

theorem exists_geofield {a : Address} (h : a.coordinates.InRange) :
    ∃ item, a.geofield = .ok item ∧ StoredFor a item := by
  obtain ⟨c, hread, hrange⟩ := Coordinates.exists_reread?_inRange h
  have hgeometry : (Geometry.point ⟨c.longitude, c.latitude⟩).wkt = c.wkt := rfl
  have hitem : a.geofield = .ok ⟨c.wkt, a.coordinates⟩ := by
    simp only [geofield, render, toWkt, Coordinates.geometry_eq hread, Except.map, Except.mapError,
      hgeometry]
  have hexact := Coordinates.wkt_denotes hread
  exact ⟨_, hitem,
    { columns := rfl
      text := ⟨c, hread, hrange, rfl, c.ofWkt?_wkt⟩
      exact := hexact
      short := fun hshort => hexact.mpr (Coordinates.readsBack_of_isShort h hshort) }⟩

end Address

namespace FieldLookup

variable {π σ : Type} (f : FieldLookup) (g : Geocoder π σ) (now : Nat → Instant)
  (values : List FieldValue) (s : π × σ)

/-- Points are stored as they are read back.  If the lookup of a field fails, so does storing it.
With all addresses on the globe it does not fail otherwise; and whenever it succeeds there is one
item for each address, in order, which is stored for the address if that is on the globe. -/
theorem geofields_stored :
    (∀ e s', (f.resolve g now 0 values).run.run s = (.error e, s') →
      (f.geofields g now values).run.run s = (.error e, s')) ∧
    ∀ resolved s', (f.resolve g now 0 values).run.run s = (.ok resolved, s') →
      ((∀ a ∈ resolved, a.2.coordinates.InRange) →
        ∃ items, (f.geofields g now values).run.run s = (.ok items, s')) ∧
      ∀ items s'', (f.geofields g now values).run.run s = (.ok items, s'') →
        List.Forall₂ (fun a item => a.2.coordinates.InRange → StoredFor a.2 item) resolved items := by
  refine ⟨fun e s' h => run_bind_error _ h, fun resolved s' h => ?_⟩
  have hitems : (f.geofields g now values).run.run s =
      (resolved.mapM fun a => a.2.geofield, s') := run_bind_ok h
  rw [hitems]
  constructor
  · intro hrange
    exact ⟨_, Prod.ext (mapM_ok fun a ha =>
      (Address.exists_geofield (hrange a ha)).imp fun _ h => h.1) rfl⟩
  · intro items s'' hstored
    have heach := mapM_eq_ok_iff.mp (congrArg Prod.fst hstored)
    refine heach.imp fun a item hitem hrange => ?_
    obtain ⟨item', hitem', hstored⟩ := Address.exists_geofield hrange
    rw [hitem] at hitem'
    cases hitem'
    exact hstored

/-- A place in the middle of a field, and a field whose provider is not registered. -/
theorem geofields_stored_gotham :
    let g : Geocoder Unit Unit := { registry := Sample.registry }
    let f : FieldLookup := ⟨["test_provider"], .geocode⟩
    let now : Instant := ⟨2024, 1, 1, 0, 0, 0, 0, by decide⟩
    let values : List FieldValue := [.text "", .text "gotham city", .text "nowhere"]
    (f.resolve g (fun _ => now) 0 values).run.run ((), ()) = (.ok [(1, Sample.gotham)], ((), ())) ∧
      Sample.gotham.coordinates.InRange ∧
      (∃ item, (f.geofields g (fun _ => now) values).run.run ((), ()) = (.ok [item], ((), ())) ∧
        Coordinates.ofWkt? item.value = some item.coordinates) ∧
      (FieldLookup.geofields ⟨["nobody"], .geocode⟩ g (fun _ => now) values).run.run ((), ()) =
        (.error (.unknownProvider "nobody"), ((), ())) := by
  intro g f now values
  have hresolved : (f.resolve g (fun _ => now) 0 values).run.run ((), ()) =
      (.ok [(1, Sample.gotham)], ((), ())) := rfl
  have hrange : Sample.gotham.coordinates.InRange := by decide +kernel
  have hshort : ∀ x ∈ Sample.gotham.coordinates.doubles, x.IsShort := by
    simp only [Coordinates.doubles, List.forall_mem_cons]
    exact ⟨⟨false, 20, 0, by decide, by decide +kernel⟩,
      ⟨false, 40, 0, by decide, by decide +kernel⟩, List.forall_mem_nil _⟩
  obtain ⟨hsucceeds, hstored⟩ := (geofields_stored f g (fun _ => now) values ((), ())).2 _ _
    hresolved
  obtain ⟨items, hitems⟩ := hsucceeds (by simpa using hrange)
  obtain ⟨item, rest, hitem, hrest, rfl⟩ := List.forall₂_cons_left_iff.mp (hstored _ _ hitems)
  rw [List.forall₂_nil_left_iff] at hrest
  subst hrest
  exact ⟨hresolved, hrange, ⟨item, hitems, (hitem hrange).short hshort⟩,
    (geofields_stored ⟨["nobody"], .geocode⟩ g (fun _ => now) values ((), ())).1 _ _ rfl⟩

/-- The text that is stored for a place may denote another point than its columns. -/
theorem geofields_stored_drifting :
    let g : Geocoder Unit Unit :=
      { registry := Registry.empty.register (.steady "p" [Geocoder.drifting]) }
    let f : FieldLookup := ⟨["p"], .geocode⟩
    let now : Instant := ⟨2024, 1, 1, 0, 0, 0, 0, by decide⟩
    let item : Geofield := ⟨"POINT(40 9.368737009602556)", Geocoder.drifting.coordinates⟩
    Geocoder.drifting.coordinates.InRange ∧
      ((f.geofields g (fun _ => now) [.text "x"]).run.run ((), ())).1.toOption = some [item] ∧
      Coordinates.ofWkt? item.value = some Geocoder.drifted.coordinates ∧
      Geocoder.drifted.coordinates ≠ item.coordinates := by
  decide +kernel

end FieldLookup

end Gazetteer
