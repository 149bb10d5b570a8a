import Gazetteer.Cache.Entry
import Gazetteer.Proofs.Json.ReadBack

/-!
# Addresses and entries are read back

An address that is written into a document is read back with every field as it was, but for its
doubles, which are what their number texts are read as.  So an entry that is read back has as many
addresses as were kept, each from the provider it was from.

    Address.ofTree? a.toJson.tree = a.reread?                                    (ofTree?_toJson)
    CacheEntry.ofText? e.text = some e' → the addresses of e' are those of e reread
                                                                               (reread?_of_ofText?)
    as.mapM reread? = some bs → the same providers in the same order       (providedBy_of_reread?)
-/

namespace Gazetteer

open Json (Tree Value)

/-- What a double is read as from the number it is written as. -/
def Binary64.reread? (x : Binary64) : Option Binary64 := (Json.doubleTree x).double?

namespace Coordinates

def reread? (c : Coordinates) : Option Coordinates := do
  return ⟨← c.latitude.reread?, ← c.longitude.reread?⟩

theorem ofTree?_toJson (c : Coordinates) : ofTree? c.toJson.tree = c.reread? := by
  have hfields : c.toJson.tree.fields? ["latitude", "longitude"] =
      some [some (Json.doubleTree c.latitude), some (Json.doubleTree c.longitude)] :=
    Json.fields?_present [("latitude", some (.double c.latitude)),
      ("longitude", some (.double c.longitude))] (by simp)
  rw [ofTree?, hfields]
  rfl

end Coordinates

namespace Bounds

def reread? (b : Bounds) : Option Bounds := do
  return ⟨← b.south.reread?, ← b.west.reread?, ← b.north.reread?, ← b.east.reread?⟩

theorem ofTree?_toJson (b : Bounds) : ofTree? b.toJson.tree = b.reread? := by
  have hfields : b.toJson.tree.fields? ["south", "west", "north", "east"] =
      some [some (Json.doubleTree b.south), some (Json.doubleTree b.west),
        some (Json.doubleTree b.north), some (Json.doubleTree b.east)] :=
    Json.fields?_present [("south", some (.double b.south)), ("west", some (.double b.west)),
      ("north", some (.double b.north)), ("east", some (.double b.east))] (by simp)
  rw [ofTree?, hfields]
  rfl

/-- Bounds that may be absent. -/
def rereadPresent? : Option Bounds → Option (Option Bounds)
  | none => some none
  | some b => b.reread?.map some

theorem optional_toJson (b : Option Bounds) :
    Tree.optional ofTree? ((b.map toJson).map Value.tree) = rereadPresent? b := by
  cases b with
  | none => rfl
  | some b =>
    show (ofTree? b.toJson.tree).map some = _
    rw [ofTree?_toJson]
    rfl

end Bounds

namespace Address

def reread? (a : Address) : Option Address := do
  return { a with
    coordinates := ← a.coordinates.reread?
    bounds := ← Bounds.rereadPresent? a.bounds }

/-- The members of an address, present or not. -/
def members (a : Address) : List (String × Option Value) := [
  ("coordinates", some a.coordinates.toJson),
  ("street_number", a.streetNumber.map .text),
  ("street_name", a.streetName.map .text),
  ("sub_locality", a.subLocality.map .text),
  ("locality", a.locality.map .text),
  ("postal_code", a.postalCode.map .text),
  ("admin_area", a.adminArea.map .text),
  ("country", a.country.map .text),
  ("country_code", a.countryCode.map .text),
  ("formatted", a.formatted.map .text),
  ("bounds", a.bounds.map Bounds.toJson),
  ("provided_by", some (.text a.providedBy))]

theorem fields?_toJson (a : Address) :
    a.toJson.tree.fields? fieldNames = some (a.members.map fun m => m.2.map Value.tree) :=
  Json.fields?_present a.members (by simp [members])

theorem optional_text (s : Option String) :
    Tree.optional Tree.text? ((s.map Value.text).map Value.tree) = some s := by
  cases s with
  | none => rfl
  | some s =>
    show (Json.Piece.text? (Json.piecesOf s)).map some = some (some s)
    rw [Json.text?_piecesOf]
    rfl

/-- Texts are read back as they are, doubles as far as their numbers go. -/
theorem ofTree?_toJson (a : Address) : ofTree? a.toJson.tree = a.reread? := by
  have hprovider : Tree.required Tree.text? (some (Value.text a.providedBy).tree) =
      some a.providedBy := Json.text?_piecesOf a.providedBy
  have hcoordinates : Tree.required Coordinates.ofTree? (some a.coordinates.toJson.tree) =
      a.coordinates.reread? := a.coordinates.ofTree?_toJson
  rw [ofTree?, fields?_toJson, Option.bind_eq_bind, Option.bind_some]
  dsimp only [members, List.map, Option.map_some]
  rw [hcoordinates, hprovider, Bounds.optional_toJson]
  iterate 9 rw [optional_text]
  rfl

/-- All but doubles is as it was. -/
theorem eq_of_reread? {a b : Address} (h : a.reread? = some b) :
    b = { a with coordinates := b.coordinates, bounds := b.bounds } := by
  obtain ⟨coordinates, -, h⟩ := Option.bind_eq_some_iff.mp h
  obtain ⟨bounds, -, h⟩ := Option.bind_eq_some_iff.mp h
  have hb : { a with coordinates := coordinates, bounds := bounds } = b := Option.some.inj h
  subst hb
  rfl

theorem list?_toJson (as : List Address) :
    Tree.list? ofTree? (Value.array (as.map toJson)).tree = as.mapM reread? := by
  rw [Value.tree, Value.itemsTrees_eq, Tree.list?]
  induction as with
  | nil => rfl
  | cons a rest ih => rw [List.map_cons, List.map_cons, List.mapM_cons, List.mapM_cons, ih,
      ofTree?_toJson]

/-- Addresses that are read back are from the providers they were from. -/
theorem providedBy_of_reread? (as bs : List Address) (h : as.mapM reread? = some bs) :
    bs.map (·.providedBy) = as.map (·.providedBy) := by
  induction as generalizing bs with
  | nil =>
    cases h
    rfl
  | cons a rest ih =>
    rw [List.mapM_cons] at h
    obtain ⟨b, hb, h⟩ := Option.bind_eq_some_iff.mp h
    obtain ⟨bs, hbs, h⟩ := Option.bind_eq_some_iff.mp h
    injection h with h
    subst h
    rw [List.map_cons, List.map_cons, ih bs hbs, eq_of_reread? hb]

end Address

namespace CacheEntry

theorem ofTree?_toJson (e : CacheEntry) :
    ofTree? e.toJson.tree = do
      return ⟨← Instant.ofText? e.storedAt.text, ← e.addresses.mapM Address.reread?⟩ := by
  have hfields : e.toJson.tree.fields? ["stored_at", "result"] =
      some [some (Value.text e.storedAt.text).tree,
        some (Value.array (e.addresses.map Address.toJson)).tree] :=
    Json.fields?_present [("stored_at", some (.text e.storedAt.text)),
      ("result", some (.array (e.addresses.map Address.toJson)))] (by simp)
  have htime : (Value.text e.storedAt.text).tree.text? = some e.storedAt.text :=
    Json.text?_piecesOf e.storedAt.text
  have hlist := Address.list?_toJson e.addresses
  rw [ofTree?, hfields]
  simp only [Option.bind_eq_bind, Option.bind_some, htime, Tree.required, hlist]

/-- An entry is read back from its text as far as its time and its doubles are. -/
theorem ofText?_text (e : CacheEntry) :
    ofText? e.text = do
      return ⟨← Instant.ofText? e.storedAt.text, ← e.addresses.mapM Address.reread?⟩ := by
  rw [ofText?, text, Json.ofText?_compact, Option.bind_some, ofTree?_toJson]

theorem reread?_of_ofText? {e e' : CacheEntry} (h : ofText? e.text = some e') :
    e.addresses.mapM Address.reread? = some e'.addresses := by
  rw [ofText?_text] at h
  obtain ⟨time, -, h⟩ := Option.bind_eq_some_iff.mp h
  obtain ⟨addresses, haddresses, h⟩ := Option.bind_eq_some_iff.mp h
  have he : CacheEntry.mk time addresses = e' := Option.some.inj h
  subst he
  exact haddresses

end CacheEntry

end Gazetteer
