import Mathlib.Data.List.Forall2
import Gazetteer.Provider.Nominatim

/-!
# What the body of a search tells

A service tells places as records: an object with members under names, in any order and with others
among them, or an array of the parts in the order of their names.  What such a document tells is
said here member by member, without a word of how it is read.

    HasParts names part t: the record t has these parts under the names
    TellsPlace t p: the document t tells of the place p, and TellsDetails t d of its details
    Tells body places: the body is a list of documents that tell of the places

    t.fields? names = some (names.map part) ↔ HasParts names part t        (fields?_eq_some_iff)
    placesOfText? body = some places ↔ Tells body places             (placesOfText?_eq_some_iff)
-/

namespace Gazetteer

/-- Reading a list item by item. -/
theorem mapM_eq_some_iff {α β : Type} {read : α → Option β} {l : List α} {r : List β} :
    l.mapM read = some r ↔ List.Forall₂ (fun a b => read a = some b) l r := by
  induction l generalizing r with
  | nil => simp [eq_comm]
  | cons a rest ih =>
    rw [List.mapM_cons, List.forall₂_cons_left_iff]
    simp only [Option.bind_eq_bind, Option.bind_eq_some_iff, Option.pure_def, Option.some.injEq]
    constructor
    · rintro ⟨b, hb, others, hothers, rfl⟩
      exact ⟨b, others, hb, ih.mp hothers, rfl⟩
    · rintro ⟨b, others, hb, hothers, rfl⟩
      exact ⟨b, hb, others, ih.mpr hothers, rfl⟩

namespace Json

/-! ## Records -/

/-- A record has a part under each of the names, or none.  In an object this is the one member whose
key is the name, and every key has to be a text.  In an array it is the item at the place of the
name. -/
inductive HasParts (names : List String) (part : String → Option Tree) : Tree → Prop where
  | object {members : List (List Piece × Tree)} {keyed : List (String × Tree)}
      (hkeys : List.Forall₂ (fun m e => Piece.text? m.1 = some e.1 ∧ m.2 = e.2) members keyed)
      (hparts : ∀ name ∈ names,
        (keyed.filter fun e => e.1 = name).map (·.2) = (part name).toList) :
      HasParts names part (.object members)
  | array {items : List Tree} (hitems : items.map some = names.map part) :
      HasParts names part (.array items)

theorem keyed?_eq_some_iff {members : List (List Piece × Tree)} {keyed : List (String × Tree)} :
    Tree.keyed? members = some keyed ↔
      List.Forall₂ (fun m e => Piece.text? m.1 = some e.1 ∧ m.2 = e.2) members keyed := by
  have hmember (m : List Piece × Tree) (e : String × Tree) :
      (Piece.text? m.1).map (·, m.2) = some e ↔ Piece.text? m.1 = some e.1 ∧ m.2 = e.2 := by
    obtain ⟨key, t⟩ := e
    simp [Option.map_eq_some_iff]
  rw [Tree.keyed?, mapM_eq_some_iff]
  simp only [hmember]

theorem single?_eq_some_iff {name : String} {keyed : List (String × Tree)} {found : Option Tree} :
    Tree.single? name keyed = some found ↔
      (keyed.filter fun e => e.1 = name).map (·.2) = found.toList := by
  unfold Tree.single?
  have hfilter : keyed.filter (·.1 == name) = keyed.filter fun e => e.1 = name := by
    congr 1
  rw [hfilter]
  generalize keyed.filter (fun e => e.1 = name) = under
  match under with
  | [] => cases found <;> simp
  | [e] => cases found <;> simp
  | e :: e' :: rest => cases found <;> simp

/-- The parts that are read from a record are those that it has. -/
theorem fields?_eq_some_iff {names : List String} (hnames : names.Nodup) {t : Tree}
    {fields : List (Option Tree)} :
    t.fields? names = some fields ↔ ∃ part, HasParts names part t ∧ fields = names.map part := by
  cases t with
  | object members =>
    rw [Tree.fields?, Tree.members?]
    simp only [Option.bind_eq_bind, Option.bind_eq_some_iff, keyed?_eq_some_iff]
    constructor
    · rintro ⟨keyed, hkeys, hread⟩
      have hall := mapM_eq_some_iff.mp hread
      have hfound (name : String) (hname : name ∈ names) :
          Tree.single? name keyed = some ((Tree.single? name keyed).getD none) := by
        obtain ⟨i, hi, rfl⟩ := List.getElem_of_mem hname
        have heach := (List.forall₂_iff_get.mp hall).2 i hi (hall.length_eq ▸ hi)
        simp only [List.get_eq_getElem] at heach
        rw [heach]
        rfl
      refine ⟨fun name => (Tree.single? name keyed).getD none, .object hkeys fun name hname =>
        single?_eq_some_iff.mp (hfound name hname), ?_⟩
      have hsome : names.mapM (Tree.single? · keyed) =
          some (names.map fun name => (Tree.single? name keyed).getD none) := by
        rw [mapM_eq_some_iff, List.forall₂_map_right_iff, List.forall₂_same]
        exact hfound
      exact Option.some.inj (hread.symm.trans hsome)
    · rintro ⟨part, hparts, rfl⟩
      cases hparts with
      | object hkeys hparts =>
        refine ⟨_, hkeys, ?_⟩
        rw [mapM_eq_some_iff, List.forall₂_map_right_iff, List.forall₂_same]
        exact fun name hname => single?_eq_some_iff.mpr (hparts name hname)
  | array items =>
    rw [Tree.fields?]
    constructor
    · intro h
      split at h
      case isFalse => cases h
      next hlength =>
      cases h
      have hparts : items.map some = names.map fun name => items[names.idxOf name]? := by
        apply List.ext_getElem (by simpa using hlength)
        intro i hi hi'
        rw [List.length_map] at hi hi'
        rw [List.getElem_map, List.getElem_map, List.Nodup.idxOf_getElem hnames,
          List.getElem?_eq_getElem]
      exact ⟨_, .array hparts, hparts⟩
    · rintro ⟨part, hparts, rfl⟩
      cases hparts with
      | array hitems =>
        have hlength := congrArg List.length hitems
        rw [List.length_map, List.length_map] at hlength
        rw [if_pos hlength, hitems]
  | null | bool b | number n | text pieces =>
    constructor
    · intro h
      cases h
    · rintro ⟨part, hparts, -⟩
      cases hparts

/-- A part that may be missing or null, and what it tells otherwise. -/
inductive Optionally {α : Type} (tells : Tree → α → Prop) : Option Tree → Option α → Prop where
  | missing : Optionally tells none none
  | null : Optionally tells (some .null) none
  | some {t : Tree} {a : α} (h : tells t a) : Optionally tells (some t) (some a)

theorem optional_eq_some_iff {α : Type} {read : Tree → Option α} (hnull : read .null = none)
    {part : Option Tree} {value : Option α} :
    Tree.optional read part = some value ↔ Optionally (fun t a => read t = some a) part value := by
  constructor
  · intro h
    unfold Tree.optional at h
    split at h
    · cases h
      exact .missing
    · cases h
      exact .null
    · obtain ⟨a, ha, rfl⟩ := Option.map_eq_some_iff.mp h
      exact .some ha
  · intro h
    cases h with
    | missing => rfl
    | null => rfl
    | some h =>
      unfold Tree.optional
      split
      · next heq => cases heq
      · next heq =>
        cases heq
        rw [hnull] at h
        cases h
      · next heq =>
        cases heq
        rw [h]
        rfl

end Json

namespace Nominatim

open Json (HasParts Optionally Tree)

/-! ## Places -/

/-- A string literal tells its text. -/
def TellsText (t : Tree) (text : String) : Prop := t.text? = some text

/-- An array of string literals tells their texts. -/
def TellsTexts (t : Tree) (texts : List String) : Prop :=
  ∃ items, t = .array items ∧ List.Forall₂ TellsText items texts

def detailNames : List String :=
  ["house_number", "road", "suburb", "city", "town", "village", "state", "postcode", "country",
    "country_code"]

/-- The details of a place, by the parts of their record. -/
structure DetailParts (part : String → Option Tree) (d : Details) : Prop where
  houseNumber : Optionally TellsText (part "house_number") d.houseNumber
  road : Optionally TellsText (part "road") d.road
  suburb : Optionally TellsText (part "suburb") d.suburb
  city : Optionally TellsText (part "city") d.city
  town : Optionally TellsText (part "town") d.town
  village : Optionally TellsText (part "village") d.village
  state : Optionally TellsText (part "state") d.state
  postcode : Optionally TellsText (part "postcode") d.postcode
  country : Optionally TellsText (part "country") d.country
  countryCode : Optionally TellsText (part "country_code") d.countryCode

def TellsDetails (t : Tree) (d : Details) : Prop :=
  ∃ part, HasParts detailNames part t ∧ DetailParts part d

def placeNames : List String := ["lat", "lon", "display_name", "boundingbox", "address"]

/-- A place, by the parts of its record. -/
structure PlaceParts (part : String → Option Tree) (p : Place) : Prop where
  lat : ∃ t, part "lat" = some t ∧ TellsText t p.lat
  lon : ∃ t, part "lon" = some t ∧ TellsText t p.lon
  displayName : Optionally TellsText (part "display_name") p.displayName
  boundingBox : Optionally TellsTexts (part "boundingbox") p.boundingBox
  details : Optionally TellsDetails (part "address") p.details

def TellsPlace (t : Tree) (p : Place) : Prop :=
  ∃ part, HasParts placeNames part t ∧ PlaceParts part p

/-- The body of a search is a list of documents, each of which tells of a place. -/
def Tells (body : String) (places : List Place) : Prop :=
  ∃ items, Tree.ofText? body = some (.array items) ∧ List.Forall₂ TellsPlace items places

/-! ## Reading them -/

theorem list?_text?_eq_some_iff {t : Tree} {texts : List String} :
    t.list? Tree.text? = some texts ↔ TellsTexts t texts := by
  unfold TellsTexts
  cases t with
  | array items =>
    rw [Tree.list?, mapM_eq_some_iff]
    constructor
    · exact fun h => ⟨items, rfl, h⟩
    · rintro ⟨_, heq, h⟩
      cases heq
      exact h
  | null | bool b | number n | text pieces | object members => simp [Tree.list?]

theorem optional_text?_eq_some_iff {part : Option Tree} {value : Option String} :
    Tree.optional Tree.text? part = some value ↔ Optionally TellsText part value :=
  Json.optional_eq_some_iff rfl

theorem Details.ofTree?_eq_some_iff {t : Tree} {d : Details} :
    Details.ofTree? t = some d ↔ TellsDetails t d := by
  have hnames : detailNames.Nodup := by decide
  unfold Details.ofTree? TellsDetails
  constructor
  · intro h
    obtain ⟨fields, hfields, h⟩ := Option.bind_eq_some_iff.mp h
    obtain ⟨values, hvalues, h⟩ := Option.bind_eq_some_iff.mp h
    obtain ⟨part, hparts, rfl⟩ := (Json.fields?_eq_some_iff hnames).mp hfields
    refine ⟨part, hparts, ?_⟩
    rw [mapM_eq_some_iff] at hvalues
    simp only [detailNames, List.map_cons, List.map_nil, List.forall₂_cons_left_iff,
      List.forall₂_nil_left_iff, optional_text?_eq_some_iff] at hvalues
    obtain ⟨_, _, h1, ⟨_, _, h2, ⟨_, _, h3, ⟨_, _, h4, ⟨_, _, h5, ⟨_, _, h6, ⟨_, _, h7,
      ⟨_, _, h8, ⟨_, _, h9, ⟨_, _, h10, rfl, rfl⟩, rfl⟩, rfl⟩, rfl⟩, rfl⟩, rfl⟩, rfl⟩, rfl⟩, rfl⟩,
      rfl⟩ := hvalues
    cases h
    exact ⟨h1, h2, h3, h4, h5, h6, h7, h8, h9, h10⟩
  · rintro ⟨part, hparts, hdetails⟩
    refine Option.bind_eq_some_iff.mpr
      ⟨_, (Json.fields?_eq_some_iff hnames).mpr ⟨part, hparts, rfl⟩, ?_⟩
    refine Option.bind_eq_some_iff.mpr ⟨[d.houseNumber, d.road, d.suburb, d.city, d.town, d.village,
      d.state, d.postcode, d.country, d.countryCode], ?_, rfl⟩
    simp only [detailNames, List.map_cons, List.map_nil, mapM_eq_some_iff, List.forall₂_cons,
      List.forall₂_nil_left_iff, optional_text?_eq_some_iff]
    exact ⟨hdetails.houseNumber, hdetails.road, hdetails.suburb, hdetails.city, hdetails.town,
      hdetails.village, hdetails.state, hdetails.postcode, hdetails.country, hdetails.countryCode,
      trivial⟩

theorem required_text?_eq_some_iff {part : Option Tree} {text : String} :
    Tree.required Tree.text? part = some text ↔ ∃ t, part = some t ∧ TellsText t text :=
  Option.bind_eq_some_iff

theorem optional_texts?_eq_some_iff {part : Option Tree} {value : Option (List String)} :
    Tree.optional (Tree.list? Tree.text?) part = some value ↔
      Optionally TellsTexts part value := by
  rw [Json.optional_eq_some_iff rfl]
  simp only [list?_text?_eq_some_iff]

theorem optional_details_eq_some_iff {part : Option Tree} {value : Option Details} :
    Tree.optional Details.ofTree? part = some value ↔ Optionally TellsDetails part value := by
  rw [Json.optional_eq_some_iff rfl]
  simp only [Details.ofTree?_eq_some_iff]

theorem Place.ofTree?_eq_some_iff {t : Tree} {p : Place} :
    Place.ofTree? t = some p ↔ TellsPlace t p := by
  have hnames : placeNames.Nodup := by decide
  unfold Place.ofTree? TellsPlace
  constructor
  · intro h
    obtain ⟨fields, hfields, h⟩ := Option.bind_eq_some_iff.mp h
    obtain ⟨part, hparts, rfl⟩ := (Json.fields?_eq_some_iff hnames).mp hfields
    refine ⟨part, hparts, ?_⟩
    obtain ⟨lat, hlat, h⟩ := Option.bind_eq_some_iff.mp h
    obtain ⟨lon, hlon, h⟩ := Option.bind_eq_some_iff.mp h
    obtain ⟨displayName, hdisplayName, h⟩ := Option.bind_eq_some_iff.mp h
    obtain ⟨boundingBox, hboundingBox, h⟩ := Option.bind_eq_some_iff.mp h
    obtain ⟨details, hdetails, h⟩ := Option.bind_eq_some_iff.mp h
    cases h
    exact ⟨required_text?_eq_some_iff.mp hlat, required_text?_eq_some_iff.mp hlon,
      optional_text?_eq_some_iff.mp hdisplayName, optional_texts?_eq_some_iff.mp hboundingBox,
      optional_details_eq_some_iff.mp hdetails⟩
  · rintro ⟨part, hparts, hplace⟩
    refine Option.bind_eq_some_iff.mpr
      ⟨_, (Json.fields?_eq_some_iff hnames).mpr ⟨part, hparts, rfl⟩, ?_⟩
    refine Option.bind_eq_some_iff.mpr ⟨_, required_text?_eq_some_iff.mpr hplace.lat, ?_⟩
    refine Option.bind_eq_some_iff.mpr ⟨_, required_text?_eq_some_iff.mpr hplace.lon, ?_⟩
    refine Option.bind_eq_some_iff.mpr
      ⟨_, optional_text?_eq_some_iff.mpr hplace.displayName, ?_⟩
    refine Option.bind_eq_some_iff.mpr
      ⟨_, optional_texts?_eq_some_iff.mpr hplace.boundingBox, ?_⟩
    exact Option.bind_eq_some_iff.mpr ⟨_, optional_details_eq_some_iff.mpr hplace.details, rfl⟩

/-- The places that are read from a body are those that it tells of. -/
theorem placesOfText?_eq_some_iff {body : String} {places : List Place} :
    placesOfText? body = some places ↔ Tells body places := by
  rw [placesOfText?, Option.bind_eq_bind, Option.bind_eq_some_iff]
  constructor
  · rintro ⟨t, ht, hread⟩
    cases t with
    | array items =>
      refine ⟨items, ht, (mapM_eq_some_iff.mp hread).imp fun _ _ => ?_⟩
      exact Place.ofTree?_eq_some_iff.mp
    | null | bool b | number n | text pieces | object members => cases hread
  · rintro ⟨items, hitems, hall⟩
    refine ⟨_, hitems, mapM_eq_some_iff.mpr (hall.imp fun _ _ => ?_)⟩
    exact Place.ofTree?_eq_some_iff.mpr

end Nominatim

end Gazetteer
