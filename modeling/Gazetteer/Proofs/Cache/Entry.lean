import Gazetteer.Proofs.Address.ReadBack
import Gazetteer.Proofs.Instant.ReadBack

/-!
# Entries are read back as they are

The reader of JSON numbers rounds in several steps, so the number that a double is written as may be
read as a neighbour of the double.  Nothing else in an entry changes on the way through its text:
the time, the texts with all their characters, and which fields are present are read back as they
were.  So an entry is read back as it is just if each of its doubles is.

    a.reread? = some a ↔ ∀ x ∈ a.doubles, x.ReadsBack                    (reread?_eq_self_iff)
    as.mapM reread? = some as ↔ each of them is read back as it is  (mapM_reread?_eq_self_iff)
    every double of e reads back → ofText? e.text = some e                 (ofText?_text_self)
-/

namespace Gazetteer

open Json (Tree)

/-! ## Doubles -/

namespace Binary64

/-- The text of the double as a number is a document that is read as the double. -/
def ReadsBack (x : Binary64) : Prop :=
  (Tree.ofText? (String.ofList (Json.doubleChars x))).bind Tree.double? = some x

instance (x : Binary64) : Decidable x.ReadsBack := inferInstanceAs (Decidable (_ = _))

theorem readsBack_iff (x : Binary64) : x.ReadsBack ↔ x.reread? = some x := by
  have hdocument : Tree.ofText? (String.ofList (Json.doubleChars x)) = some (Json.doubleTree x) := by
    have h := Json.ofText?_compact (.double x)
    rwa [Json.Value.compact, Json.Value.chars, Json.Value.tree] at h
  rw [ReadsBack, hdocument]
  rfl

end Binary64

namespace Coordinates

def doubles (c : Coordinates) : List Binary64 := [c.latitude, c.longitude]

theorem reread?_eq_self_iff (c : Coordinates) :
    c.reread? = some c ↔ ∀ x ∈ c.doubles, x.ReadsBack := by
  obtain ⟨latitude, longitude⟩ := c
  simp only [reread?, doubles, Option.bind_eq_bind, Option.bind_eq_some_iff, Option.pure_def,
    Option.some.injEq, mk.injEq, List.forall_mem_cons, List.not_mem_nil, false_implies,
    implies_true, and_true, Binary64.readsBack_iff]
  constructor
  · rintro ⟨_, hlatitude, _, hlongitude, rfl, rfl⟩
    exact ⟨hlatitude, hlongitude⟩
  · rintro ⟨hlatitude, hlongitude⟩
    exact ⟨_, hlatitude, _, hlongitude, rfl, rfl⟩

end Coordinates

namespace Bounds

def doubles (b : Bounds) : List Binary64 := [b.south, b.west, b.north, b.east]

theorem reread?_eq_self_iff (b : Bounds) :
    b.reread? = some b ↔ ∀ x ∈ b.doubles, x.ReadsBack := by
  obtain ⟨south, west, north, east⟩ := b
  simp only [reread?, doubles, Option.bind_eq_bind, Option.bind_eq_some_iff, Option.pure_def,
    Option.some.injEq, mk.injEq, List.forall_mem_cons, List.not_mem_nil, false_implies,
    implies_true, and_true, Binary64.readsBack_iff]
  constructor
  · rintro ⟨_, hsouth, _, hwest, _, hnorth, _, heast, rfl, rfl, rfl, rfl⟩
    exact ⟨hsouth, hwest, hnorth, heast⟩
  · rintro ⟨hsouth, hwest, hnorth, heast⟩
    exact ⟨_, hsouth, _, hwest, _, hnorth, _, heast, rfl, rfl, rfl, rfl⟩

theorem rereadPresent?_eq_self_iff (b : Option Bounds) :
    rereadPresent? b = some b ↔ ∀ x ∈ (b.map doubles).getD [], x.ReadsBack := by
  cases b with
  | none => simp [rereadPresent?]
  | some b =>
    rw [Option.map_some, Option.getD_some, ← reread?_eq_self_iff, rereadPresent?,
      Option.map_eq_some_iff]
    simp

end Bounds

namespace Address

/-- The doubles of an address. -/
def doubles (a : Address) : List Binary64 :=
  a.coordinates.doubles ++ (a.bounds.map Bounds.doubles).getD []

theorem reread?_eq_self_iff (a : Address) :
    a.reread? = some a ↔ ∀ x ∈ a.doubles, x.ReadsBack := by
  rw [doubles, List.forall_mem_append, ← Coordinates.reread?_eq_self_iff,
    ← Bounds.rereadPresent?_eq_self_iff]
  obtain ⟨coordinates, streetNumber, streetName, subLocality, locality, postalCode, adminArea,
    country, countryCode, formatted, bounds, providedBy⟩ := a
  simp only [reread?, Option.bind_eq_bind, Option.bind_eq_some_iff, Option.pure_def,
    Option.some.injEq, mk.injEq, true_and, and_true]
  constructor
  · rintro ⟨_, hcoordinates, _, hbounds, rfl, rfl⟩
    exact ⟨hcoordinates, hbounds⟩
  · rintro ⟨hcoordinates, hbounds⟩
    exact ⟨_, hcoordinates, _, hbounds, rfl, rfl⟩

theorem mapM_reread?_eq_self_iff (as : List Address) :
    as.mapM reread? = some as ↔ ∀ a ∈ as, ∀ x ∈ a.doubles, x.ReadsBack := by
  induction as with
  | nil => simp
  | cons a rest ih =>
    rw [List.forall_mem_cons, ← ih, ← reread?_eq_self_iff, List.mapM_cons]
    simp only [Option.bind_eq_bind, Option.bind_eq_some_iff, Option.pure_def, Option.some.injEq,
      List.cons.injEq]
    constructor
    · rintro ⟨_, ha, _, hrest, rfl, rfl⟩
      exact ⟨ha, hrest⟩
    · rintro ⟨ha, hrest⟩
      exact ⟨_, ha, _, hrest, rfl, rfl⟩

end Address

/-! ## Entries -/

namespace CacheEntry

/-- An entry is read back from its text as it is: its time and all addresses in their order, with
every field, absent ones absent and empty ones empty. -/
theorem ofText?_text_self (e : CacheEntry) (htime : e.storedAt.InRange)
    (hdoubles : ∀ a ∈ e.addresses, ∀ x ∈ a.doubles, x.ReadsBack) : ofText? e.text = some e := by
  have haddresses := (Address.mapM_reread?_eq_self_iff e.addresses).mpr hdoubles
  rw [ofText?_text, Instant.ofText?_text e.storedAt htime, haddresses]
  rfl

/-- An entry from the middle of a leap second, with an empty field, a field full of marks, and
doubles near both ends of the range. -/
theorem ofText?_text_self_leap :
    let box : Bounds := ⟨.zero true, .ofDecimal true ⟨15, -1⟩, .ofDecimal false ⟨5, -324⟩,
      .ofDecimal false ⟨1, 300⟩⟩
    let address : Address := {
      coordinates := ⟨.ofDecimal false ⟨407127281, -7⟩, .ofDecimal true ⟨1, -6⟩⟩
      streetName := some ""
      formatted := some "\"\\/\n\x01 é 😀"
      bounds := some box
      providedBy := "p" }
    let e : CacheEntry := ⟨⟨2016, 12, 31, 23, 59, 59, 1500000000, by decide⟩, [address, address]⟩
    e.storedAt.InRange ∧ (∀ a ∈ e.addresses, ∀ x ∈ a.doubles, x.ReadsBack) ∧
      ofText? e.text = some e := by
  intro box address e
  have htime : e.storedAt.InRange := by decide
  have hdoubles : ∀ a ∈ e.addresses, ∀ x ∈ a.doubles, x.ReadsBack := by decide +kernel
  exact ⟨htime, hdoubles, ofText?_text_self e htime hdoubles⟩

end CacheEntry

end Gazetteer
