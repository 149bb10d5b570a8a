import Gazetteer.Proofs.Number.Grammar
import Gazetteer.Proofs.Provider.Places
import Gazetteer.Proofs.Provider.Positions

/-!
# What a search is answered with

Of the places that the body of an answer tells, the first five count.  Each of them makes an address
of its own, with its details, at the numbers that its two texts denote.  If one of these texts is no
number, nothing is made of any place, and the first such text is told of.  What comes after the
fifth place changes nothing, though it has to be readable.

    MadeFrom provider p a: the address a is made from the place p
    Yields provider places r: what comes of places
    Searched s answer r: what comes of a search with this answer, if there is one

    p.toAddress provider = .ok a ↔ MadeFrom provider p a                    (toAddress_eq_ok_iff)
    places.mapM (toAddress provider) = r ↔ Yields provider places r         (mapM_toAddress_eq_iff)
    s.result n x (.text text) = r ↔ Searched s (s.answer? n x (.text text)) r   (search_result_iff)
-/

namespace Gazetteer.Nominatim

open NumberText (Denotes IsNumber)

/-! ## One place -/

/-- An address at the numbers that the texts of a place denote, with the details of this place. -/
structure MadeFrom (provider : ProviderId) (p : Place) (a : Address) : Prop where
  latitude : Denotes p.lat.toList a.coordinates.latitude
  longitude : Denotes p.lon.toList a.coordinates.longitude
  streetNumber : a.streetNumber = (p.details.getD {}).houseNumber
  streetName : a.streetName = (p.details.getD {}).road
  subLocality : a.subLocality = (p.details.getD {}).suburb
  /-- The first name that there is: of a city, of a town, of a village. -/
  locality : a.locality = [(p.details.getD {}).city, (p.details.getD {}).town,
    (p.details.getD {}).village].findSome? id
  postalCode : a.postalCode = (p.details.getD {}).postcode
  adminArea : a.adminArea = (p.details.getD {}).state
  country : a.country = (p.details.getD {}).country
  countryCode : a.countryCode = (p.details.getD {}).countryCode.map Text.upper
  formatted : a.formatted = p.displayName
  bounds : a.bounds = p.boundingBox.bind boundsOf
  providedBy : a.providedBy = provider.name

/-- The fault of a text that is no number. -/
def notNumber (provider : ProviderId) (text : String) : ProviderError :=
  let reason :=
    if text = "" then "cannot parse float from empty string" else "invalid float literal"
  .unavailable provider.name ("invalid coordinate '" ++ text ++ "': " ++ reason)

section Place

variable {provider : ProviderId} {text : String} {x : Binary64} {p : Place} {a : Address}

theorem degrees_eq_ok_iff_denotes : degrees provider text = .ok x ↔ Denotes text.toList x := by
  rw [degrees_eq_ok_iff, number?_eq_some_iff, NumberText.ofText_eq_ok_iff]

theorem degrees_eq_error (h : ¬ IsNumber text) :
    degrees provider text = .error (notNumber provider text) := by
  rw [degrees, NumberText.ofText_eq_error h, notNumber]
  split <;> rfl

theorem orElse_orElse {α : Type} (first second third : Option α) :
    (first <|> second <|> third) = [first, second, third].findSome? id := by
  cases first <;> cases second <;> cases third <;> rfl

theorem toAddress_eq_ok_iff : p.toAddress provider = .ok a ↔ MadeFrom provider p a := by
  constructor
  · intro h
    obtain ⟨latitude, hlatitude, h⟩ := bind_eq_ok_iff.mp h
    obtain ⟨longitude, hlongitude, h⟩ := bind_eq_ok_iff.mp h
    cases h
    constructor
    case latitude => exact degrees_eq_ok_iff_denotes.mp hlatitude
    case longitude => exact degrees_eq_ok_iff_denotes.mp hlongitude
    case locality => exact orElse_orElse _ _ _
    all_goals rfl
  · intro h
    rw [Place.toAddress, degrees_eq_ok_iff_denotes.mpr h.latitude,
      degrees_eq_ok_iff_denotes.mpr h.longitude]
    apply congrArg Except.ok
    obtain ⟨⟨latitude, longitude⟩, _⟩ := a
    obtain ⟨-, -, rfl, rfl, rfl, rfl, rfl, rfl, rfl, rfl, rfl, rfl, rfl⟩ := h
    rw [orElse_orElse]

/-- The latitude is read first. -/
theorem toAddress_eq_error_lat (h : ¬ IsNumber p.lat) :
    p.toAddress provider = .error (notNumber provider p.lat) := by
  rw [Place.toAddress, degrees_eq_error h]
  rfl

theorem toAddress_eq_error_lon (hlat : IsNumber p.lat) (h : ¬ IsNumber p.lon) :
    p.toAddress provider = .error (notNumber provider p.lon) := by
  obtain ⟨x, hx⟩ := hlat
  rw [Place.toAddress, degrees_eq_ok_iff_denotes.mpr hx, degrees_eq_error h]
  rfl

theorem exists_toAddress (provider : ProviderId) (hlat : IsNumber p.lat) (hlon : IsNumber p.lon) :
    ∃ a, p.toAddress provider = .ok a := by
  obtain ⟨x, hx⟩ := hlat
  obtain ⟨y, hy⟩ := hlon
  rw [Place.toAddress, degrees_eq_ok_iff_denotes.mpr hx, degrees_eq_ok_iff_denotes.mpr hy]
  exact ⟨_, rfl⟩

end Place

/-! ## Places in their order -/

/-- The texts of the positions of places, in the order in which they are read. -/
def positionTexts (places : List Place) : List String := places.flatMap fun p => [p.lat, p.lon]

/-- What comes of places: an address for each, or the fault of the first text that is no number. -/
inductive Yields (provider : ProviderId) (places : List Place) :
    Except ProviderError (List Address) → Prop where
  | addresses {found : List Address} (h : List.Forall₂ (MadeFrom provider) places found) :
      Yields provider places (.ok found)
  | fault {before after : List String} {text : String}
      (h : positionTexts places = before ++ text :: after) (hbefore : ∀ t ∈ before, IsNumber t)
      (htext : ¬ IsNumber text) : Yields provider places (.error (notNumber provider text))

/-- What is not true of all items is not true of a first one. -/
theorem exists_first_not {α : Type} {P : α → Prop} {l : List α} (h : ¬ ∀ a ∈ l, P a) :
    ∃ before a after, l = before ++ a :: after ∧ (∀ b ∈ before, P b) ∧ ¬ P a := by
  induction l with
  | nil => exact absurd (List.forall_mem_nil P) h
  | cons a rest ih =>
    by_cases ha : P a
    · have hrest : ¬ ∀ b ∈ rest, P b := fun hall => h (List.forall_mem_cons.mpr ⟨ha, hall⟩)
      obtain ⟨before, b, after, rfl, hbefore, hb⟩ := ih hrest
      exact ⟨a :: before, b, after, rfl, List.forall_mem_cons.mpr ⟨ha, hbefore⟩, hb⟩
    · exact ⟨[], a, rest, rfl, List.forall_mem_nil P, ha⟩

section Places

variable {provider : ProviderId} {places : List Place} {r : Except ProviderError (List Address)}

theorem mapM_toAddress_eq_error {before after : List String} {text : String}
    (h : positionTexts places = before ++ text :: after) (hbefore : ∀ t ∈ before, IsNumber t)
    (htext : ¬ IsNumber text) :
    places.mapM (Place.toAddress provider) = .error (notNumber provider text) := by
  induction places generalizing before with
  | nil => cases before <;> cases h
  | cons p rest ih =>
    -- the text is the first of the place, the second, or a text of the rest
    rw [List.mapM_cons]
    cases before with
    | nil =>
      obtain ⟨rfl, -⟩ := List.cons.inj h
      rw [toAddress_eq_error_lat htext]
      rfl
    | cons lat before =>
      obtain ⟨rfl, htail⟩ := List.cons.inj h
      obtain ⟨hlat, hrest⟩ := List.forall_mem_cons.mp hbefore
      cases before with
      | nil =>
        obtain ⟨rfl, -⟩ := List.cons.inj htail
        rw [toAddress_eq_error_lon hlat htext]
        rfl
      | cons lon before =>
        obtain ⟨rfl, hlater⟩ := List.cons.inj htail
        obtain ⟨hlon, hrest⟩ := List.forall_mem_cons.mp hrest
        obtain ⟨a, ha⟩ := exists_toAddress provider hlat hlon
        rw [ha, ih hlater hrest]
        rfl

theorem exists_addresses (provider : ProviderId) (h : ∀ t ∈ positionTexts places, IsNumber t) :
    ∃ found, List.Forall₂ (MadeFrom provider) places found := by
  have hall : ∀ p ∈ places, ∃ a, p.toAddress provider = .ok a := by
    intro p hp
    have hmem (t : String) (ht : t ∈ [p.lat, p.lon]) : t ∈ positionTexts places :=
      List.mem_flatMap.mpr ⟨p, hp, ht⟩
    exact exists_toAddress provider (h _ (hmem _ (by simp))) (h _ (hmem _ (by simp)))
  exact ⟨_, (mapM_eq_ok_iff.mp (mapM_ok hall)).imp fun _ _ => toAddress_eq_ok_iff.mp⟩

theorem Yields.mapM_eq (h : Yields provider places r) :
    places.mapM (Place.toAddress provider) = r := by
  cases h with
  | addresses h => exact mapM_eq_ok_iff.mpr (h.imp fun _ _ => toAddress_eq_ok_iff.mpr)
  | fault h hbefore htext => exact mapM_toAddress_eq_error h hbefore htext

theorem exists_yields (provider : ProviderId) (places : List Place) :
    ∃ r, Yields provider places r := by
  by_cases hall : ∀ t ∈ positionTexts places, IsNumber t
  · obtain ⟨found, hfound⟩ := exists_addresses provider hall
    exact ⟨_, .addresses hfound⟩
  · obtain ⟨before, text, after, htexts, hbefore, htext⟩ := exists_first_not hall
    exact ⟨_, .fault htexts hbefore htext⟩

theorem mapM_toAddress_eq_iff :
    places.mapM (Place.toAddress provider) = r ↔ Yields provider places r := by
  constructor
  · rintro rfl
    obtain ⟨r, hr⟩ := exists_yields provider places
    rwa [hr.mapM_eq]
  · exact Yields.mapM_eq

end Places

/-! ## The answer to a search -/

/-- What comes of a search, by the answer to its request. -/
inductive Searched (s : Service) :
    Option Http.Answer → Except ProviderError (List Address) → Prop where
  | unanswered : Searched s none (.error .http)
  | refused {answer : Http.Answer} (h : answer.isSuccess = false) :
      Searched s (some answer) (.error (.unavailable s.id.name
        ("status " ++ answer.statusText ++ ": " ++ shown answer.body)))
  | unreadable {answer : Http.Answer} (h : answer.isSuccess = true)
      (hbody : ∀ places, ¬ Tells answer.body places) : Searched s (some answer) (.error .decode)
  | read {answer : Http.Answer} {places : List Place} {r : Except ProviderError (List Address)}
      (h : answer.isSuccess = true) (hbody : Tells answer.body places)
      (hr : Yields s.id (places.take 5) r) : Searched s (some answer) r

section Search

variable {ν : Type} {s : Service} {n : Http.Network ν} {x : ν} {text : String}
  {r : Except ProviderError (List Address)}

theorem addresses_eq_iff {body : String} : s.addresses body = r ↔
    ((∀ places, ¬ Tells body places) ∧ r = .error .decode) ∨
      ∃ places, Tells body places ∧ Yields s.id (places.take 5) r := by
  simp only [← placesOfText?_eq_some_iff, ← Option.eq_none_iff_forall_ne_some]
  unfold Service.addresses
  cases placesOfText? body with
  | none => simp [eq_comm]
  | some places => simp [← mapM_toAddress_eq_iff, maxResults]

theorem search_result_iff :
    s.result n x (.text text) = r ↔ Searched s (s.answer? n x (.text text)) r := by
  rw [Service.result_eq]
  cases s.answer? n x (.text text) with
  | none =>
    constructor
    · rintro rfl
      exact .unanswered
    · rintro ⟨⟩
      rfl
  | some answer =>
    dsimp only
    split
    · next hsuccess =>
      rw [Service.answered, addresses_eq_iff]
      constructor
      · rintro (⟨hbody, rfl⟩ | ⟨places, hbody, hr⟩)
        · exact .unreadable hsuccess hbody
        · exact .read hsuccess hbody hr
      · intro h
        cases h with
        | refused h =>
          rw [hsuccess] at h
          cases h
        | unreadable _ hbody => exact .inl ⟨hbody, rfl⟩
        | read _ hbody hr => exact .inr ⟨_, hbody, hr⟩
    · next hfailed =>
      have hfailed := Bool.eq_false_iff.mpr hfailed
      constructor
      · rintro rfl
        exact .refused hfailed
      · intro h
        cases h with
        | refused _ => rfl
        | unreadable h _ | read h _ _ =>
          rw [h] at hfailed
          cases hfailed

end Search

end Gazetteer.Nominatim
