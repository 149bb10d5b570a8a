import Gazetteer.Proofs.Cache.Entry
import Gazetteer.Proofs.Export.Feature
import Gazetteer.Proofs.Number.Overflow
import Gazetteer.Proofs.Provider.Boxes
import Gazetteer.Proofs.Provider.Parameters

/-!
# Where the places of a service are

A service tells the position of a place by two texts.  Every number text will do, the names of NaN
and of the infinities and numbers beyond the doubles among them, so a call succeeds just if all the
texts are numbers, and its addresses are where the texts say.  They are at finite positions just if
the texts denote numbers that a double can hold.  Otherwise the answer cannot be kept: its cache
entry has no numbers for such a position and is not read again.

    p.position? = some c → (c.IsFinite ↔ p.IsReal)                       (position_isFinite_iff)
    an address at no finite position → its entry is not read               (ofText?_text_unreal)
    a call succeeds ↔ the texts of all its places are numbers                 (result_positions)
-/

namespace Gazetteer

/-! ## Positions in entries -/

theorem Binary64.isFinite_of_reread? {x y : Binary64} (h : x.reread? = some y) :
    x.isFinite = true := by
  cases x with
  | nan => cases h
  | infinite s => cases h
  | finite s u hu => rfl

theorem Coordinates.isFinite_of_reread? {c c' : Coordinates} (h : c.reread? = some c') :
    c.IsFinite := by
  obtain ⟨latitude, hlatitude, h⟩ := Option.bind_eq_some_iff.mp h
  obtain ⟨longitude, hlongitude, -⟩ := Option.bind_eq_some_iff.mp h
  exact ⟨Binary64.isFinite_of_reread? hlatitude, Binary64.isFinite_of_reread? hlongitude⟩

/-- An entry with an address at no finite position is not read. -/
theorem CacheEntry.ofText?_text_unreal {e : CacheEntry} {a : Address} (ha : a ∈ e.addresses)
    (hunreal : ¬ a.coordinates.IsFinite) : ofText? e.text = none := by
  cases hread : ofText? e.text with
  | none => rfl
  | some e' =>
    have hall := mapM_isSome_iff.mp (Option.isSome_of_eq_some (reread?_of_ofText? hread)) a ha
    obtain ⟨b, hb⟩ := Option.isSome_iff_exists.mp hall
    obtain ⟨c, hc, -⟩ := Option.bind_eq_some_iff.mp hb
    exact absurd (Coordinates.isFinite_of_reread? hc) hunreal

namespace Nominatim

/-! ## Places -/

namespace Place

/-- The position that the texts of a place denote. -/
def position? (p : Place) : Option Coordinates := do
  return ⟨← number? p.lat, ← number? p.lon⟩

/-- Both texts denote numbers that a double can hold. -/
def IsReal (p : Place) : Prop := IsRealText p.lat ∧ IsRealText p.lon

end Place

theorem number?_eq_some_iff {text : String} {x : Binary64} :
    number? text = some x ↔ Binary64.ofText text = .ok x := by
  unfold number?
  cases Binary64.ofText text <;> simp [Except.toOption]

theorem degrees_eq_ok_iff {id : ProviderId} {text : String} {x : Binary64} :
    degrees id text = .ok x ↔ number? text = some x := by
  rw [degrees, mapError_eq_ok_iff, number?_eq_some_iff]

theorem Place.position?_eq_some_iff {p : Place} {c : Coordinates} :
    p.position? = some c ↔ number? p.lat = some c.latitude ∧ number? p.lon = some c.longitude := by
  obtain ⟨latitude, longitude⟩ := c
  simp only [position?, Option.bind_eq_bind, Option.bind_eq_some_iff, Option.pure_def,
    Option.some.injEq, Coordinates.mk.injEq]
  constructor
  · rintro ⟨_, hlatitude, _, hlongitude, rfl, rfl⟩
    exact ⟨hlatitude, hlongitude⟩
  · rintro ⟨hlatitude, hlongitude⟩
    exact ⟨_, hlatitude, _, hlongitude, rfl, rfl⟩

theorem Place.position_isFinite_iff {p : Place} {c : Coordinates} (h : p.position? = some c) :
    c.IsFinite ↔ p.IsReal := by
  obtain ⟨hlatitude, hlongitude⟩ := position?_eq_some_iff.mp h
  exact and_congr (Binary64.ofText_isFinite_iff (number?_eq_some_iff.mp hlatitude))
    (Binary64.ofText_isFinite_iff (number?_eq_some_iff.mp hlongitude))

theorem Place.position?_of_toAddress {id : ProviderId} {p : Place} {a : Address}
    (h : p.toAddress id = .ok a) : p.position? = some a.coordinates := by
  obtain ⟨latitude, hlatitude, h⟩ := bind_eq_ok_iff.mp h
  obtain ⟨longitude, hlongitude, h⟩ := bind_eq_ok_iff.mp h
  cases h
  exact position?_eq_some_iff.mpr
    ⟨degrees_eq_ok_iff.mp hlatitude, degrees_eq_ok_iff.mp hlongitude⟩

theorem Place.exists_toAddress_iff (id : ProviderId) (p : Place) :
    (∃ a, p.toAddress id = .ok a) ↔ p.position?.isSome := by
  constructor
  · rintro ⟨a, ha⟩
    exact Option.isSome_of_eq_some (position?_of_toAddress ha)
  · intro h
    obtain ⟨c, hc⟩ := Option.isSome_iff_exists.mp h
    obtain ⟨hlatitude, hlongitude⟩ := position?_eq_some_iff.mp hc
    rw [toAddress, degrees_eq_ok_iff.mpr hlatitude, degrees_eq_ok_iff.mpr hlongitude]
    exact ⟨_, rfl⟩

/-! ## Answers -/

/-- The places that the body of an answer to a query tells of, as far as they count. -/
def told? (q : Query) (body : String) : Option (List Place) :=
  match q with
  | .text _ => (placesOfText? body).map (·.take maxResults)
  | .point _ => (Found.ofText? body).map fun
    | Found.place p => [p]
    | Found.nothing => []

namespace Service

variable {ν : Type} {s : Service} {n : Http.Network ν} {x : ν} {q : Query}

theorem answered_eq_ok_iff {body : String} {found : List Address} :
    s.answered q body = .ok found ↔ ∃ places, told? q body = some places ∧
      List.Forall₂ (fun p a => p.toAddress s.id = .ok a) places found := by
  simp only [← mapM_eq_ok_iff]
  cases q with
  | text t =>
    unfold answered addresses told?
    dsimp only
    cases placesOfText? body <;> simp
  | point c =>
    unfold answered reverseAddresses told?
    dsimp only
    cases Found.ofText? body with
    | none => simp
    | some answer =>
      cases answer with
      | nothing => simp [pure, Except.pure]
      | place p =>
        cases p.toAddress s.id <;> simp [Except.map, pure, bind, Except.pure, Except.bind]

/-- The body that a service receives for a query, over a network in a state: there is a request, it
is answered, and the answer is a success. -/
def received (s : Service) (n : Http.Network ν) (x : ν) (q : Query) : Option String := do
  let request ← s.request? n (searchName q) (ownParameters q)
  let answer ← ((n.send request).run x).1
  if answer.isSuccess then some answer.body else none

/-- The answer that a service has to a query, over a network in a state. -/
def answer? (s : Service) (n : Http.Network ν) (x : ν) (q : Query) : Option Http.Answer :=
  (s.request? n (searchName q) (ownParameters q)).bind fun request => ((n.send request).run x).1

theorem received_eq : s.received n x q = (s.answer? n x q).bind fun answer =>
    if answer.isSuccess then some answer.body else none := by
  unfold received answer?
  rw [Option.bind_assoc]
  rfl

/-- What comes of a query to a service. -/
def result (s : Service) (n : Http.Network ν) (x : ν) (q : Query) :
    Except ProviderError (List Address) :=
  (((Provider.nominatim s n).ask q).run.run x).1

/-- The places that a service is told of for a query, as far as they count. -/
def places? (s : Service) (n : Http.Network ν) (x : ν) (q : Query) : Option (List Place) :=
  (s.received n x q).bind (told? q)

theorem result_eq : s.result n x q =
    match s.answer? n x q with
    | none => .error .http
    | some answer =>
      if answer.isSuccess then s.answered q answer.body
      else .error (.unavailable s.id.name
        ("status " ++ answer.statusText ++ ": " ++ shown answer.body)) := by
  rw [result, ask_eq]
  unfold answer? fetch
  cases s.request? n (searchName q) (ownParameters q) with
  | none => rfl
  | some request =>
    have hsend : (liftM (n.send request) : ProviderM ν (Option Http.Answer)).run.run x =
        (.ok ((n.send request).run x).1, ((n.send request).run x).2) := rfl
    dsimp only [Option.bind_some]
    rw [bind_assoc, run_bind_ok hsend]
    cases ((n.send request).run x).1 with
    | none => rfl
    | some answer =>
      dsimp only
      split <;> rfl

theorem result_eq_ok_iff {found : List Address} :
    s.result n x q = .ok found ↔ ∃ places, s.places? n x q = some places ∧
      List.Forall₂ (fun p a => p.toAddress s.id = .ok a) places found := by
  rw [result_eq, places?, received_eq]
  cases s.answer? n x q with
  | none => simp
  | some answer =>
    dsimp only [Option.bind_some]
    split
    · exact answered_eq_ok_iff
    · simp

end Service

/-! ## The positions of an answer -/

/-- What the addresses of an answer owe to the places that the service is told of. -/
structure Positions (places : List Place) (found : List Address) : Prop where
  /-- They are at the positions of the places, in their order, and each of these is finite if and
  only if the place is real. -/
  placed : List.Forall₂ (fun p a =>
    p.position? = some a.coordinates ∧ (a.coordinates.IsFinite ↔ p.IsReal)) places found
  /-- With a place that is not real, their entry is never read. -/
  lost : (∃ p ∈ places, ¬ p.IsReal) →
    ∀ time, CacheEntry.ofText? (CacheEntry.text ⟨time, found⟩) = none

theorem exists_mem_of_forall₂ {α β : Type} {r : α → β → Prop} {l : List α} {l' : List β}
    (h : List.Forall₂ r l l') {a : α} (ha : a ∈ l) : ∃ b ∈ l', r a b := by
  induction h with
  | nil => cases ha
  | cons hfirst _ ih =>
    rcases List.mem_cons.mp ha with rfl | ha
    · exact ⟨_, List.mem_cons_self, hfirst⟩
    · obtain ⟨b, hb, hr⟩ := ih ha
      exact ⟨b, List.mem_cons_of_mem _ hb, hr⟩

theorem positions_of_toAddress {id : ProviderId} {places : List Place} {found : List Address}
    (h : List.Forall₂ (fun p a => p.toAddress id = .ok a) places found) :
    Positions places found := by
  have hplaced : List.Forall₂ (fun p a =>
      p.position? = some a.coordinates ∧ (a.coordinates.IsFinite ↔ p.IsReal)) places found :=
    h.imp fun p a ha => ⟨Place.position?_of_toAddress ha,
      Place.position_isFinite_iff (Place.position?_of_toAddress ha)⟩
  refine ⟨hplaced, ?_⟩
  rintro ⟨p, hp, hunreal⟩ time
  obtain ⟨a, ha, -, hreal⟩ := exists_mem_of_forall₂ hplaced hp
  exact CacheEntry.ofText?_text_unreal (e := ⟨time, found⟩) ha fun hfinite =>
    hunreal (hreal.mp hfinite)

/-- Addresses are where the texts say.  For every network, whatever it answers: a call succeeds
if and only if the service is told of places whose texts are numbers, the names of NaN and of the
infinities among them; and then the addresses are at the positions that the texts denote. -/
theorem result_positions {ν : Type} (s : Service) (n : Http.Network ν) (x : ν) (q : Query) :
    ((∃ found, s.result n x q = .ok found) ↔
      ∃ places, s.places? n x q = some places ∧ ∀ p ∈ places, p.position?.isSome) ∧
    ∀ found, s.result n x q = .ok found →
      ∃ places, s.places? n x q = some places ∧ Positions places found := by
  refine ⟨⟨?_, ?_⟩, ?_⟩
  · rintro ⟨found, hfound⟩
    obtain ⟨places, hplaces, heach⟩ := Service.result_eq_ok_iff.mp hfound
    refine ⟨places, hplaces, ?_⟩
    have hboth := heach.imp (S := fun p a => p.position?.isSome ∧ p.toAddress s.id = .ok a)
      fun p a ha => ⟨(Place.exists_toAddress_iff s.id p).mp ⟨a, ha⟩, ha⟩
    exact ((List.forall₂_and_left _ _).mp hboth).1
  · rintro ⟨places, hplaces, hnumbers⟩
    have hall := mapM_ok fun p hp => (Place.exists_toAddress_iff s.id p).mpr (hnumbers p hp)
    exact ⟨_, Service.result_eq_ok_iff.mpr ⟨places, hplaces, mapM_eq_ok_iff.mp hall⟩⟩
  · intro found hfound
    obtain ⟨places, hplaces, heach⟩ := Service.result_eq_ok_iff.mp hfound
    exact ⟨places, hplaces, positions_of_toAddress heach⟩

/-- A network where this machine gives everything one answer. -/
def answering (body : String) : Http.Network Unit :=
  { Service.localNetwork with send := fun _ => return some ⟨200, body⟩ }

/-- Of two places the one is at a finite position and the other is not. -/
theorem result_positions_two :
    let n := answering ("[\x7b\"lat\": \"-.5e1\", \"lon\": \"40\"\x7d, " ++
      "\x7b\"lat\": \"1\", \"lon\": \"+Infinity\"\x7d]")
    let places : List Place :=
      [⟨"-.5e1", "40", none, none, none⟩, ⟨"1", "+Infinity", none, none, none⟩]
    Service.localhost.places? n () (.text "x") = some places ∧
      ∃ found, Service.localhost.result n () (.text "x") = .ok found ∧ Positions places found := by
  intro n places
  have hplaces : Service.localhost.places? n () (.text "x") = some places := by decide +kernel
  have hnumbers : ∀ p ∈ places, p.position?.isSome := by decide +kernel
  obtain ⟨hsucceeds, hpositions⟩ := result_positions Service.localhost n () (.text "x")
  obtain ⟨found, hfound⟩ := hsucceeds.mpr ⟨places, hplaces, hnumbers⟩
  obtain ⟨told, htold, h⟩ := hpositions found hfound
  rw [hplaces] at htold
  cases htold
  exact ⟨hplaces, found, hfound, h⟩

/-- The name of NaN and a number beyond the doubles are taken for a position.  The call succeeds,
and the entry that is kept for it is never read. -/
theorem result_unreal :
    let n := answering "[\x7b\"lat\": \"nan\", \"lon\": \"1e400\"\x7d]"
    let found : List Address := [{ coordinates := ⟨.nan, .infinite false⟩, providedBy := "mapsco" }]
    let e : CacheEntry := ⟨⟨2020, 1, 1, 0, 0, 0, 0, by decide⟩, found⟩
    (Service.localhost.result n () (.text "x")).toOption = some found ∧
      (∀ a ∈ found, ¬ a.coordinates.IsFinite) ∧ CacheEntry.ofText? e.text = none := by
  intro n found e
  have hunreal : ∀ a ∈ found, ¬ a.coordinates.IsFinite := by decide
  refine ⟨by decide +kernel, hunreal, ?_⟩
  exact CacheEntry.ofText?_text_unreal List.mem_cons_self (hunreal _ List.mem_cons_self)

end Nominatim

end Gazetteer
