import Gazetteer.Proofs.Json.Enclosed
import Gazetteer.Proofs.Provider.Positions

/-!
# One place, from a search and from a reverse search

A reverse search is answered with a place, or with an error text in its stead, and all of its answer
has to be readable.  A search is answered with a list of places, of which nothing else has to be
readable than what they are made of.  Where the whole list is readable, a place in it says what it
says to a reverse search: both make the same address of it or fail for the same text.  What is no
place is unreadable to a search, also if it is an error text.

    both answers are those of one place, or a search cannot read its own          (answered_cases)
    an address for a search ↔ the same address for a reverse search     (search_reads_as_reverse)
-/

namespace Gazetteer.Nominatim

open Json (Tree Value)

/-- What comes of one place. -/
def Place.answer (id : ProviderId) (p : Place) : Except ProviderError (List Address) :=
  (p.toAddress id).map fun a => [a]

/-! ## Documents -/

section Documents

variable {text : String} {t : Tree}

theorem placesOfText?_brackets (h : Tree.ofText? text = some t) :
    placesOfText? ("[" ++ text ++ "]") = (Place.ofTree? t).map fun p => [p] := by
  rw [placesOfText?, Json.ofText?_brackets h, Option.bind_eq_bind, Option.bind_some, Tree.list?]
  cases hplace : Place.ofTree? t <;> simp [hplace]

/-- A document with a value is read as a place if it is one, whatever else it has. -/
theorem Found.ofText?_of_place (h : Tree.ofText? text = some t) (hvalue : t.value?.isSome)
    {p : Place} (hplace : Place.ofTree? t = some p) : Found.ofText? text = some (.place p) := by
  obtain ⟨_, hvalue⟩ := Option.isSome_iff_exists.mp hvalue
  rw [Found.ofText?, h]
  simp only [Option.bind_eq_bind, Option.bind_some, hvalue, hplace]
  rfl

/-- A document that is no place is read as an error text or not at all. -/
theorem Found.ofText?_of_not_place (h : Tree.ofText? text = some t)
    (hplace : Place.ofTree? t = none) :
    Found.ofText? text = some .nothing ∨ Found.ofText? text = none := by
  cases hfound : Found.ofText? text with
  | none => exact .inr rfl
  | some found =>
    cases found with
    | nothing => exact .inl rfl
    | place p =>
      rw [Found.ofText?, h, Option.bind_eq_bind, Option.bind_some] at hfound
      obtain ⟨_, -, hfound⟩ := Option.bind_eq_some_iff.mp hfound
      rw [hplace] at hfound
      obtain ⟨_, -, hfound⟩ := Option.bind_eq_some_iff.mp hfound
      split at hfound
      · obtain ⟨_, -, hfound⟩ := Option.bind_eq_some_iff.mp hfound
        cases hfound
      · cases hfound

end Documents

/-! ## Answers -/

namespace Service

variable (s : Service) (query : String) (c : Coordinates) {text : String}

/-- What is made of a document in a list by a search, and of the document by a reverse search: both
the answer of one place, or nothing by the search. -/
theorem answered_cases (hjson : (Tree.ofText? text).isSome)
    (hvalue : (Value.ofText? ("[" ++ text ++ "]")).isSome) :
    (∃ p : Place, s.answered (.text query) ("[" ++ text ++ "]") = p.answer s.id ∧
      s.answered (.point c) text = p.answer s.id) ∨
    (s.answered (.text query) ("[" ++ text ++ "]") = .error .decode ∧
      (s.answered (.point c) text = .ok [] ∨ s.answered (.point c) text = .error .decode)) := by
  obtain ⟨t, ht⟩ := Option.isSome_iff_exists.mp hjson
  have hplaces := placesOfText?_brackets ht
  unfold answered addresses reverseAddresses
  rw [Value.ofText?, Json.ofText?_brackets ht] at hvalue
  cases hplace : Place.ofTree? t with
  | some p =>
    left
    rw [hplaces, hplace, Found.ofText?_of_place ht (Tree.value?_of_brackets hvalue) hplace]
    refine ⟨p, ?_, rfl⟩
    show [p].mapM (Place.toAddress s.id) = p.answer s.id
    rw [Place.answer, List.mapM_cons, List.mapM_nil]
    cases p.toAddress s.id <;> rfl
  | none =>
    right
    rw [hplaces, hplace]
    refine ⟨rfl, ?_⟩
    rcases Found.ofText?_of_not_place ht hplace with hfound | hfound
    · exact .inl (by rw [hfound])
    · exact .inr (by rw [hfound])

theorem result_of_received {ν : Type} {n : Http.Network ν} {x : ν} {q : Query}
    (h : s.received n x q = some text) : s.result n x q = s.answered q text := by
  rw [received_eq] at h
  obtain ⟨answer, hanswer, h⟩ := Option.bind_eq_some_iff.mp h
  split at h
  · next hsuccess =>
    cases h
    rw [result_eq, hanswer]
    exact if_pos hsuccess
  · cases h

end Service

/-- A search and a reverse search read a place alike.  Where a search is told of a list with one
document in it, all of it readable, and a reverse search is told of this document, either of them
has an address just if the other has the same one, and either fails for a reason that lies in the
place just if the other fails for this reason. -/
theorem search_reads_as_reverse {ν ν' : Type} (s : Service) (n : Http.Network ν) (x : ν)
    (n' : Http.Network ν') (x' : ν') (query : String) (c : Coordinates) (text : String)
    (hjson : (Tree.ofText? text).isSome) (hvalue : (Value.ofText? ("[" ++ text ++ "]")).isSome)
    (hsearch : s.received n x (.text query) = some ("[" ++ text ++ "]"))
    (hreverse : s.received n' x' (.point c) = some text) :
    (∀ a, s.result n x (.text query) = .ok [a] ↔ s.result n' x' (.point c) = .ok [a]) ∧
    ∀ provider reason, s.result n x (.text query) = .error (.unavailable provider reason) ↔
      s.result n' x' (.point c) = .error (.unavailable provider reason) := by
  rw [s.result_of_received hsearch, s.result_of_received hreverse]
  rcases s.answered_cases query c hjson hvalue with ⟨p, hforth, hback⟩ | ⟨hforth, hback⟩
  · rw [hforth, hback]
    exact ⟨fun _ => Iff.rfl, fun _ _ => Iff.rfl⟩
  · rw [hforth]
    rcases hback with hback | hback
    · rw [hback]
      exact ⟨fun _ => iff_of_false nofun nofun, fun _ _ => iff_of_false nofun nofun⟩
    · rw [hback]
      exact ⟨fun _ => iff_of_false nofun nofun, fun _ _ => iff_of_false nofun nofun⟩

/-- A place with an error text beside it, a box that is null and its details as a list. -/
theorem search_reads_as_reverse_both :
    let details := [Value.null, .text "Main Street", .null, .null, .text "Gotham", .null, .null,
      .null, .null, .text "us"]
    let told : Value := .object [("error", .text "none"), ("lon", .text "-.5"),
      ("address", .array details), ("boundingbox", .null), ("lat", .text "4e1"), ("class", .null)]
    let a : Address := {
      coordinates := ⟨Binary64.ofNat 40, Binary64.ofUnits true unitScale 2⟩
      streetName := some "Main Street"
      locality := some "Gotham"
      countryCode := some "US"
      providedBy := "mapsco" }
    let n := answering ("[" ++ told.compact ++ "]")
    let n' := answering told.compact
    let query := Query.text "x"
    let point := Query.point ⟨Binary64.ofNat 40, Binary64.ofNat 0⟩
    (Tree.ofText? told.compact).isSome ∧ (Value.ofText? ("[" ++ told.compact ++ "]")).isSome ∧
      Service.localhost.received n () query = some ("[" ++ told.compact ++ "]") ∧
      Service.localhost.received n' () point = some told.compact ∧
      Service.localhost.result n' () point = .ok [a] ∧
      Service.localhost.result n () query = .ok [a] := by
  intro details told a n n' query point
  have htree := Json.ofText?_compact told
  have hjson : (Tree.ofText? told.compact).isSome := by
    rw [htree]
    rfl
  have hvalue : (Value.ofText? ("[" ++ told.compact ++ "]")).isSome := by
    rw [Value.ofText?, Json.ofText?_brackets htree, Option.bind_some]
    decide +kernel
  have hreceived {q : Query} (body : String) (hrequest : (Service.localhost.request?
      (answering body) (Service.searchName q) (Service.ownParameters q)).isSome) :
      Service.localhost.received (answering body) () q = some body := by
    obtain ⟨request, hrequest⟩ := Option.isSome_iff_exists.mp hrequest
    rw [Service.received, hrequest]
    rfl
  have hsearch : Service.localhost.received n () query = some ("[" ++ told.compact ++ "]") :=
    hreceived _ (by decide +kernel)
  have hreverse : Service.localhost.received n' () point = some told.compact :=
    hreceived _ (by decide +kernel)
  let p : Place := ⟨"4e1", "-.5", none, none,
    some { road := some "Main Street", town := some "Gotham", countryCode := some "us" }⟩
  have hplace : Place.ofTree? told.tree = some p := by decide +kernel
  have haddress : p.toAddress .mapsCo = .ok a := by
    have hsome : (p.toAddress .mapsCo).toOption = some a := by decide +kernel
    cases hmade : p.toAddress .mapsCo with
    | error e =>
      rw [hmade] at hsome
      cases hsome
    | ok b =>
      rw [hmade] at hsome
      exact congrArg Except.ok (Option.some.inj hsome)
  have hback : Service.localhost.result n' () point = .ok [a] := by
    rw [Service.result_of_received _ hreverse, Service.answered, Service.reverseAddresses,
      Found.ofText?_of_place htree (by decide +kernel) hplace]
    exact congrArg (Except.map _) haddress
  obtain ⟨hforth, -⟩ := search_reads_as_reverse Service.localhost n () n' () "x"
    ⟨Binary64.ofNat 40, Binary64.ofNat 0⟩ told.compact hjson hvalue hsearch hreverse
  exact ⟨hjson, hvalue, hsearch, hreverse, hback, (hforth a).mpr hback⟩

end Gazetteer.Nominatim
