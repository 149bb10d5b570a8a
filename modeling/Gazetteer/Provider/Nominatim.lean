import Gazetteer.Http.Network
import Gazetteer.Json.Document
import Gazetteer.Program
import Gazetteer.Provider.Basic

/-!
# Nominatim

The search service of OpenStreetMap and of others that answer in the same form.  A search gives a
list of places, of which the first five count; a reverse search gives one place or an error text,
which means that nothing is there.
-/

namespace Gazetteer

open Json (Tree)

namespace Nominatim

/-- The address of a service, and what it is asked with. -/
structure Service where
  id : ProviderId
  baseUrl : String
  apiKey : Option String := none

/-- The usual addresses. -/
def openStreetMapUrl : String := "https://nominatim.openstreetmap.org"

def mapsCoUrl : String := "https://geocode.maps.co"

/-- How many places of a search count. -/
def maxResults : Nat := 5

/-! ## Answers -/

/-- The details of a place. -/
structure Details where
  houseNumber : Option String := none
  road : Option String := none
  suburb : Option String := none
  city : Option String := none
  town : Option String := none
  village : Option String := none
  state : Option String := none
  postcode : Option String := none
  country : Option String := none
  countryCode : Option String := none
deriving DecidableEq, Repr

def Details.ofTree? (t : Tree) : Option Details := do
  let names := ["house_number", "road", "suburb", "city", "town", "village", "state", "postcode",
    "country", "country_code"]
  match ← (← t.fields? names).mapM (Tree.optional Tree.text?) with
  | [houseNumber, road, suburb, city, town, village, state, postcode, country, countryCode] =>
    return { houseNumber, road, suburb, city, town, village, state, postcode, country, countryCode }
  | _ => none

/-- A place as the service tells it: numbers are texts. -/
structure Place where
  lat : String
  lon : String
  displayName : Option String := none
  /-- South, north, west, east. -/
  boundingBox : Option (List String) := none
  details : Option Details := none
deriving DecidableEq, Repr

def Place.ofTree? (t : Tree) : Option Place := do
  match ← t.fields? ["lat", "lon", "display_name", "boundingbox", "address"] with
  | [lat, lon, displayName, boundingBox, details] =>
    return {
      lat := ← Tree.required Tree.text? lat
      lon := ← Tree.required Tree.text? lon
      displayName := ← Tree.optional Tree.text? displayName
      boundingBox := ← Tree.optional (Tree.list? Tree.text?) boundingBox
      details := ← Tree.optional Details.ofTree? details }
  | _ => none

/-- The places of a search. -/
def placesOfText? (text : String) : Option (List Place) := do
  (← Tree.ofText? text).list? Place.ofTree?

/-- What a reverse search tells. -/
inductive Found where
  | place (p : Place)
  | nothing

/-- The answer to a reverse search: a place, or else an object with an error text.  All parts of the
answer have to be readable. -/
def Found.ofText? (text : String) : Option Found := do
  let t ← Tree.ofText? text
  let _ ← t.value?
  match Place.ofTree? t with
  | some p => return .place p
  | none =>
    match ← t.members? ["error"] with
    | [error] => do
      let _ ← Tree.required Tree.text? error
      return .nothing
    | _ => none

/-! ## Addresses -/

def degrees (id : ProviderId) (text : String) : Except ProviderError Binary64 :=
  (Binary64.ofText text).mapError fun fault =>
    .unavailable id.name ("invalid coordinate '" ++ text ++ "': " ++ fault.message)

/-- A box from its sides, of which those that are no numbers do not count. -/
def boundsOf (sides : List String) : Option Bounds :=
  match sides.filterMap fun s => (Binary64.ofText s).toOption with
  | [south, north, west, east] => some ⟨south, west, north, east⟩
  | _ => none

def Place.toAddress (id : ProviderId) (p : Place) : Except ProviderError Address := do
  let latitude ← degrees id p.lat
  let longitude ← degrees id p.lon
  let d := p.details.getD {}
  return {
    coordinates := ⟨latitude, longitude⟩
    streetNumber := d.houseNumber
    streetName := d.road
    subLocality := d.suburb
    locality := d.city <|> d.town <|> d.village
    postalCode := d.postcode
    adminArea := d.state
    country := d.country
    countryCode := d.countryCode.map Text.upper
    formatted := p.displayName
    bounds := p.boundingBox.bind boundsOf
    providedBy := id.name }

/-! ## Requests -/

/-- The address of one of the service's searches. -/
def Service.endpoint (s : Service) (name : String) : String :=
  String.ofList (s.baseUrl.toList.reverse.dropWhile (· = '/')).reverse ++ "/" ++ name

/-- The parameters of a request. -/
def Service.parameters (s : Service) (own : List (String × String)) : List (String × String) :=
  [("format", "jsonv2"), ("addressdetails", "1")] ++ own
    ++ (s.apiKey.map fun key => ("api_key", key)).toList

/-- The start of a text, as far as it is shown. -/
def shown (body : String) : String :=
  let chars := body.toList
  if chars.length ≤ 200 then body else String.ofList (chars.take 200) ++ "..."

variable {π : Type}

/-- The request for a search, if the network reads the service's text as an address. -/
def Service.request? (s : Service) (network : Http.Network π) (name : String)
    (own : List (String × String)) : Option Http.Request :=
  (network.address? (s.endpoint name)).map fun url =>
    ⟨url.withParameters (s.parameters own), programName ++ "/" ++ programVersion⟩

/-- The body of a successful answer. -/
def Service.fetch (s : Service) (network : Http.Network π) (name : String)
    (own : List (String × String)) : ProviderM π String :=
  match s.request? network name own with
  | none => throw .http
  | some request => do
    match ← (network.send request : StateM π (Option Http.Answer)) with
    | none => throw .http
    | some answer =>
      if answer.isSuccess then return answer.body
      else throw (.unavailable s.id.name
        ("status " ++ answer.statusText ++ ": " ++ shown answer.body))

def searchParameters (text : String) : List (String × String) :=
  [("q", text), ("limit", toString maxResults)]

def reverseParameters (c : Coordinates) : List (String × String) :=
  [("lat", c.latitude.text), ("lon", c.longitude.text)]

/-- The addresses in the body of a search. -/
def Service.addresses (s : Service) (body : String) : Except ProviderError (List Address) :=
  match placesOfText? body with
  | some places => (places.take maxResults).mapM (Place.toAddress s.id)
  | none => .error .decode

/-- The addresses in the body of a reverse search. -/
def Service.reverseAddresses (s : Service) (body : String) : Except ProviderError (List Address) :=
  match Found.ofText? body with
  | some (.place p) => (p.toAddress s.id).map fun a => [a]
  | some .nothing => .ok []
  | none => .error .decode

end Nominatim

/-- The provider of a Nominatim service. -/
def Provider.nominatim {π : Type} (s : Nominatim.Service) (network : Http.Network π) :
    Provider π where
  id := s.id.name
  label := s.id.label
  geocode text := do s.addresses (← s.fetch network "search" (Nominatim.searchParameters text))
  reverse c := do s.reverseAddresses (← s.fetch network "reverse" (Nominatim.reverseParameters c))

end Gazetteer
