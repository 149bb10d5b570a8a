import Gazetteer.Proofs.Http.Endpoint
import Gazetteer.Proofs.Http.FormReader
import Gazetteer.Proofs.Http.Record
import Gazetteer.Proofs.Steps

/-!
# What a service is asked

A query goes to a service as the parameters of one request.  Whatever characters are in the text or
in the key, the service reads these parameters and no others, each with its value.

    s.requests n x q: what s sends over n for q
    '?' ∉ s.baseUrl → ∀ r ∈ s.requests n x q, the parameters of r are s.asked q    (requests_exact)
-/

namespace Gazetteer

namespace Nominatim.Service

open Http (formParameters? formChars)

variable {ν : Type}

/-- What a service is to be asked for a query. -/
def asked (s : Service) (q : Query) : List (String × String) :=
  let key := match s.apiKey with
    | some key => [("api_key", key)]
    | none => []
  match q with
  | .text t =>
    [("format", "jsonv2"), ("addressdetails", "1"), ("q", t), ("limit", "5")] ++ key
  | .point c =>
    [("format", "jsonv2"), ("addressdetails", "1"), ("lat", c.latitude.text),
      ("lon", c.longitude.text)] ++ key

/-- The requests that a service sends for a query, over a network in a state. -/
def requests (s : Service) (n : Http.Network ν) (x : ν) (q : Query) : List Http.Request :=
  (((Provider.nominatim s n.recorded).ask q).run.run (x, [])).2.2

/-- The name of the search for a query. -/
def searchName : Query → String
  | .text _ => "search"
  | .point _ => "reverse"

/-- The parameters that belong to a query. -/
def ownParameters : Query → List (String × String)
  | .text t => searchParameters t
  | .point c => reverseParameters c

theorem fetch_recorded (s : Service) (n : Http.Network ν) (name : String)
    (own : List (String × String)) (x : ν) (sent : List Http.Request) :
    ((s.fetch n.recorded name own).run.run (x, sent)).2.2 =
      sent ++ (s.request? n name own).toList := by
  unfold fetch
  have hrequest : s.request? n.recorded name own = s.request? n name own := rfl
  rw [hrequest]
  cases s.request? n name own with
  | none => exact (List.append_nil sent).symm
  | some request =>
    have hsend : (liftM (n.recorded.send request) :
        ProviderM (ν × List Http.Request) (Option Http.Answer)).run.run (x, sent) =
        (.ok ((n.send request).run x).1, (((n.send request).run x).2, sent ++ [request])) := rfl
    dsimp only
    rw [run_bind_ok hsend]
    cases ((n.send request).run x).1 with
    | none => rfl
    | some answer =>
      dsimp only
      split <;> rfl

/-- What a service's answer says, by the query it answers. -/
def answered (s : Service) (q : Query) (body : String) : Except ProviderError (List Address) :=
  match q with
  | .text _ => s.addresses body
  | .point _ => s.reverseAddresses body

theorem ask_eq (s : Service) (n : Http.Network ν) (q : Query) :
    (Provider.nominatim s n).ask q =
      (s.fetch n (searchName q) (ownParameters q) >>= fun body => liftM (s.answered q body)) := by
  cases q <;> rfl

/-- What is read from an answer is read without another request. -/
theorem requests_eq (s : Service) (n : Http.Network ν) (x : ν) (q : Query) :
    s.requests n x q = (s.request? n (searchName q) (ownParameters q)).toList := by
  rw [requests, ask_eq, run_bind_state fun _ _ => rfl, fetch_recorded, List.nil_append]

/-- A service has the address of each request below its own. -/
theorem endpoint_eq (s : Service) (name : String) :
    s.endpoint name = String.ofList (Http.Network.below s.baseUrl.toList name.toList) := by
  apply String.toList_injective
  rw [String.toList_ofList, endpoint, Http.Network.below, String.toList_append,
    String.toList_append, String.toList_ofList, List.append_assoc]
  rfl

theorem parameters_own (s : Service) (q : Query) : s.parameters (ownParameters q) = s.asked q := by
  unfold parameters asked
  cases s.apiKey <;> cases q <;> rfl

/-- No parameter is forged or lost.  A service at an address without a question mark reads from
each request sent to it what it is to be asked, character for character, and the request goes to the
address of the search.  If the service's own address is one that others stand below, one request is
sent. -/
theorem requests_exact (s : Service) (n : Http.Network ν) (hn : n.ReadsAddresses) (x : ν)
    (q : Query) (hbase : '?' ∉ s.baseUrl.toList) :
    (∀ r ∈ s.requests n x q, r.url.query.bind formParameters? = some (s.asked q) ∧
      ∃ url, n.address? (s.endpoint (searchName q)) = some url ∧ r.url.front = url.front) ∧
    (n.IsBase s.baseUrl → (s.requests n x q).length = 1) := by
  have hname : ∀ c ∈ (searchName q).toList, c.isAlpha = true := by
    rw [← List.all_eq_true]
    cases q with
    | text t => exact (by decide +kernel : "search".toList.all Char.isAlpha = true)
    | point c => exact (by decide +kernel : "reverse".toList.all Char.isAlpha = true)
  rw [requests_eq, request?]
  constructor
  · intro r hr
    obtain ⟨url, hurl, rfl⟩ := Option.map_eq_some_iff.mp (Option.mem_toList.mp hr)
    have hquery : url.query = none := by
      apply hn.query _ _ hurl
      rw [endpoint_eq, String.toList_ofList]
      apply Http.Network.notMem_below hbase _ (by decide)
      intro hmark
      have := hname _ hmark
      revert this
      decide
    have hmore : (url.withParameters (s.parameters (ownParameters q))).query =
        some (String.ofList (formChars (s.parameters (ownParameters q)))) := by
      rw [Http.Url.withParameters, hquery]
    refine ⟨?_, url, hurl, rfl⟩
    rw [hmore, Option.bind_some, Http.formParameters?_formChars, parameters_own]
  · intro hvalid
    rw [endpoint_eq]
    obtain ⟨url, hurl⟩ := Option.isSome_iff_exists.mp (Http.Network.address?_below hn hvalid hname)
    rw [hurl]
    rfl

/-- A service on this machine, with marks of a form in its key. -/
def localhost : Service := ⟨.mapsCo, "http://localhost/n/", some "k=1&q"⟩

/-- The front of every address on this machine. -/
def localFront : List Char := "http://localhost".toList

/-- A network that this machine alone is on, and where nothing answers. -/
def localNetwork : Http.Network Unit where
  address? text :=
    if localFront <+: text.toList then
      let query := text.toList.dropWhile (· ≠ '?')
      some ⟨String.ofList (text.toList.takeWhile (· ≠ '?')),
        if query = [] then none else some (String.ofList (query.drop 1))⟩
    else none
  send _ := return none

theorem readsAddresses_localNetwork : localNetwork.ReadsAddresses where
  query text url hurl hmark := by
    have hnone : text.toList.dropWhile (· ≠ '?') = [] := by
      rw [List.dropWhile_eq_nil_iff]
      intro c hc
      rw [decide_eq_true_eq]
      rintro rfl
      exact hmark hc
    unfold localNetwork at hurl
    dsimp only at hurl
    rw [hnone] at hurl
    split at hurl
    · cases hurl
      rfl
    · cases hurl
  path front slashes name _ _ hslashes _ _ hvalid := by
    have hstart : localFront <+: front ++ slashes := by
      unfold localNetwork at hvalid
      dsimp only at hvalid
      rw [String.toList_ofList] at hvalid
      split at hvalid
      · next h => exact h
      · cases hvalid
    have hfront : localFront <+: front := by
      rcases List.prefix_or_prefix_of_prefix hstart (List.prefix_append front slashes) with h | h
      · exact h
      · obtain ⟨rest, hrest⟩ := h
        cases hlast : rest.getLast? with
        | none =>
          rw [List.getLast?_eq_none_iff.mp hlast, List.append_nil] at hrest
          exact hrest ▸ List.prefix_rfl
        | some c =>
          -- The front ends with a letter, and what follows it here are slashes.
          rw [← hrest, List.prefix_append_right_inj] at hstart
          have hslash := hslashes c (hstart.subset (List.mem_of_getLast? hlast))
          have hletter : (front ++ rest).getLast? = some 't' := by
            rw [hrest]
            decide +kernel
          rw [List.getLast?_append, hlast, hslash] at hletter
          cases hletter
    unfold localNetwork
    dsimp only
    rw [String.toList_ofList, if_pos (hfront.trans (List.prefix_append _ _))]
    rfl

theorem requests_exact_localhost :
    let q : Query := .text "a&limit=1#%+é"
    localNetwork.ReadsAddresses ∧ '?' ∉ localhost.baseUrl.toList ∧
    localNetwork.IsBase localhost.baseUrl ∧ (localhost.requests localNetwork () q).length = 1 ∧
    ∀ r ∈ localhost.requests localNetwork () q,
      r.url.query.bind formParameters? = some [("format", "jsonv2"), ("addressdetails", "1"),
        ("q", "a&limit=1#%+é"), ("limit", "5"), ("api_key", "k=1&q")] ∧
      r.url.front = "http://localhost/n/search" := by
  intro q
  have hmark : '?' ∉ localhost.baseUrl.toList := by decide +kernel
  have hbase : localNetwork.IsBase localhost.baseUrl := by
    refine ⟨by decide +kernel, hmark, by decide +kernel, ?_⟩
    have hlast : localhost.baseUrl.toList.getLast? = some '/' := by decide +kernel
    rw [hlast]
    rintro c ⟨⟩
    decide
  have hurl : localNetwork.address? (localhost.endpoint (searchName q)) =
      some ⟨"http://localhost/n/search", none⟩ := by decide +kernel
  obtain ⟨hparameters, hone⟩ :=
    requests_exact localhost localNetwork readsAddresses_localNetwork () q hmark
  refine ⟨readsAddresses_localNetwork, hmark, hbase, hone hbase, fun r hr => ?_⟩
  obtain ⟨hquery, url, hread, hfront⟩ := hparameters r hr
  rw [hurl] at hread
  cases hread
  exact ⟨hquery, hfront⟩

end Nominatim.Service

end Gazetteer
