import Mathlib.Data.List.TakeWhile
import Gazetteer.Http.Network

/-!
# Addresses below a base

A service has an address, and its searches have theirs below it: the base without the slashes at its
end, a slash, and the name of the search.  Which texts are addresses is up to the network.  What is
relied on here is that only a question mark begins a query, and that a path may go on.

    n.ReadsAddresses: what is relied on
    n.IsBase base: the text is an address that others stand below
    n.IsBase base → (n.address? base/name).isSome                                   (address?_below)
-/

namespace Gazetteer.Http.Network

variable {ν : Type}

/-- How addresses are read, as far as a service relies on it. -/
structure ReadsAddresses (n : Network ν) : Prop where
  /-- A text without a question mark is an address without a query. -/
  query : ∀ text url, n.address? text = some url → '?' ∉ text.toList → url.query = none
  /-- An address without query and fragment has others below it.  It is not to end with a blank or
  a control character: a reader passes over these at the end, but not in the middle. -/
  path : ∀ front slashes name : List Char, '?' ∉ front → '#' ∉ front → (∀ c ∈ slashes, c = '/') →
    (∀ c ∈ (front ++ slashes).getLast?, 0x20 < c.toNat) → (∀ c ∈ name, c.isAlpha = true) →
    (n.address? (String.ofList (front ++ slashes))).isSome →
    (n.address? (String.ofList (front ++ '/' :: name))).isSome

/-- A web address that others stand below. -/
structure IsBase (n : Network ν) (base : String) : Prop where
  valid : (n.address? base).isSome
  noQuery : '?' ∉ base.toList
  noFragment : '#' ∉ base.toList
  ends : ∀ c ∈ base.toList.getLast?, 0x20 < c.toNat

/-- Where a name stands below a base. -/
def below (base name : List Char) : List Char :=
  (base.reverse.dropWhile (· = '/')).reverse ++ '/' :: name

/-- A base is what it has in front of the slashes at its end, and these. -/
theorem base_eq (base : List Char) : (base.reverse.dropWhile (· = '/')).reverse ++
    (base.reverse.takeWhile (· = '/')).reverse = base := by
  rw [← List.reverse_append, List.takeWhile_append_dropWhile, List.reverse_reverse]

/-- No mark comes in below a base. -/
theorem notMem_below {c : Char} {base name : List Char} (hbase : c ∉ base) (hname : c ∉ name)
    (hslash : c ≠ '/') : c ∉ below base name := by
  rw [below, List.mem_append, List.mem_cons, List.mem_reverse]
  rintro (hc | hc | hc)
  · exact hbase (List.mem_reverse.mp ((List.dropWhile_sublist _).subset hc))
  · exact hslash hc
  · exact hname hc

/-- Below a base stand addresses. -/
theorem address?_below {n : Network ν} (hn : n.ReadsAddresses) {base : String} (h : n.IsBase base)
    {name : List Char} (hname : ∀ c ∈ name, c.isAlpha = true) :
    (n.address? (String.ofList (below base.toList name))).isSome := by
  have hfront : ∀ c ∈ (base.toList.reverse.dropWhile (· = '/')).reverse, c ∈ base.toList :=
    fun c hc => List.mem_reverse.mp ((List.dropWhile_sublist _).subset (List.mem_reverse.mp hc))
  have hslashes : ∀ c ∈ (base.toList.reverse.takeWhile (· = '/')).reverse, c = '/' := by
    intro c hc
    simpa using List.mem_takeWhile_imp (List.mem_reverse.mp hc)
  apply hn.path _ (base.toList.reverse.takeWhile (· = '/')).reverse name
  · exact fun hc => h.noQuery (hfront _ hc)
  · exact fun hc => h.noFragment (hfront _ hc)
  · exact hslashes
  · rw [base_eq]
    exact h.ends
  · exact hname
  · rw [base_eq, String.ofList_toList]
    exact h.valid

end Gazetteer.Http.Network
