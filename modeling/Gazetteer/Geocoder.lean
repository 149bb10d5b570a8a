import Gazetteer.Cache.Store
import Gazetteer.Provider.Registry

/-!
# Lookups

A geocoder asks the providers of a request one after the other and takes the first answer that is
not empty.  Answers are kept in a store, if there is one, under the signature of the query and the
id of the provider; an answer that is kept there is taken instead of asking.  What fails on the
way, a provider or the store, is passed over.

The state of a lookup is a pair: what the providers use, and what the store uses.
-/

namespace Gazetteer

structure Geocoder (π σ : Type) where
  registry : Registry π
  store : Option (Store σ) := none

/-- Steps of a lookup. -/
abbrev LookupM (π σ : Type) := StateM (π × σ)

namespace Geocoder

variable {π σ : Type}

/-- A step of a provider as a step of a lookup. -/
def onProviders {α : Type} (step : StateM π α) : LookupM π σ α := fun (p, s) =>
  let (a, p) := step p
  (a, (p, s))

/-- A step of the store as a step of a lookup. -/
def onStore {α : Type} (step : StateM σ α) : LookupM π σ α := fun (p, s) =>
  let (a, s) := step s
  (a, (p, s))

/-- A geocoder with all built-in providers.  The store is used only if the settings say so. -/
def ofSettings (network : Http.Network π) (settings : Settings) (store : Option (Store σ)) :
    Geocoder π σ where
  registry := .ofSettings network settings
  store := if settings.cache then store else none

/-- Whether answers are kept. -/
def isCaching (g : Geocoder π σ) : Bool := g.store.isSome

/-! ## The store -/

/-- The addresses kept under a key.  A store that fails and a text that is no entry count as
nothing. -/
def kept? (g : Geocoder π σ) (key : CacheKey) : LookupM π σ (Option (List Address)) :=
  match g.store with
  | none => return none
  | some store => do
    match ← onStore (store.get key).run with
    | .ok text => return (text.bind CacheEntry.ofText?).map (·.addresses)
    | .error _ => return none

/-- Keeps addresses under a key, if the store takes them. -/
def keep (g : Geocoder π σ) (now : Instant) (key : CacheKey) (addresses : List Address) :
    LookupM π σ Unit :=
  match g.store with
  | none => return
  | some store => do
    let _ ← onStore (store.set key (CacheEntry.mk now addresses).text).run
    return

/-- Empties the store. -/
def clear (g : Geocoder π σ) : LookupM π σ (Except StoreFault Unit) :=
  match g.store with
  | none => return .ok ()
  | some store => onStore store.clear.run

/-! ## Requests -/

/-- The first answer to a query that is not empty; empty if there is none. -/
def firstAnswer (g : Geocoder π σ) (now : Instant) (q : Query) :
    List (Provider π) → LookupM π σ (List Address)
  | [] => return []
  | p :: rest => do
    let key := ⟨q.signature, p.id⟩
    match ← g.kept? key with
    | some addresses => return addresses
    | none =>
      match ← onProviders (p.ask q).run with
      | .ok (first :: others) =>
        g.keep now key (first :: others)
        return first :: others
      | _ => g.firstAnswer now q rest

/-- The providers with the given ids. -/
def providers (g : Geocoder π σ) (ids : List String) : Except Error (List (Provider π)) :=
  ids.mapM fun id =>
    match g.registry.find? id with
    | some p => .ok p
    | none => .error (.unknownProvider id)

/-- Answers a request; entries made on the way are stored with the time `now`.  Only a request that
names no providers, or an unknown one, fails, before anything is asked. -/
def lookup (g : Geocoder π σ) (now : Instant) (r : Request) :
    ExceptT Error (LookupM π σ) (List Address) :=
  if r.providers.isEmpty then throw .noProviders
  else
    match g.providers r.providers with
    | .error e => throw e
    | .ok providers => (g.firstAnswer now r.query providers : LookupM π σ (List Address))

end Geocoder

end Gazetteer
