import Gazetteer.Provider.Nominatim
import Gazetteer.Provider.Sample
import Gazetteer.Settings.Basic

/-!
# Registries

Providers under their ids.  A registry made from settings holds all built-in providers; one that
cannot work with the settings has a stand-in.
-/

namespace Gazetteer

structure Registry (π : Type) where
  table : Table (Provider π)
  /-- Each provider is registered under its own id. -/
  id_eq : ∀ e ∈ table.entries, e.2.id = e.1

namespace Registry

variable {π : Type}

def empty : Registry π := ⟨.empty, by simp [Table.empty]⟩

/-- Adds a provider, in the place of another one with its id. -/
def register (r : Registry π) (p : Provider π) : Registry π where
  table := r.table.insert p.id p
  id_eq e h := by
    rcases Table.mem_place h with rfl | h
    · rfl
    · exact r.id_eq e h

def find? (r : Registry π) (id : String) : Option (Provider π) := r.table.find? id

theorem find?_register (r : Registry π) (p : Provider π) (id : String) :
    (r.register p).find? id = if id = p.id then some p else r.find? id :=
  r.table.find?_insert p.id id p

/-- The registered ids in ascending order. -/
def ids (r : Registry π) : List String := r.table.keys

end Registry

/-- The built-in provider with an id, as far as the settings let it work. -/
def Provider.ofSettings {π : Type} (network : Http.Network π) (s : Settings) (id : ProviderId) :
    Except Error (Provider π) :=
  match id with
  | .test => .ok sample
  | .openStreetMap =>
    .ok (nominatim ⟨id, (s.baseUrl? id).getD Nominatim.openStreetMapUrl, none⟩ network)
  | .mapsCo =>
    match s.apiKey? id with
    | some key => .ok (nominatim ⟨id, (s.baseUrl? id).getD Nominatim.mapsCoUrl, some key⟩ network)
    | none => .error (.missingApiKey id)

/-- The built-in provider with an id, or its stand-in. -/
def Provider.orUnavailable {π : Type} (network : Http.Network π) (s : Settings) (id : ProviderId) :
    Provider π :=
  match ofSettings network s id with
  | .ok p => p
  | .error e => unavailable id e.message

/-- All built-in providers. -/
def Registry.ofSettings {π : Type} (network : Http.Network π) (s : Settings) : Registry π :=
  ProviderId.all.foldl (fun r id => r.register (Provider.orUnavailable network s id)) .empty

end Gazetteer
