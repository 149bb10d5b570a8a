import Gazetteer.Provider.Registry

/-!
# What is registered

A registry finds what was registered last under an id.  One that is made from settings holds the
built-in providers, each under its own name, and nothing else; what stands under a name is what the
settings let the provider be.

    (ofSettings n s).find? known.name = some (orUnavailable n s known)          (find?_ofSettings)
    nothing is found just under the ids no built-in provider has   (find?_ofSettings_eq_none_iff)
-/

namespace Gazetteer

namespace ProviderId

theorem name_inj {id id' : ProviderId} : id.name = id'.name ↔ id = id' := by
  cases id <;> cases id' <;> decide

end ProviderId

variable {π : Type}

theorem Provider.id_orUnavailable (n : Http.Network π) (s : Settings) (id : ProviderId) :
    (orUnavailable n s id).id = id.name := by
  unfold orUnavailable ofSettings
  cases id with
  | test => rfl
  | openStreetMap => rfl
  | mapsCo => cases s.apiKey? .mapsCo <;> rfl

namespace Registry

/-- Of the providers that are registered one after the other, the last with an id is found. -/
theorem find?_foldl (n : Http.Network π) (s : Settings) (ids : List ProviderId) (r : Registry π)
    (key : String) :
    (ids.foldl (fun r id => r.register (.orUnavailable n s id)) r).find? key =
      match ids.find? (·.name == key) with
      | some id => some (.orUnavailable n s id)
      | none => r.find? key := by
  induction ids generalizing r with
  | nil => rfl
  | cons id rest ih =>
    rw [List.foldl_cons, ih, find?_register, Provider.id_orUnavailable, List.find?_cons]
    by_cases hkey : id.name = key
    · cases hrest : rest.find? (·.name == key) with
      | none => simp [hkey]
      | some other =>
        have hother : other.name = key := by simpa using List.find?_some hrest
        have heq : other = id := ProviderId.name_inj.mp (hother.trans hkey.symm)
        simp [hkey, heq]
    · have hname : (id.name == key) = false := by simpa using hkey
      simp [hname, Ne.symm hkey]

/-- A built-in provider is registered under its own name, as far as the settings let it work. -/
theorem find?_ofSettings (n : Http.Network π) (s : Settings) (known : ProviderId) :
    (ofSettings n s).find? known.name = some (.orUnavailable n s known) := by
  have hfound : ProviderId.all.find? (·.name == known.name) = some known := by
    cases known <;> decide
  rw [ofSettings, find?_foldl, hfound]

/-- Registered are the ids of the built-in providers, and no others. -/
theorem find?_ofSettings_eq_none_iff (n : Http.Network π) (s : Settings) (id : String) :
    (ofSettings n s).find? id = none ↔ ∀ known : ProviderId, known.name ≠ id := by
  constructor
  · rintro hnone known rfl
    rw [find?_ofSettings] at hnone
    cases hnone
  · intro h
    have hfound : ProviderId.all.find? (·.name == id) = none :=
      List.find?_eq_none.mpr fun known _ => by simpa using h known
    rw [ofSettings, find?_foldl, hfound]
    rfl

/-- The registered ids, in ascending order. -/
theorem ids_ofSettings (n : Http.Network π) (s : Settings) :
    (ofSettings n s).ids = ["mapsco", "openstreetmap", "test_provider"] := by
  have hfirst : "openstreetmap" < "test_provider" := by decide
  have hsecond : "mapsco" < "openstreetmap" := by decide
  simp [ofSettings, ProviderId.all, register, empty, ids, Table.keys, Table.insert, Table.empty,
    Table.place, Provider.id_orUnavailable, ProviderId.name, hfirst, hsecond]

end Registry

end Gazetteer
