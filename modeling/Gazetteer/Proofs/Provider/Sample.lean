import Gazetteer.Proofs.Cache.Entry
import Gazetteer.Proofs.Lookup.Run

/-!
# The test provider alone

The test provider knows one place, so whatever it is asked, it answers with that place or with
nothing.

    ((Provider.sample.ask q).run x).1 = .ok as → as = [] ∨ as = [gotham]     (answer_cases)
    an entry with the place is read back as it was                           (entry_gotham)
-/

namespace Gazetteer.Sample

variable {π : Type}

/-- A registry with no other provider. -/
def registry : Registry π := Registry.empty.register .sample

theorem find?_registry {id : String} {p : Provider π} (h : registry.find? id = some p) :
    id = "test_provider" ∧ p = .sample := by
  have hmem := (Table.find?_eq_some_iff registry.table).mp h
  exact Prod.mk.inj (List.mem_singleton.mp hmem)

theorem plainIds_registry : (registry : Registry π).PlainIds := by
  intro id p hfind
  rw [(find?_registry hfind).1]
  decide

theorem filter_places (f : Address → Bool) :
    places.filter f = [] ∨ places.filter f = [gotham] := by
  unfold places
  cases h : f gotham with
  | true => exact .inr (List.filter_cons_of_pos h)
  | false => exact .inl (List.filter_cons_of_neg (by simp [h]))

/-- It never fails, and finds at most the one place. -/
theorem answer_cases (q : Query) (x : π) :
    ((Provider.sample.ask q).run x).1 = .ok [] ∨
      ((Provider.sample.ask q).run x).1 = .ok [gotham] := by
  have hfound : ∃ f, ((Provider.sample.ask q).run x).1 = .ok (places.filter f) := by
    cases q with
    | text s => exact ⟨fun a => a.locality.any (sameName · (Text.trim s)), rfl⟩
    | point c => exact ⟨fun a => a.coordinates.same c, rfl⟩
  obtain ⟨f, hf⟩ := hfound
  rw [hf]
  rcases filter_places f with h | h
  · exact .inl (congrArg _ h)
  · exact .inr (congrArg _ h)

theorem entry_gotham (now : Instant) (htime : now.InRange) :
    CacheEntry.ofText? (CacheEntry.mk now [gotham]).text = some ⟨now, [gotham]⟩ := by
  have hreread : [gotham].mapM Address.reread? = some [gotham] := by decide +kernel
  rw [CacheEntry.ofText?_text, Instant.ofText?_text now htime, hreread]
  rfl

end Gazetteer.Sample
