import Gazetteer.Cache.Entry
import Gazetteer.Proofs.Text.Split

/-!
# Flat keys

The first bar of a flat key divides it, so a key is read back from its flat form as long as there is
no bar in the provider's id; the signature may hold any.  Every text with a bar is the flat form of
one such key, and is read as that key.

    ofFlat? k.flat = some k ↔ k.Plain                            (ofFlat?_flat_iff)
    ofFlat? raw = some k ↔ k.flat = raw ∧ k.Plain                (ofFlat?_eq_some_iff)
    ofFlat? raw = none ↔ there is no bar in raw                  (ofFlat?_eq_none_iff)
-/

namespace Gazetteer

namespace CacheKey

/-- The provider's id has no bar in it. -/
def Plain (k : CacheKey) : Prop := '|' ∉ k.provider.toList

instance (k : CacheKey) : Decidable k.Plain := inferInstanceAs (Decidable (¬ _))

theorem ofFlat?_flat (k : CacheKey) (h : k.Plain) : ofFlat? k.flat = some k := by
  have hsplit := Text.splitOnce_append '|' k.provider.toList k.signature.toList h
  have hflat : k.flat.toList = k.provider.toList ++ '|' :: k.signature.toList := by
    simp [flat]
  rw [ofFlat?, hflat, hsplit]
  simp

/-- What is read from a text as a key has it as its flat form. -/
theorem flat_of_ofFlat? {raw : String} {k : CacheKey} (h : ofFlat? raw = some k) :
    k.flat = raw ∧ k.Plain := by
  obtain ⟨⟨provider, signature⟩, hsplit, rfl⟩ := Option.map_eq_some_iff.mp h
  obtain ⟨hraw, hplain⟩ := Text.of_splitOnce hsplit
  refine ⟨?_, by simpa [Plain] using hplain⟩
  rw [← String.toList_inj, hraw]
  simp [flat]

theorem ofFlat?_eq_some_iff {raw : String} {k : CacheKey} :
    ofFlat? raw = some k ↔ k.flat = raw ∧ k.Plain := by
  constructor
  · exact flat_of_ofFlat?
  · rintro ⟨rfl, hplain⟩
    exact ofFlat?_flat k hplain

/-- A key with a bar in its provider's id is read as another one. -/
theorem ofFlat?_flat_iff {k : CacheKey} : ofFlat? k.flat = some k ↔ k.Plain := by
  rw [ofFlat?_eq_some_iff]
  exact and_iff_right rfl

theorem ofFlat?_eq_none_iff {raw : String} : ofFlat? raw = none ↔ '|' ∉ raw.toList := by
  rw [ofFlat?, Option.map_eq_none_iff, Text.splitOnce_eq_none_iff]

theorem flat_inj {k k' : CacheKey} (h : k.Plain) (h' : k'.Plain) : k.flat = k'.flat ↔ k = k' := by
  constructor
  · intro heq
    have := ofFlat?_flat k h
    rw [heq, ofFlat?_flat k' h'] at this
    exact (Option.some.inj this).symm
  · rintro rfl
    rfl

/-- Flat keys are read back just where they can be.  A key is read back just if there is no bar
in its provider's id, so no two keys of such providers have one flat form.  A text is read as a key
just if there is a bar in it: as the key without a bar in the provider's id that has it as flat
form. -/
theorem flat_exact (k k' : CacheKey) (raw : String) :
    (ofFlat? k.flat = some k ↔ k.Plain) ∧
    (k.Plain → k'.Plain → (k.flat = k'.flat ↔ k = k')) ∧
    (ofFlat? raw = none ↔ '|' ∉ raw.toList) ∧
    (ofFlat? raw = some k ↔ k.flat = raw ∧ k.Plain) :=
  ⟨ofFlat?_flat_iff, flat_inj, ofFlat?_eq_none_iff, ofFlat?_eq_some_iff⟩

/-- Bars at both ends of a signature, and an id without letters. -/
theorem flat_exact_bars :
    let k : CacheKey := ⟨"|geocode:a|", "test_provider"⟩
    let k' : CacheKey := ⟨"test_provider||geocode:a|", ""⟩
    k.Plain ∧ k'.Plain ∧ ofFlat? k.flat = some k ∧ ofFlat? k'.flat = some k' ∧
      k.flat ≠ k'.flat := by
  intro k k'
  have hk : k.Plain := by decide
  have hk' : k'.Plain := by decide
  obtain ⟨hback, hinj, -⟩ := flat_exact k k' k.flat
  obtain ⟨hback', -⟩ := flat_exact k' k k'.flat
  refine ⟨hk, hk', hback.mpr hk, hback'.mpr hk', fun h => ?_⟩
  exact absurd ((hinj hk hk').mp h) (by decide)

/-- With a bar in an id, keys of two providers may have one flat form. -/
example : (CacheKey.mk "b|geocode:c" "a").flat = (CacheKey.mk "geocode:c" "a|b").flat := by decide

end CacheKey

end Gazetteer
