import Gazetteer.Proofs.Address.ReadBack
import Gazetteer.Proofs.Cache.File
import Gazetteer.Proofs.Instant.ReadBack
import Gazetteer.Proofs.Lookup.Run

/-!
# The time of a lookup

A lookup needs the time once, at its end, for the entry that it keeps.  So lookups of one request in
one state give the same and do the same, whenever they are made, and leave the same collections
under the same keys in the cache file.

    g.lookup now r is the same for every now, up to keeping an entry last       (lookup_timeless)
    lookups at two times, with the cache file or without a store                   (lookup_retimed)
-/

namespace Gazetteer

namespace Geocoder

variable {π σ : Type}

/-- Keeps addresses under a key, if there are some to keep. -/
def keepLast (g : Geocoder π σ) (now : Instant) : Option (CacheKey × List Address) → LookupM π σ Unit
  | some (key, as) => g.keep now key as
  | none => return

theorem settle_timeless (g : Geocoder π σ) (q : Query) (p : Provider π) (t : Turn) :
    ∃ last, ∀ now, g.settle now q p t = g.keepLast now last := by
  cases t with
  | kept as => exact ⟨none, fun _ => rfl⟩
  | asked answer =>
    cases answer with
    | error e => exact ⟨none, fun _ => rfl⟩
    | ok as =>
      cases as with
      | nil => exact ⟨none, fun _ => rfl⟩
      | cons first others => exact ⟨some (⟨q.signature, p.id⟩, first :: others), fun _ => rfl⟩

theorem firstAnswer_timeless (g : Geocoder π σ) (q : Query) (ps : List (Provider π)) (s : π × σ) :
    ∃ found s' last, ∀ now,
      (g.firstAnswer now q ps).run s = (found, ((g.keepLast now last).run s').2) := by
  induction ps generalizing s with
  | nil => exact ⟨[], s, none, fun _ => rfl⟩
  | cons p rest ih =>
    cases hfound : ((g.turn q p).run s).1.found? with
    | none =>
      obtain ⟨found, s', last, hrest⟩ := ih ((g.turn q p).run s).2
      refine ⟨found, s', last, fun now => ?_⟩
      rw [firstAnswer_cons, hfound]
      exact hrest now
    | some as =>
      obtain ⟨last, hsettle⟩ := g.settle_timeless q p ((g.turn q p).run s).1
      refine ⟨as, ((g.turn q p).run s).2, last, fun now => ?_⟩
      rw [firstAnswer_cons, hfound, hsettle]

/-- Up to the entry that is kept last, a lookup does not depend on the time. -/
theorem lookup_timeless (g : Geocoder π σ) (r : Request) (s : π × σ) :
    ∃ result s' last, ∀ now,
      (g.lookup now r).run.run s = (result, ((g.keepLast now last).run s').2) := by
  cases hresolved : g.resolved r with
  | error e =>
    refine ⟨.error e, s, none, fun now => ?_⟩
    rw [lookup_run, hresolved]
    rfl
  | ok ps =>
    obtain ⟨found, s', last, hfirst⟩ := g.firstAnswer_timeless r.query ps s
    refine ⟨.ok found, s', last, fun now => ?_⟩
    rw [lookup_run, hresolved]
    dsimp only
    rw [hfirst]

theorem asks_timeless (g : Geocoder π σ) (now now' : Instant) (r : Request) (s : π × σ) :
    g.asks now r s = g.asks now' r s := by
  rw [asks_eq, asks_eq]

end Geocoder

/-! ## The cache file -/

namespace Disk

/-- The collection that a lookup takes from the text of an entry. -/
def collection? (text : String) : Option (List Address) :=
  (CacheEntry.ofText? text).map (·.addresses)

/-- The collections in a cache file under their keys, as far as the file can be read. -/
def collections (slot : FileSlot) : Except FileProblem (Table (Option (List Address))) :=
  (tableOf slot).map (Table.map collection?)

/-- The collection of an entry does not depend on its time. -/
theorem collection?_text (as : List Address) {now : Instant} (h : now.InRange) :
    collection? (CacheEntry.mk now as).text = as.mapM Address.reread? := by
  rw [collection?, CacheEntry.ofText?_text, Instant.ofText?_text now h]
  cases as.mapM Address.reread? <;> rfl

theorem set_state (d : Disk) (key : CacheKey) (text : String) :
    ((store.set key text).run.run d).2 = ((insert key text).run.run d).2 := rfl

theorem insert_collections (d : Disk) (key : CacheKey) {text text' : String}
    (h : collection? text = collection? text') :
    collections ((insert key text).run.run d).2.slot =
      collections ((insert key text').run.run d).2.slot := by
  cases hheld : d.held with
  | error fault =>
    have hinsert (text : String) : (insert key text).run.run d = (.error fault, d) :=
      run_bind_error _ (run_stage_error hheld key text)
    rw [hinsert, hinsert]
  | ok t =>
    rcases insert_cases hheld with hok | herror | ⟨problem, hcut⟩
    · obtain ⟨slot, hrun, htable⟩ := hok key text
      obtain ⟨slot', hrun', htable'⟩ := hok key text'
      rw [hrun, hrun', collections, collections, htable, htable']
      simp only [Except.map, Table.map_insert, h]
    · obtain ⟨fault, hrun⟩ := herror key text
      obtain ⟨fault', hrun'⟩ := herror key text'
      rw [hrun, hrun']
    · -- Nothing can be read from a text that was cut off, whatever it began with.
      obtain ⟨fault, slot, hrun, -, htable⟩ := hcut key text
      obtain ⟨fault', slot', hrun', -, htable'⟩ := hcut key text'
      rw [hrun, hrun', collections, collections, htable, htable']

end Disk

namespace Geocoder

variable {π : Type}

theorem keep_state {σ : Type} (registry : Registry π) (store : Store σ) (now : Instant)
    (key : CacheKey) (as : List Address) (s : π × σ) :
    ((keep ⟨registry, some store⟩ now key as).run s).2 =
      (s.1, ((store.set key (CacheEntry.mk now as).text).run.run s.2).2) := rfl

/-- Two states of what providers use, with handles whose files hold the same collections. -/
def SameCollections (s s' : π × Disk) : Prop :=
  s.1 = s'.1 ∧ Disk.collections s.2.slot = Disk.collections s'.2.slot

variable {g : Geocoder π Disk} (hstore : g.store = none ∨ g.store = some Disk.store)
  {now now' : Instant} (hnow : now.InRange) (hnow' : now'.InRange)

include hstore hnow hnow'

theorem keepLast_retimed (last : Option (CacheKey × List Address)) (s : π × Disk) :
    SameCollections ((g.keepLast now last).run s).2 ((g.keepLast now' last).run s).2 := by
  cases last with
  | none => exact ⟨rfl, rfl⟩
  | some entry =>
    obtain ⟨key, as⟩ := entry
    obtain ⟨registry, store⟩ := g
    obtain rfl | rfl := hstore
    · exact ⟨rfl, rfl⟩
    · have hsame := (Disk.collection?_text as hnow).trans (Disk.collection?_text as hnow').symm
      rw [keepLast, keepLast, keep_state, keep_state, Disk.set_state, Disk.set_state]
      exact ⟨rfl, Disk.insert_collections s.2 key hsame⟩

theorem lookup_retimed (r : Request) (s : π × Disk) :
    ((g.lookup now r).run.run s).1 = ((g.lookup now' r).run.run s).1 ∧
      SameCollections ((g.lookup now r).run.run s).2 ((g.lookup now' r).run.run s).2 := by
  obtain ⟨result, s', last, hrun⟩ := g.lookup_timeless r s
  rw [hrun now, hrun now']
  exact ⟨rfl, keepLast_retimed hstore hnow hnow' last s'⟩

end Geocoder

end Gazetteer
