import Gazetteer.Proofs.Lookup.Run

/-!
# Stores that can be read

A memory can always be read, and a handle on the cache file if it holds a table, which it does unless
its file is there and cannot be read as one.  Whether the file can be written does not matter: the
handle answers with what it was given.  So a lookup cannot tell such a store from a memory, whatever
is in it, and after a lookup or a clearing it can still be read.

    the memory of a table shows what the table shows                             (find?_ofTable)
    a lookup cannot tell a store that can be read from a memory                 (Readable.alike)
    what can be read can be read after every run                                (Readable.after)
-/

namespace Gazetteer

variable {π σ : Type}

namespace Memory

/-- The entries of a table whose keys are flat keys. -/
def ofTable (t : Table String) : Memory :=
  ⟨t.entries.filterMap fun e => (CacheKey.ofFlat? e.1).map (·, e.2)⟩

theorem find?_ofTable (t : Table String) (key : CacheKey) (hkey : key.Plain) :
    (ofTable t).find? key = t.find? key.flat := by
  obtain ⟨entries, hentries⟩ := t
  simp only [find?, ofTable, Table.find?]
  clear hentries
  induction entries with
  | nil => rfl
  | cons e rest ih =>
    obtain ⟨raw, value⟩ := e
    rw [Table.lookup_entry, List.filterMap_cons]
    cases hraw : CacheKey.ofFlat? raw with
    | none =>
      have hne : key.flat ≠ raw := by
        rintro rfl
        rw [CacheKey.ofFlat?_flat key hkey] at hraw
        cases hraw
      rw [if_neg hne]
      exact ih
    | some key' =>
      obtain ⟨rfl, hkey'⟩ := CacheKey.flat_of_ofFlat? hraw
      dsimp only [Option.map_some]
      rw [List.lookup_cons, ih]
      by_cases heq : key = key'
      · subst heq
        simp
      · have hne : key.flat ≠ key'.flat := fun h => heq ((CacheKey.flat_inj hkey hkey').mp h)
        have hb : (key == key') = false := by simpa using heq
        rw [if_neg hne, hb]

end Memory

/-! ## Handles that hold a table -/

namespace Disk

/-- The handle holds a table that shows under plain keys what the memory shows. -/
def Shows (d : Disk) (m : Memory) : Prop :=
  ∃ t, d.held = .ok t ∧ ∀ key : CacheKey, key.Plain → t.find? key.flat = m.find? key

theorem shows_ofTable {d : Disk} {t : Table String} (h : d.held = .ok t) :
    d.Shows (.ofTable t) := ⟨t, h, fun key hkey => (Memory.find?_ofTable t key hkey).symm⟩

theorem get_shows (key : CacheKey) (hkey : key.Plain) :
    StepsAlike Shows (store.get key).run (Memory.store.get key).run := by
  rintro d m ⟨t, ht, hshows⟩
  refine ⟨.ok (m.find? key), { d with loaded := some t }, m, ?_, rfl, t, rfl, hshows⟩
  rw [← hshows key hkey]
  exact run_lifted (run_find? ht key)

/-- The handle shows the entry even if the file does not take it. -/
theorem set_shows {d : Disk} {m : Memory} (h : d.Shows m) (key : CacheKey) (hkey : key.Plain)
    (value : String) : ((store.set key value).run.run d).2.Shows (m.insert key value) := by
  obtain ⟨t, ht, hshows⟩ := h
  have hloaded : ((store.set key value).run.run d).2.loaded = some (t.insert key.flat value) :=
    insert_loaded ht key value
  refine ⟨t.insert key.flat value, ?_, fun key' hkey' => ?_⟩
  · rw [held, hloaded]
  · rw [Table.find?_insert, Memory.find?_insert, hshows key' hkey']
    by_cases heq : key' = key
    · rw [if_pos heq, if_pos (congrArg CacheKey.flat heq)]
    · rw [if_neg heq, if_neg fun h => heq ((CacheKey.flat_inj hkey' hkey).mp h)]

theorem held_clear (d : Disk) : (clear.run.run d).2.held = .ok Table.empty := by
  rcases clear_cases d with ⟨slot, hok, -⟩ | ⟨fault, herror⟩
  · rw [hok]
    rfl
  · rw [herror]
    rfl

end Disk

/-! ## Stores -/

/-- A store that can be read: a memory, or a handle that holds a table. -/
inductive Store.Readable : {σ : Type} → Store σ → σ → Prop
  | memory (m : Memory) : Readable Memory.store m
  | disk {d : Disk} {t : Table String} (h : d.held = .ok t) : Readable Disk.store d

namespace Store.Readable

/-- A lookup cannot tell a store that can be read from some memory. -/
theorem alike {store : Store σ} {y : σ} (h : store.Readable y) (registry : Registry π)
    (hids : registry.PlainIds) :
    ∃ (Rep : σ → Memory → Prop) (m : Memory),
      Geocoder.Alike ⟨registry, some store⟩ (Geocoder.inMemory registry) Rep ∧ Rep y m ∧
        ∀ y' m', Rep y' m' → store.Readable y' := by
  cases h with
  | memory m =>
    refine ⟨(· = ·), m, Geocoder.alike_of_stores registry Memory.store.alike_refl hids, rfl, ?_⟩
    rintro m' _ rfl
    exact .memory m'
  | disk h =>
    refine ⟨Disk.Shows, _, ⟨rfl, ?kept, ?keep⟩, Disk.shows_ofTable h,
      fun _ _ ⟨_, ht, _⟩ => .disk ht⟩
    case kept =>
      intro q p hp
      exact Geocoder.kept?_alike registry (Disk.get_shows ⟨q.signature, p.id⟩ (hids p.id p hp))
    case keep =>
      intro now q p as hp
      apply Geocoder.keep_alike
      intro d m hshows
      exact Disk.set_shows hshows ⟨q.signature, p.id⟩ (hids p.id p hp) _

theorem clear {store : Store σ} {y : σ} (h : store.Readable y) :
    store.Readable (store.clear.run.run y).2 := by
  cases h with
  | memory m => exact .memory Memory.empty
  | disk h => exact .disk (Disk.held_clear _)

/-- A store that can be read can be read after every run. -/
theorem after {store : Store σ} {y : σ} (h : store.Readable y) (registry : Registry π)
    (hids : registry.PlainIds) (actions : List Action) (x : π) :
    store.Readable (Geocoder.after ⟨registry, some store⟩ actions (x, y)).2 := by
  induction actions generalizing x y with
  | nil => exact h
  | cons a rest ih =>
    rw [Geocoder.after_cons]
    apply ih
    cases a with
    | clear => exact h.clear
    | lookup now r =>
      obtain ⟨Rep, m, halike, hrep, hreadable⟩ := h.alike registry hids
      obtain ⟨_, x', y', m', hy, -, hrep'⟩ :=
        halike.perform (a := .lookup now r) (fun ha => nomatch ha) x y m hrep
      rw [hy]
      exact hreadable y' m' hrep'

end Store.Readable

end Gazetteer
