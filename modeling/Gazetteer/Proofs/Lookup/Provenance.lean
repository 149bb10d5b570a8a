import Mathlib.Data.List.Induction
import Gazetteer.Proofs.Address.ReadBack
import Gazetteer.Proofs.Lookup.Memory
import Gazetteer.Proofs.Provider.Sample

/-!
# Where stored answers come from

Whatever a store holds during a run was given to it by a lookup of the run, as the answer of the
provider that it is kept for, to the query that it is kept for, and has not been cleared since.
Each action preserves this, so it holds in every state that a run reaches.  It is shown for memory
and carried over to the cache file.

Since answers are kept only if they are not empty, and decoding an entry loses no address and no
provider's name, kept addresses are never empty and name the provider that they are kept for.

    a text kept after a lookup was kept before, or is the answer it got      (kept_of_lookup)
    g.KeptBy actions s key text, for every text in the memory                   (memory_kept)
    the same for every store, and what follows for results                   (run_provenance)
-/

namespace Gazetteer

variable {π σ : Type}

/-- The provider puts its id on every address that it finds. -/
def Provider.Stamps (p : Provider π) : Prop :=
  ∀ q x as, ((p.ask q).run x).1 = .ok as → ∀ a ∈ as, a.providedBy = p.id

namespace Geocoder

/-- A lookup of the run, with no clearing after it, kept the text: a provider's answer to it. -/
def KeptBy (g : Geocoder π σ) (actions : List Action) (s : π × σ) (key : CacheKey)
    (text : String) : Prop :=
  ∃ early now r late as, actions = early ++ .lookup now r :: late ∧ Action.clear ∉ late ∧
    r.query.signature = key.signature ∧
    ⟨key.provider, r.query, .ok as⟩ ∈ g.asks now r (g.after early s) ∧ as ≠ [] ∧
    text = (CacheEntry.mk now as).text

/-! ## Lookups on memory -/

/-- What is kept after a lookup was kept before, or is the answer that the lookup got. -/
theorem kept_of_lookup (registry : Registry π) (now : Instant) (r : Request) (s : π × Memory)
    (key : CacheKey) (text : String)
    (h : (((inMemory registry).lookup now r).run.run s).2.2.find? key = some text) :
    s.2.find? key = some text ∨ (r.query.signature = key.signature ∧ ∃ as,
      ⟨key.provider, r.query, .ok as⟩ ∈ (inMemory registry).asks now r s ∧ as ≠ [] ∧
      text = (CacheEntry.mk now as).text) := by
  rcases memory_of_lookup registry now r s with hm | ⟨id, as, hne, hask, hm⟩
  · rw [hm] at h
    exact .inl h
  · rw [hm, Memory.find?_insert] at h
    split at h
    · next hkey =>
      subst hkey
      exact .inr ⟨rfl, as, hask, hne, (Option.some.inj h).symm⟩
    · exact .inl h

/-! ## Runs on memory -/

/-- Another lookup does not undo that a text is kept by the run. -/
theorem KeptBy.snoc {g : Geocoder π σ} {actions : List Action} {s : π × σ} {key : CacheKey}
    {text : String} (h : g.KeptBy actions s key text) (now : Instant) (r : Request) :
    g.KeptBy (actions ++ [.lookup now r]) s key text := by
  obtain ⟨early, now', r', late, as, rfl, hclear, hkept⟩ := h
  refine ⟨early, now', r', late ++ [.lookup now r], as, by simp, ?_, hkept⟩
  simp [hclear]

/-- Every text in the memory was kept by the run. -/
theorem memory_kept (registry : Registry π) (x : π) (actions : List Action) (key : CacheKey)
    (text : String)
    (h : ((inMemory registry).after actions (x, Memory.empty)).2.find? key = some text) :
    (inMemory registry).KeptBy actions (x, Memory.empty) key text := by
  induction actions using List.reverseRecOn with
  | nil => cases h
  | append_singleton actions a ih =>
    rw [after_append] at h
    generalize hs : (inMemory registry).after actions (x, Memory.empty) = s at h ih
    cases a with
    | clear => cases h
    | lookup now r =>
      rcases kept_of_lookup registry now r s key text h with h | ⟨hq, as, hmem, hne, htext⟩
      · exact (ih h).snoc now r
      · rw [← hs] at hmem
        exact ⟨actions, now, r, [], as, rfl, by simp, hq, hmem, hne, htext⟩

/-! ## What is kept, and results -/

/-- The addresses of an entry that was kept are not empty, and are from the provider of its key if
providers name themselves. -/
theorem KeptBy.addresses {g : Geocoder π σ} {actions : List Action} {s : π × σ} {key : CacheKey}
    {text : String} {e : CacheEntry} (h : g.KeptBy actions s key text)
    (he : CacheEntry.ofText? text = some e) :
    e.addresses ≠ [] ∧ ((∀ id p, g.registry.find? id = some p → p.Stamps) →
      ∀ a ∈ e.addresses, a.providedBy = key.provider) := by
  obtain ⟨early, now, r, late, as, -, -, -, hask, hne, rfl⟩ := h
  have hreread := CacheEntry.reread?_of_ofText? he
  have hprovided := Address.providedBy_of_reread? as e.addresses hreread
  obtain ⟨-, -, p, x, hfind, hanswer⟩ := mem_asks g now r _ _ hask
  constructor
  · intro hnil
    rw [hnil] at hprovided
    exact hne (List.map_eq_nil_iff.mp hprovided.symm)
  · intro hstamps a ha
    have hmem : a.providedBy ∈ as.map (·.providedBy) := by
      rw [← hprovided]
      exact List.mem_map_of_mem ha
    obtain ⟨b, hb, heq⟩ := List.mem_map.mp hmem
    rw [← heq, hstamps _ p hfind r.query x as hanswer.symm b hb]
    exact Registry.id_of_find? _ hfind

/-- What a turn finds in the memory is there when the lookup starts. -/
theorem entry_of_turns (registry : Registry π) (q : Query) (ps : List (Provider π)) (x : π)
    (m : Memory) (p : Provider π) (as : List Address)
    (h : (p, Turn.kept as) ∈ (inMemory registry).turns q ps (x, m)) :
    ∃ text e, m.find? ⟨q.signature, p.id⟩ = some text ∧ CacheEntry.ofText? text = some e ∧
      e.addresses = as := by
  obtain ⟨x', hturn⟩ := turn_of_mem_turns registry q ps x m p _ h
  rw [turn_memory] at hturn
  cases hkept : (m.find? ⟨q.signature, p.id⟩).bind CacheEntry.ofText? with
  | none =>
    rw [hkept] at hturn
    cases hturn
  | some e =>
    rw [hkept] at hturn
    obtain ⟨text, htext, he⟩ := Option.bind_eq_some_iff.mp hkept
    exact ⟨text, e, htext, he, Turn.kept.inj hturn⟩

section Kept

variable {registry : Registry π} {actions : List Action} {s : π × Memory} {m : Memory}

/-- A hit of a lookup has addresses, and they are from the provider whose turn it is. -/
theorem hit_addresses
    (hkept : ∀ key text, m.find? key = some text → (inMemory registry).KeptBy actions s key text)
    (r : Request) (x : π) (p : Provider π) (as : List Address)
    (h : (p, Turn.kept as) ∈ (inMemory registry).turnsOf r (x, m)) :
    as ≠ [] ∧ ((∀ id p, registry.find? id = some p → p.Stamps) →
      ∀ a ∈ as, a.providedBy = p.id) := by
  rw [turnsOf] at h
  cases hps : (inMemory registry).resolved r with
  | error e =>
    rw [hps] at h
    cases h
  | ok ps =>
    rw [hps] at h
    obtain ⟨text, e, htext, he, rfl⟩ := entry_of_turns registry r.query ps x m p as h
    exact (hkept _ text htext).addresses he

theorem turn_providedBy
    (hkept : ∀ key text, m.find? key = some text → (inMemory registry).KeptBy actions s key text)
    (hstamps : ∀ id p, registry.find? id = some p → p.Stamps) (r : Request) (x : π)
    (p : Provider π) (t : Turn) (h : (p, t) ∈ (inMemory registry).turnsOf r (x, m))
    (as : List Address) (hfound : t.found? = some as) :
    ∃ id ∈ r.providers, ∀ a ∈ as, a.providedBy = id := by
  obtain ⟨hfind, hnamed, s', hturn⟩ := mem_turnsOf _ r (x, m) p t h
  refine ⟨p.id, hnamed, ?_⟩
  cases t with
  | kept addresses =>
    obtain rfl := Option.some.inj hfound
    exact (hit_addresses hkept r x p addresses h).2 hstamps
  | asked answer =>
    obtain ⟨x', hanswer⟩ := turn_asked _ r.query p s' answer hturn
    rw [(Turn.of_found?_asked hfound).1] at hanswer
    exact hstamps p.id p hfind r.query x' as hanswer.symm

end Kept

/-! ## Every store -/

/-- What a run on memory keeps, the same run on a store that is alike keeps as well. -/
theorem KeptBy.alike {registry : Registry π} {store : Store σ} {Rep : σ → Memory → Prop}
    (h : store.Alike Memory.store Rep) (hids : registry.PlainIds) {actions : List Action} {x : π}
    {y : σ} (hrep : Rep y Memory.empty) {key : CacheKey} {text : String}
    (hkept : (inMemory registry).KeptBy actions (x, Memory.empty) key text) :
    KeptBy ⟨registry, some store⟩ actions (x, y) key text := by
  obtain ⟨early, now, r, late, as, hactions, hclear, hq, hask, hrest⟩ := hkept
  refine ⟨early, now, r, late, as, hactions, hclear, hq, ?_, hrest⟩
  obtain ⟨hx, hrep'⟩ := after_alike registry h hids early x y Memory.empty hrep
  generalize after ⟨registry, some store⟩ early (x, y) = s at hx hrep' ⊢
  generalize (inMemory registry).after early (x, Memory.empty) = s' at hx hrep' hask
  obtain ⟨x1, y1⟩ := s
  obtain ⟨x2, m⟩ := s'
  obtain rfl : x1 = x2 := hx
  rw [asks_alike registry h hids now r x1 y1 m hrep']
  exact hask

/-- In every state that a run on an empty store reaches, the store can be read, and every text in it
was kept by the run and not cleared since.  So what is found in the store is never empty; and if
every provider stamps its id on what it finds, the addresses of a result are from one provider of
the request. -/
theorem run_provenance (g : Geocoder π σ) (store : Store σ) (hstore : g.store = some store)
    (x : π) (y : σ) (hfresh : store.Fresh y) (hids : g.registry.PlainIds)
    (actions : List Action) :
    (∀ key, key.Plain → ∃ value,
      ((store.get key).run.run (g.after actions (x, y)).2).1 = .ok value ∧
      ∀ text, value = some text → g.KeptBy actions (x, y) key text) ∧
    (∀ r p as, (p, .kept as) ∈ g.turnsOf r (g.after actions (x, y)) → as ≠ []) ∧
    ((∀ id p, g.registry.find? id = some p → p.Stamps) → ∀ now r as,
      ((g.lookup now r).run.run (g.after actions (x, y))).1 = .ok as → as ≠ [] →
      ∃ id ∈ r.providers, ∀ a ∈ as, a.providedBy = id) := by
  obtain ⟨registry, _⟩ := g
  subst hstore
  obtain ⟨Rep, halike, hrep⟩ := hfresh.alike
  obtain ⟨hx, hrep'⟩ := after_alike registry halike hids actions x y Memory.empty hrep
  have hmemory := memory_kept registry x actions
  generalize after ⟨registry, some store⟩ actions (x, y) = s at hx hrep' ⊢
  generalize (inMemory registry).after actions (x, Memory.empty) = s' at hx hrep' hmemory
  obtain ⟨x1, y1⟩ := s
  obtain ⟨x2, m⟩ := s'
  obtain rfl : x1 = x2 := hx
  refine ⟨?stored, ?hit, ?result⟩
  case stored =>
    intro key hkey
    obtain ⟨a, y2, m2, hy, hm, -⟩ := halike.get key hkey y1 m hrep'
    have ha : a = .ok (m.find? key) := (congrArg (·.1) hm).symm
    refine ⟨m.find? key, ?_, fun text htext => (hmemory key text htext).alike halike hids hrep⟩
    rw [hy, ha]
  case hit =>
    intro r p as hturn
    rw [turnsOf_alike registry halike hids r x1 y1 m hrep'] at hturn
    exact (hit_addresses hmemory r x1 p as hturn).1
  case result =>
    intro hstamps now r as hresult hne
    obtain ⟨p, t, hturn, hfound⟩ := turn_of_lookup _ now r (x1, y1) as hresult hne
    rw [turnsOf_alike registry halike hids r x1 y1 m hrep'] at hturn
    exact turn_providedBy hmemory hstamps r x1 p t hturn as hfound

/-- A place that is looked up, cleared away and looked up again, on a file whose directory is
missing. -/
theorem run_provenance_gotham :
    let g : Geocoder Unit Disk := ⟨Sample.registry, some Disk.store⟩
    let d := Disk.opened ⟨"cache/entries.json", "cache", .noDirectory⟩
    let now : Instant := ⟨2024, 1, 1, 0, 0, 0, 0, by decide⟩
    let r : Request := ⟨.text "gotham city", ["test_provider"]⟩
    let actions : List Action := [.lookup now r, .clear, .lookup now r]
    g.store = some Disk.store ∧ Disk.store.Fresh d ∧ g.registry.PlainIds ∧
    (∀ id p, g.registry.find? id = some p → p.Stamps) ∧
    (∀ key, key.Plain → ∃ value, ((Disk.store.get key).run.run (g.after actions ((), d)).2).1 =
      .ok value ∧ ∀ text, value = some text → g.KeptBy actions ((), d) key text) ∧
    ∀ now r as, ((g.lookup now r).run.run (g.after actions ((), d))).1 = .ok as → as ≠ [] →
      ∃ id ∈ r.providers, ∀ a ∈ as, a.providedBy = id := by
  intro g d now r actions
  have hfresh : Disk.store.Fresh d := .disk (Disk.holds_absent _ (.inr rfl))
  have hids : g.registry.PlainIds := by
    intro id p hfind
    rw [(Sample.find?_registry hfind).1]
    decide
  have hstamps : ∀ id p, g.registry.find? id = some p → p.Stamps := by
    intro id p hfind q x as hanswer a ha
    obtain ⟨-, rfl⟩ := Sample.find?_registry hfind
    rcases Sample.answer_cases q x with h | h
    · rw [← Except.ok.inj (h.symm.trans hanswer)] at ha
      cases ha
    · rw [← Except.ok.inj (h.symm.trans hanswer)] at ha
      rw [List.mem_singleton.mp ha]
      rfl
  have h := run_provenance g Disk.store rfl () d hfresh hids actions
  exact ⟨rfl, hfresh, hids, hstamps, h.1, h.2.2 hstamps⟩

end Geocoder

end Gazetteer
