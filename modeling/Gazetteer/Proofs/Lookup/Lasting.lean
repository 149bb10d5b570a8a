import Gazetteer.Proofs.Lookup.Faults
import Gazetteer.Proofs.Lookup.Memory
import Gazetteer.Proofs.Lookup.Readable
import Gazetteer.Proofs.Provider.Sample

/-!
# What has been answered is not asked again

Once a provider has answered a query, it is not asked for a query with this signature again until the
store is cleared, whatever is looked up in the meantime; a lookup that comes to this provider takes
what is kept, and asks none after it.  The store may hold anything at the start, as long as it can be
read.  If the cache file is there and cannot be read, nothing is kept, and providers are asked again
and again.

    a turn that finds something is the last one and has the result             (found_of_mem_turns)
    after an answer, its provider is asked no more                                  (answered_once)
    a cache file that is no table, and a provider that is asked twice               (answered_twice)
-/

namespace Gazetteer.Geocoder

variable {π σ : Type}

/-! ## The last turn -/

theorem found_of_mem_turns (g : Geocoder π σ) (now : Instant) (q : Query) (ps : List (Provider π))
    (s : π × σ) (p : Provider π) (t : Turn) (as : List Address) (h : (p, t) ∈ g.turns q ps s)
    (hfound : t.found? = some as) :
    ((g.firstAnswer now q ps).run s).1 = as ∧ ∃ before, g.turns q ps s = before ++ [(p, t)] := by
  induction ps generalizing s with
  | nil => cases h
  | cons p' rest ih =>
    rw [turns_cons] at h ⊢
    rw [firstAnswer_cons]
    cases hfirst : ((g.turn q p').run s).1.found? with
    | some found =>
      rw [hfirst] at h
      cases List.mem_singleton.mp h
      rw [hfirst] at hfound
      exact ⟨Option.some.inj hfound, [], rfl⟩
    | none =>
      rw [hfirst] at h
      rcases List.mem_cons.mp h with heq | hmem
      · cases heq
        rw [hfirst] at hfound
        cases hfound
      · obtain ⟨hresult, before, hbefore⟩ := ih _ hmem
        refine ⟨hresult, (p', ((g.turn q p').run s).1) :: before, ?_⟩
        exact congrArg _ hbefore

theorem found_of_mem_turnsOf (g : Geocoder π σ) (now : Instant) (r : Request) (s : π × σ)
    (p : Provider π) (t : Turn) (as : List Address) (h : (p, t) ∈ g.turnsOf r s)
    (hfound : t.found? = some as) :
    ((g.lookup now r).run.run s).1 = .ok as ∧
      ∃ before, g.turnsOf r s = before ++ [(p, t)] := by
  rw [turnsOf] at h ⊢
  rw [lookup_run]
  cases hps : g.resolved r with
  | error e =>
    rw [hps] at h
    cases h
  | ok ps =>
    rw [hps] at h
    obtain ⟨hresult, hbefore⟩ := found_of_mem_turns g now r.query ps s p t as h hfound
    exact ⟨congrArg Except.ok hresult, hbefore⟩

theorem head_mem_turnsOf (g : Geocoder π σ) (r : Request) (s : π × σ) (p : Provider π)
    (rest : List (Provider π)) (h : g.resolved r = .ok (p :: rest)) :
    (p, ((g.turn r.query p).run s).1) ∈ g.turnsOf r s := by
  rw [turnsOf, h]
  exact List.mem_cons_self

/-! ## After an answer -/

/-- An answer that can be read back is an entry after the lookup that got it. -/
theorem entry_of_answer (registry : Registry π) (now : Instant) (r : Request) (s : π × Memory)
    (id : String) (as : List Address) (e : CacheEntry) (hne : as ≠ [])
    (hentry : CacheEntry.ofText? (CacheEntry.mk now as).text = some e)
    (hanswer : ⟨id, r.query, .ok as⟩ ∈ (inMemory registry).asks now r s) :
    (((inMemory registry).after [.lookup now r] s).2.find? ⟨r.query.signature, id⟩).bind
      CacheEntry.ofText? = some e := by
  obtain ⟨-, x', hrun⟩ := answered_lookup registry now r s id as hne hanswer
  have hafter : (inMemory registry).after [.lookup now r] s =
      (((inMemory registry).lookup now r).run.run s).2 := rfl
  rw [hafter, hrun, Memory.find?_insert, if_pos rfl, Option.bind_some, hentry]

/-- A store that a lookup cannot tell from a memory with an entry does not lose the entry by
lookups: its provider is not asked by them, and its next turn finds the entry. -/
theorem entry_lasts {g : Geocoder π σ} {registry : Registry π} {Rep : σ → Memory → Prop} {y : σ}
    {m : Memory} {key : CacheKey} {e : CacheEntry} (h : g.Alike (inMemory registry) Rep)
    (hrep : Rep y m) (he : (m.find? key).bind CacheEntry.ofText? = some e) (late : List Action)
    (hlate : Action.clear ∉ late) (x : π) :
    (∀ a ∈ g.runAsks late (x, y), a.provider = key.provider →
      a.query.signature ≠ key.signature) ∧
    ∀ r p t, r.query.signature = key.signature → p.id = key.provider →
      (p, t) ∈ g.turnsOf r (g.after late (x, y)) → t = .kept e.addresses := by
  obtain ⟨-, hrep'⟩ := h.after (absurd · hlate) x y m hrep
  constructor
  · rw [h.runAsks (absurd · hlate) x y m hrep]
    exact (entry_lookups he late hlate x).2
  · intro r p t hr hp hmem
    rw [h.turnsOf r _ _ _ hrep'] at hmem
    exact kept_of_mem_turnsOf (entry_lookups he late hlate x).1 r _ p t hr hp hmem

/-- Once a provider has given an answer that can be read back, no lookup asks it for a query with
this signature, until the store is cleared.  A lookup of such a query that comes to the provider has
the answer's entry as its result, and the provider's turn is the last one. -/
theorem answered_once (g : Geocoder π σ) (store : Store σ) (hstore : g.store = some store)
    (hids : g.registry.PlainIds) (x : π) (y : σ) (hreadable : store.Readable y)
    (early late : List Action) (now : Instant) (r : Request) (id : String) (as : List Address)
    (e : CacheEntry) (hanswer : ⟨id, r.query, .ok as⟩ ∈ g.asks now r (g.after early (x, y)))
    (hne : as ≠ []) (hentry : CacheEntry.ofText? (CacheEntry.mk now as).text = some e)
    (hlate : Action.clear ∉ late) :
    let s := g.after (early ++ [.lookup now r]) (x, y)
    let s' := g.after late s
    (∀ a ∈ g.runAsks late s, a.provider = id → a.query.signature ≠ r.query.signature) ∧
    ∀ now' r' p t, r'.query.signature = r.query.signature → (p, t) ∈ g.turnsOf r' s' → p.id = id →
      ((g.lookup now' r').run.run s').1 = .ok e.addresses ∧
      ∃ before, g.turnsOf r' s' = before ++ [(p, .kept e.addresses)] ∧
        g.asks now' r' s' = asksOf r'.query before := by
  obtain ⟨registry, _⟩ := g
  subst hstore
  rw [after_append]
  have hreadable₁ := hreadable.after registry hids early x
  generalize after ⟨registry, some store⟩ early (x, y) = s₁ at hanswer hreadable₁ ⊢
  obtain ⟨x₁, y₁⟩ := s₁
  -- a memory that a lookup cannot tell from the store has the entry after the answer
  obtain ⟨Rep, m₁, halike, hrep₁, -⟩ := hreadable₁.alike registry hids
  rw [halike.asks now r x₁ y₁ m₁ hrep₁] at hanswer
  have he := entry_of_answer registry now r (x₁, m₁) id as e hne hentry hanswer
  have hlookup : Action.clear ∉ [Action.lookup now r] := by simp
  obtain ⟨-, hrep₂⟩ := halike.after (absurd · hlookup) x₁ y₁ m₁ hrep₁
  obtain ⟨hasks, hkept⟩ := entry_lasts halike hrep₂ he late hlate _
  refine ⟨hasks, fun now' r' p t hr hmem hp => ?_⟩
  obtain rfl := hkept r' p t hr hp hmem
  obtain ⟨hresult, before, hturns⟩ := found_of_mem_turnsOf _ now' r' _ p _ _ hmem rfl
  refine ⟨hresult, before, hturns, ?_⟩
  rw [asks_eq, hturns, asksOf, List.flatMap_append]
  exact List.append_nil _

/-- A place on a file whose directory is missing, then another text, and the place again with blanks
around its name. -/
theorem answered_once_gotham :
    let g : Geocoder Unit Disk := ⟨Sample.registry, some Disk.store⟩
    let d := Disk.opened ⟨"cache/entries.json", "cache", .noDirectory⟩
    let now : Instant := ⟨2024, 1, 1, 0, 0, 0, 0, by decide⟩
    let r : Request := ⟨.text "gotham city", ["test_provider"]⟩
    let late : List Action := [.lookup now ⟨.text "metropolis", ["test_provider"]⟩]
    let r' : Request := ⟨.text " gotham city ", ["test_provider", "test_provider"]⟩
    let s := g.after [.lookup now r] ((), d)
    let s' := g.after late s
    g.registry.PlainIds ∧ Disk.store.Readable d ∧
    ⟨"test_provider", r.query, .ok [Sample.gotham]⟩ ∈ g.asks now r ((), d) ∧
    CacheEntry.ofText? (CacheEntry.mk now [Sample.gotham]).text = some ⟨now, [Sample.gotham]⟩ ∧
    Action.clear ∉ late ∧ r'.query.signature = r.query.signature ∧
    (∀ a ∈ g.runAsks late s, a.provider = "test_provider" →
      a.query.signature ≠ r.query.signature) ∧
    ((g.lookup now r').run.run s').1 = .ok [Sample.gotham] ∧
    ∃ before, g.turnsOf r' s' = before ++ [(.sample, .kept [Sample.gotham])] ∧
      g.asks now r' s' = asksOf r'.query before := by
  intro g d now r late r' s s'
  have hreadable : Disk.store.Readable d := .disk (Disk.holds_absent _ (.inr rfl)).held
  have hanswer : ⟨"test_provider", r.query, .ok [Sample.gotham]⟩ ∈ g.asks now r ((), d) := by
    have hasks : g.asks now r ((), d) = [⟨"test_provider", r.query, .ok [Sample.gotham]⟩] := rfl
    rw [hasks]
    exact List.mem_cons_self
  have hentry := Sample.entry_gotham now (by decide)
  have hsignature : r'.query.signature = r.query.signature := by decide +kernel
  have hturn : (.sample, ((g.turn r'.query .sample).run s').1) ∈ g.turnsOf r' s' :=
    head_mem_turnsOf g r' s' .sample [.sample] rfl
  have h := answered_once g Disk.store rfl Sample.plainIds_registry () d hreadable [] late now r
    "test_provider" _ _ hanswer (by simp) hentry (by decide)
  exact ⟨Sample.plainIds_registry, hreadable, hanswer, hentry, by decide, hsignature, h.1,
    h.2 now r' _ _ hsignature hturn rfl⟩

/-- With a broken cache file, nothing is kept and the provider is asked again. -/
theorem answered_twice :
    let g : Geocoder Unit Disk := ⟨Sample.registry, some Disk.store⟩
    let d := Disk.opened ⟨"cache/entries.json", "cache", .file "broken"⟩
    let now : Instant := ⟨2024, 1, 1, 0, 0, 0, 0, by decide⟩
    let r : Request := ⟨.text "gotham city", ["test_provider"]⟩
    let s := g.after [.lookup now r] ((), d)
    d.slot.Writable ∧ g.registry.PlainIds ∧
    g.asks now r ((), d) = [⟨"test_provider", r.query, .ok [Sample.gotham]⟩] ∧
    CacheEntry.ofText? (CacheEntry.mk now [Sample.gotham]).text = some ⟨now, [Sample.gotham]⟩ ∧
    g.asks now r s = [⟨"test_provider", r.query, .ok [Sample.gotham]⟩] := by
  intro g d now r s
  have hbroken : Disk.tableOf d.slot = .error .unparsable := by
    apply Disk.tableOf_not_texts rfl
    rw [← Json.texts?_eq_none_iff, ← Option.isNone_iff_eq_none]
    decide +kernel
  have halike := (Disk.blind_opened hbroken).alike (Sample.registry : Registry Unit)
  have hasks : ∀ x, g.asks now r (x, d) = [⟨"test_provider", r.query, .ok [Sample.gotham]⟩] :=
    fun x => halike.asks now r x d d rfl
  have hlookup : Action.clear ∉ [Action.lookup now r] := by simp
  have hs : s = ((), d) := Prod.ext rfl (halike.after (absurd · hlookup) () d d rfl).2
  refine ⟨trivial, Sample.plainIds_registry, hasks (), Sample.entry_gotham now (by decide), ?_⟩
  rw [hs]
  exact hasks ()

end Gazetteer.Geocoder
