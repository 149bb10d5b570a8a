import Gazetteer.Proofs.Lookup.Exhaustion
import Gazetteer.Proofs.Query.Equality

/-!
# Equal queries and what is kept

What a provider has answered is found for every query with the signature of the one that it was
asked, and for no other.  Equal queries have one signature, unless a coordinate is zero with
different signs.  So a lookup of a query finds what was answered to an equal one, unless they have
such zeros; then the provider is asked again.

    what a turn leaves is found for its signature, until the store is cleared       (hits_of_leaves)
    without an answer for a signature, its provider is asked                  (misses_of_unanswered)
    what the second of two equal queries finds                                 (equal_queries_share)
    a point on the equator, asked for with zeros of either sign                (equal_queries_apart)
-/

namespace Gazetteer

variable {π σ : Type}

/-! ## Stores that keep what they are given -/

theorem LookupM.Alike.refl {α : Type} (m : LookupM π σ α) : LookupM.Alike (· = ·) m m := by
  rintro x y _ rfl
  exact ⟨_, _, _, _, rfl, rfl, rfl⟩

theorem Geocoder.Alike.refl (g : Geocoder π σ) : g.Alike g (· = ·) where
  registry := rfl
  kept? q p _ := .refl (g.kept? ⟨q.signature, p.id⟩)
  keep now q p as _ := .refl (g.keep now ⟨q.signature, p.id⟩ as)

/-- A store that has what it is given under the key that it is given: a memory, or a handle that
holds a table, as long as no registered id has a bar in it. -/
inductive Store.Keeps (registry : Registry π) : {σ : Type} → Store σ → σ → Prop
  | memory (m : Memory) : Keeps registry Memory.store m
  | disk {d : Disk} {t : Table String} (h : d.held = .ok t) (hids : registry.PlainIds) :
    Keeps registry Disk.store d

theorem Store.Keeps.alike {registry : Registry π} {store : Store σ} {y : σ}
    (h : store.Keeps registry y) :
    ∃ (Rep : σ → Memory → Prop) (m : Memory),
      Geocoder.Alike ⟨registry, some store⟩ (Geocoder.inMemory registry) Rep ∧ Rep y m := by
  cases h with
  | memory m => exact ⟨_, m, .refl _, rfl⟩
  | disk h hids =>
    obtain ⟨Rep, m, halike, hrep, -⟩ := (Store.Readable.disk h).alike registry hids
    exact ⟨Rep, m, halike, hrep⟩

namespace Geocoder

/-! ## Hits and misses -/

/-- What a turn leaves in the store: the entry that it found there, or its answer as it is read from
the entry that is made of it. -/
inductive Turn.Leaves (now : Instant) : Turn → List Address → Prop
  | kept (as : List Address) : Leaves now (.kept as) as
  | answer {as : List Address} {e : CacheEntry} (nonempty : as ≠ [])
    (entry : CacheEntry.ofText? (CacheEntry.mk now as).text = some e) :
    Leaves now (.asked (.ok as)) e.addresses

/-- Whichever lookup of the query comes to the provider `id` finds these addresses in the store, and
they are its result. -/
def Hits (g : Geocoder π σ) (s : π × σ) (q : Query) (id : String) (as : List Address) : Prop :=
  ∀ now ids p t, (p, t) ∈ g.turnsOf ⟨q, ids⟩ s → p.id = id →
    t = .kept as ∧ ((g.lookup now ⟨q, ids⟩).run.run s).1 = .ok as

/-- Whichever lookup of the query comes to the provider `id` asks it. -/
def Misses (g : Geocoder π σ) (s : π × σ) (q : Query) (id : String) : Prop :=
  ∀ now ids p t, (p, t) ∈ g.turnsOf ⟨q, ids⟩ s → p.id = id →
    ∃ answer, t = .asked answer ∧ ⟨id, q, answer⟩ ∈ g.asks now ⟨q, ids⟩ s

/-- During a run, the provider `id` is asked in vain for queries with this signature, if at all. -/
def Unanswered (g : Geocoder π σ) (actions : List Action) (s : π × σ) (signature id : String) :
    Prop :=
  ∀ a ∈ g.runAsks actions s, a.provider = id → a.query.signature = signature → a.Vain

/-- What a turn leaves is an entry after its lookup. -/
theorem entry_of_leaves (registry : Registry π) (now : Instant) (r : Request) (x : π) (m : Memory)
    (p : Provider π) (t : Turn) (as : List Address)
    (hturn : (p, t) ∈ (inMemory registry).turnsOf r (x, m)) (hleaves : t.Leaves now as) :
    ∃ e, (((inMemory registry).after [.lookup now r] (x, m)).2.find?
      ⟨r.query.signature, p.id⟩).bind CacheEntry.ofText? = some e ∧ e.addresses = as := by
  cases hleaves with
  | kept as =>
    cases he : (m.find? ⟨r.query.signature, p.id⟩).bind CacheEntry.ofText? with
    | none =>
      obtain ⟨answer, hasked⟩ := asked_of_mem_turnsOf he r x p _ rfl rfl hturn
      cases hasked
    | some e =>
      have hkept := kept_of_mem_turnsOf he r x p _ rfl rfl hturn
      injection hkept with hkept
      exact ⟨e, entry_lookup he now r x, hkept.symm⟩
  | answer hne hentry =>
    have hanswer := ask_mem_of_turn _ now r _ p _ hturn
    exact ⟨_, entry_of_answer registry now r (x, m) p.id _ _ hne hentry hanswer, rfl⟩

/-- Without an answer for a key, the memory has under it what it had. -/
theorem find?_of_unanswered (registry : Registry π) (key : CacheKey) (actions : List Action)
    (hlookups : Action.clear ∉ actions) (x : π) (m : Memory)
    (hquiet : (inMemory registry).Unanswered actions (x, m) key.signature key.provider) :
    ((inMemory registry).after actions (x, m)).2.find? key = m.find? key := by
  induction actions generalizing x m with
  | nil => rfl
  | cons action rest ih =>
    cases action with
    | clear => exact absurd List.mem_cons_self hlookups
    | lookup now r =>
      rw [Unanswered, runAsks_cons] at hquiet
      have hfirst : (((inMemory registry).lookup now r).run.run (x, m)).2.2.find? key =
          m.find? key := by
        rcases memory_of_lookup registry now r (x, m) with h | ⟨id, as, hne, hask, h⟩
        · rw [h]
        · have hkey : key ≠ ⟨r.query.signature, id⟩ := by
            rintro rfl
            exact hne (hquiet _ (List.mem_append_left _ hask) rfl rfl as rfl)
          rw [h, Memory.find?_insert, if_neg hkey]
      rw [← hfirst]
      exact ih (fun h => hlookups (List.mem_cons_of_mem _ h)) _ _ fun a ha =>
        hquiet a (List.mem_append_right _ ha)

section Alike

variable {g : Geocoder π σ} {registry : Registry π} {Rep : σ → Memory → Prop} {y : σ} {m : Memory}
  (h : g.Alike (inMemory registry) Rep) (hrep : Rep y m) (x : π)

include h hrep

/-- What a turn leaves is found for every query with its signature. -/
theorem hits_of_leaves (now : Instant) (r : Request) (p : Provider π) (t : Turn) (as : List Address)
    (hturn : (p, t) ∈ g.turnsOf r (x, y)) (hleaves : t.Leaves now as) (late : List Action)
    (hlate : Action.clear ∉ late) (q : Query) (hq : q.signature = r.query.signature) :
    g.Hits (g.after (.lookup now r :: late) (x, y)) q p.id as := by
  rw [h.turnsOf r x y m hrep] at hturn
  obtain ⟨e, he, rfl⟩ := entry_of_leaves registry now r x m p t as hturn hleaves
  have hlookup : Action.clear ∉ [Action.lookup now r] := by simp
  obtain ⟨-, hrep'⟩ := h.after (absurd · hlookup) x y m hrep
  obtain ⟨-, hkept⟩ := entry_lasts h hrep' he late hlate (g.after [.lookup now r] (x, y)).1
  intro now' ids p' t' hmem hp
  obtain rfl := hkept ⟨q, ids⟩ p' t' hq hp hmem
  exact ⟨rfl, (found_of_mem_turnsOf g now' _ _ p' _ _ hmem rfl).1⟩

/-- What is not kept at the start of a run, and not answered during it, is asked after it. -/
theorem misses_of_unanswered (q : Query) (id : String)
    (hkept : ((g.kept? ⟨q.signature, id⟩).run (x, y)).1 = none) (actions : List Action)
    (hlookups : Action.clear ∉ actions) (hquiet : g.Unanswered actions (x, y) q.signature id) :
    g.Misses (g.after actions (x, y)) q id := by
  intro now ids p t hmem hp
  subst hp
  -- The memory has no entry at the start, so it has none after the run.
  have hfind := (mem_turnsOf g ⟨q, ids⟩ _ p t hmem).1
  obtain ⟨kept, x', y', m', hy, hm, -⟩ := h.kept? q p hfind x y m hrep
  rw [hy] at hkept
  obtain rfl : kept = none := hkept
  rw [kept?_memory, Prod.mk.injEq, Option.map_eq_none_iff] at hm
  rw [Unanswered, h.runAsks (absurd · hlookups) x y m hrep] at hquiet
  have hsame := find?_of_unanswered registry ⟨q.signature, p.id⟩ actions hlookups x m hquiet
  obtain ⟨-, hrep'⟩ := h.after (absurd · hlookups) x y m hrep
  have hmem' := hmem
  rw [h.turnsOf ⟨q, ids⟩ _ _ _ hrep'] at hmem'
  obtain ⟨answer, rfl⟩ := asked_of_mem_turnsOf (by rw [hsame, hm.1]) _ _ p t rfl rfl hmem'
  exact ⟨answer, rfl, ask_mem_of_turn g now _ _ p answer hmem⟩

end Alike

/-! ## Equal queries -/

/-- Equal queries share what is kept, as long as their zeros have the same signs.  Equal queries
have one signature just if no coordinate is zero in both with different signs.  Then what a lookup
of the one finds is found by whichever lookup of the other comes to the same provider, until the
store is cleared.  With such zeros, the provider is asked again, as long as it has not answered the
other query itself. -/
theorem equal_queries_share (g : Geocoder π σ) (store : Store σ) (hstore : g.store = some store)
    (x : π) (y : σ) (hkeeps : store.Keeps g.registry y) (q q' : Query)
    (hsame : q.same q' = true) :
    (q.signature = q'.signature ↔ ¬ q.ZerosApart q') ∧
    ∀ (now : Instant) (ids : List String) (p : Provider π) (t : Turn) (as : List Address)
      (late : List Action), (p, t) ∈ g.turnsOf ⟨q, ids⟩ (x, y) → t.Leaves now as →
      Action.clear ∉ late →
      let s := g.after (.lookup now ⟨q, ids⟩ :: late) (x, y)
      (¬ q.ZerosApart q' → g.Hits s q' p.id as) ∧
      (q.ZerosApart q' → ((g.kept? ⟨q'.signature, p.id⟩).run (x, y)).1 = none →
        g.Unanswered late (g.after [.lookup now ⟨q, ids⟩] (x, y)) q'.signature p.id →
        g.Misses s q' p.id) := by
  obtain ⟨registry, _⟩ := g
  subst hstore
  obtain ⟨Rep, m, halike, hrep⟩ := hkeeps.alike
  have hsignature := Query.signature_eq_iff_of_same hsame
  refine ⟨hsignature, fun now ids p t as late hturn hleaves hlate => ⟨?_, ?_⟩⟩
  · intro hzeros
    exact hits_of_leaves halike hrep x now ⟨q, ids⟩ p t as hturn hleaves late hlate q'
      (hsignature.mpr hzeros).symm
  · intro hzeros hkept hquiet
    have hlookups : Action.clear ∉ Action.lookup now ⟨q, ids⟩ :: late := by simpa using hlate
    apply misses_of_unanswered halike hrep x q' p.id hkept _ hlookups
    intro a ha hprovider hquery
    rw [runAsks_cons] at ha
    rcases List.mem_append.mp ha with hfirst | hlater
    · -- The first lookup asks for the first query, which has another signature.
      rw [(mem_asks _ now ⟨q, ids⟩ _ a hfirst).1] at hquery
      exact absurd hzeros (hsignature.mp hquery)
    · exact hquiet a hlater hprovider hquery

/-- A point on the equator is asked for twice, then again with a zero of the other sign. -/
theorem equal_queries_share_equator :
    let p : Provider Unit := .steady "p" [Sample.gotham]
    let g : Geocoder Unit Memory := inMemory (Registry.empty.register p)
    let now : Instant := ⟨2024, 1, 1, 0, 0, 0, 0, by decide⟩
    let q : Query := .point ⟨.zero false, .ofNat 5⟩
    let q' : Query := .point ⟨.zero true, .ofNat 5⟩
    let s := g.after [.lookup now ⟨q, ["p"]⟩] ((), Memory.empty)
    Memory.store.Keeps g.registry Memory.empty ∧ q.same q = true ∧ q.same q' = true ∧
    (p, .asked (.ok [Sample.gotham])) ∈ g.turnsOf ⟨q, ["p"]⟩ ((), Memory.empty) ∧
    (Turn.asked (.ok [Sample.gotham])).Leaves now [Sample.gotham] ∧
    ¬ q.ZerosApart q ∧ g.Hits s q "p" [Sample.gotham] ∧
    ((g.lookup now ⟨q, ["p"]⟩).run.run s).1 = .ok [Sample.gotham] ∧
    q.ZerosApart q' ∧ g.Misses s q' "p" := by
  intro p g now q q' s
  have hsame : q.same q = true := by decide +kernel
  have hsame' : q.same q' = true := by decide +kernel
  have hturn : (p, .asked (.ok [Sample.gotham])) ∈ g.turnsOf ⟨q, ["p"]⟩ ((), Memory.empty) :=
    head_mem_turnsOf g ⟨q, ["p"]⟩ ((), Memory.empty) p [] rfl
  have hleaves : (Turn.asked (.ok [Sample.gotham])).Leaves now [Sample.gotham] :=
    .answer (by simp) (Sample.entry_gotham now (by decide))
  have hzeros' : q.ZerosApart q' := .points (.inl ⟨false, rfl, rfl⟩)
  have hshare := equal_queries_share g Memory.store rfl () Memory.empty (.memory _)
  obtain ⟨hsignature, hfirst⟩ := hshare q q hsame
  obtain ⟨hhits, -⟩ := hfirst now ["p"] p _ _ [] hturn hleaves (by simp)
  obtain ⟨-, hsecond⟩ := hshare q q' hsame'
  obtain ⟨-, hmisses⟩ := hsecond now ["p"] p _ _ [] hturn hleaves (by simp)
  have hzeros : ¬ q.ZerosApart q := hsignature.mp rfl
  have hagain := head_mem_turnsOf g ⟨q, ["p"]⟩ s p [] rfl
  refine ⟨.memory _, hsame, hsame', hturn, hleaves, hzeros, hhits hzeros,
    (hhits hzeros now ["p"] p _ hagain rfl).2, hzeros', ?_⟩
  exact hmisses hzeros' rfl fun _ h => nomatch h

/-- The same point, asked for with zeros of either sign. -/
theorem equal_queries_apart :
    let g : Geocoder Unit Memory := inMemory (Registry.empty.register (.steady "p" [Sample.gotham]))
    let now : Instant := ⟨2024, 1, 1, 0, 0, 0, 0, by decide⟩
    let q : Query := .point ⟨.zero false, .ofNat 5⟩
    let q' : Query := .point ⟨.zero true, .ofNat 5⟩
    let s := g.after [.lookup now ⟨q, ["p"]⟩] ((), Memory.empty)
    q.same q' = true ∧ q.signature = "reverse:0,5" ∧ q'.signature = "reverse:-0,5" ∧
    g.asks now ⟨q, ["p"]⟩ ((), Memory.empty) = [⟨"p", q, .ok [Sample.gotham]⟩] ∧
    g.asks now ⟨q', ["p"]⟩ s = [⟨"p", q', .ok [Sample.gotham]⟩] := by
  intro g now q q' s
  refine ⟨by decide +kernel, by decide +kernel, by decide +kernel, asks_steady now q "p" _ (), ?_⟩
  rfl

end Geocoder

end Gazetteer
