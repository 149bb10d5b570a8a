import Gazetteer.Proofs.Address.ReadBack
import Gazetteer.Proofs.Lookup.Run
import Gazetteer.Proofs.Provider.Sample
import Gazetteer.Proofs.Query.Signature

/-!
# Caching is transparent

A geocoder with a store and the same geocoder without one give the same responses to a run, if the
providers answer a query always alike, the queries are made from field values, and decoding an
answer's entry does not change the answer.  The store only saves questions.

Two runs are compared, one on memory and one without a store.  The invariant is about the memory
alone: each entry is the answer of its provider to the one prepared query with its signature.

    the invariant is preserved, the results agree                   (firstAnswer_transparent)
    action by action, then run by run                   (perform_transparent, run_transparent)
-/

namespace Gazetteer

variable {π σ τ : Type}

namespace Provider

/-- The provider answers a query always alike. -/
def Pure (p : Provider π) : Prop := ∀ q x x', ((p.ask q).run x).1 = ((p.ask q).run x').1

/-- Decoding the entry of an answer gives the answer, if it gives anything. -/
def Faithful (p : Provider π) : Prop :=
  ∀ q x as now e, ((p.ask q).run x).1 = .ok as →
    CacheEntry.ofText? (CacheEntry.mk now as).text = some e → e.addresses = as

end Provider

/-- Providers answer always alike, and their answers stand up to being kept. -/
def Registry.Steady (r : Registry π) : Prop :=
  ∀ id p, r.find? id = some p → p.Pure ∧ p.Faithful

namespace Geocoder

/-- Each entry is the answer of its provider to a prepared query with its signature. -/
def Answers (registry : Registry π) (m : Memory) : Prop :=
  ∀ key text, m.find? key = some text → ∃ p q x now as,
    registry.find? key.provider = some p ∧ q.Prepared ∧ q.signature = key.signature ∧
    ((p.ask q).run x).1 = .ok as ∧ as ≠ [] ∧ text = (CacheEntry.mk now as).text

theorem answers_empty (registry : Registry π) : Answers registry Memory.empty := by
  intro key text h
  cases h

theorem answers_insert {registry : Registry π} {m : Memory} (h : Answers registry m)
    {p : Provider π} (hp : registry.find? p.id = some p) {q : Query} (hq : q.Prepared) {x : π}
    {as : List Address} (has : ((p.ask q).run x).1 = .ok as) (hne : as ≠ []) (now : Instant) :
    Answers registry (m.insert ⟨q.signature, p.id⟩ (CacheEntry.mk now as).text) := by
  intro key text hfind
  rw [Memory.find?_insert] at hfind
  split at hfind
  · next hkey =>
    subst hkey
    exact ⟨p, q, x, now, as, hp, hq, rfl, has, hne, (Option.some.inj hfind).symm⟩
  · exact h key text hfind

/-- What is kept for a prepared query is what its provider answers. -/
theorem Answers.hit {registry : Registry π} {m : Memory} (h : Answers registry m)
    (hsteady : registry.Steady) {p : Provider π} (hp : registry.find? p.id = some p) {q : Query}
    (hq : q.Prepared) {e : CacheEntry}
    (he : (m.find? ⟨q.signature, p.id⟩).bind CacheEntry.ofText? = some e) (x : π) :
    ((p.ask q).run x).1 = .ok e.addresses ∧ e.addresses ≠ [] := by
  obtain ⟨text, htext, he⟩ := Option.bind_eq_some_iff.mp he
  obtain ⟨p', q', x', now, as, hp', hq', hsignature, has, hne, htext⟩ := h _ _ htext
  dsimp only at hp' hsignature
  rw [htext] at he
  have hpp : p = p' := Option.some.inj (hp.symm.trans hp')
  have hqq : q' = q := (Query.signature_inj hq' hq).mp hsignature
  rw [hqq, ← hpp] at has
  obtain ⟨hpure, hfaithful⟩ := hsteady p.id p hp
  have := hfaithful q x' as now e has he
  rw [this]
  exact ⟨(hpure q x x').trans has, hne⟩

/-! ## One lookup -/

/-- A geocoder without a store. -/
abbrev uncached (registry : Registry π) : Geocoder π τ := ⟨registry, none⟩

theorem turn_uncached (registry : Registry π) (q : Query) (p : Provider π) (s : π × τ) :
    ((uncached registry).turn q p).run s =
      (.asked ((p.ask q).run s.1).1, (((p.ask q).run s.1).2, s.2)) := rfl

theorem firstAnswer_transparent (registry : Registry π) (hsteady : registry.Steady) (now : Instant)
    (q : Query) (hq : q.Prepared) (ps : List (Provider π))
    (hps : ∀ p ∈ ps, registry.find? p.id = some p) (x : π) (m : Memory) (hm : Answers registry m)
    (s : π × τ) :
    (((inMemory registry).firstAnswer now q ps).run (x, m)).1 =
        (((uncached registry).firstAnswer now q ps).run s).1 ∧
      Answers registry (((inMemory registry).firstAnswer now q ps).run (x, m)).2.2 ∧
      (asksOf q ((inMemory registry).turns q ps (x, m))).Sublist
        (asksOf q ((uncached registry).turns q ps s)) := by
  induction ps generalizing x m s with
  | nil => exact ⟨rfl, hm, .slnil⟩
  | cons p rest ih =>
    have hp := hps p (by simp)
    have hrest := ih fun p hp => hps p (by simp [hp])
    rw [firstAnswer_cons, firstAnswer_cons, turns_cons, turns_cons, turn_memory, turn_uncached,
      asksOf_cons, asksOf_cons]
    cases hkept : (m.find? ⟨q.signature, p.id⟩).bind CacheEntry.ofText? with
    | some e =>
      obtain ⟨hanswer, hne⟩ := hm.hit hsteady hp hq hkept s.1
      obtain ⟨first, others, he⟩ := List.exists_cons_of_ne_nil hne
      rw [hanswer, he]
      refine ⟨he, hm, ?_⟩
      simp [Turn.asks, Turn.found?, asksOf]
    | none =>
      have hpure := (hsteady p.id p hp).1 q x s.1
      rw [← hpure]
      dsimp only
      cases hfound : (Turn.asked ((p.ask q).run x).1).found? with
      | none =>
        obtain ⟨hresult, hanswers, hasks⟩ := hrest _ m hm (((p.ask q).run s.1).2, s.2)
        exact ⟨hresult, hanswers, (List.Sublist.refl _).append hasks⟩
      | some as =>
        obtain ⟨hanswer, hne⟩ := Turn.of_found?_asked hfound
        rw [hanswer]
        dsimp only
        rw [settle_answer _ now q p as hne, keep_memory]
        exact ⟨rfl, answers_insert hm hp hq hanswer hne now, List.Sublist.refl _⟩

/-! ## Runs -/

/-- The queries of a run are made from field values. -/
def PreparedRun (actions : List Action) : Prop :=
  ∀ now r, Action.lookup now r ∈ actions → r.query.Prepared

theorem perform_transparent (registry : Registry π) (hsteady : registry.Steady) (a : Action)
    (ha : PreparedRun [a]) (x : π) (m : Memory) (hm : Answers registry m) (s : π × τ) :
    (((inMemory registry).perform a).run (x, m)).1 =
        (((uncached registry).perform a).run s).1 ∧
      Answers registry (((inMemory registry).perform a).run (x, m)).2.2 ∧
      ((inMemory registry).actionAsks a (x, m)).Sublist ((uncached registry).actionAsks a s) := by
  cases a with
  | clear => exact ⟨rfl, answers_empty registry, .slnil⟩
  | lookup now r =>
    have hq := ha now r (by simp)
    have hresolved : (uncached registry : Geocoder π τ).resolved r =
        (inMemory registry).resolved r := rfl
    rw [perform, perform, LookupM.run_bind, LookupM.run_bind, lookup_run, lookup_run, actionAsks,
      actionAsks, asks_eq, asks_eq, turnsOf, turnsOf, hresolved]
    cases hps : (inMemory registry).resolved r with
    | error e => exact ⟨rfl, hm, .slnil⟩
    | ok ps =>
      have hfind : ∀ p ∈ ps, registry.find? p.id = some p := fun p hp =>
        (registered_of_resolved _ r ps hps p hp).1
      obtain ⟨hresult, hanswers, hasks⟩ :=
        firstAnswer_transparent registry hsteady now r.query hq ps hfind x m hm s
      refine ⟨?_, hanswers, hasks⟩
      exact congrArg (fun found => Response.found (.ok found)) hresult

/-- Run by run: the responses are the same, and the questions are among those asked without a
store. -/
theorem memory_transparent (registry : Registry π) (hsteady : registry.Steady)
    (actions : List Action) (hactions : PreparedRun actions) (x : π) (m : Memory)
    (hm : Answers registry m) (s : π × τ) :
    (((inMemory registry).run actions).run (x, m)).1 =
        (((uncached registry).run actions).run s).1 ∧
      ((inMemory registry).runAsks actions (x, m)).Sublist
        ((uncached registry).runAsks actions s) := by
  induction actions generalizing x m s with
  | nil => exact ⟨rfl, .slnil⟩
  | cons a rest ih =>
    have ha : PreparedRun [a] := fun now r h => hactions now r (by simp_all)
    have hrest : PreparedRun rest := fun now r h => hactions now r (List.mem_cons_of_mem _ h)
    obtain ⟨hresponse, hanswers, hasks⟩ := perform_transparent registry hsteady a ha x m hm s
    obtain ⟨hresponses, hrestasks⟩ :=
      ih hrest _ _ hanswers (((uncached registry).perform a).run s).2
    rw [run_cons, run_cons, runAsks_cons, runAsks_cons]
    refine ⟨?_, hasks.append hrestasks⟩
    rw [hresponse]
    exact congrArg _ hresponses

/-- On an empty store, every run of prepared queries has the responses that it has without a store,
and asks no question that it does not ask without one, in the same order. -/
theorem run_transparent (g : Geocoder π σ) (store : Store σ) (hstore : g.store = some store)
    (x : π) (y : σ) (hfresh : store.Fresh y) (hids : g.registry.PlainIds)
    (hsteady : g.registry.Steady) (actions : List Action) (hactions : PreparedRun actions) :
    ((g.run actions).run (x, y)).1 = ((run { g with store := none } actions).run (x, y)).1 ∧
      (g.runAsks actions (x, y)).Sublist (runAsks { g with store := none } actions (x, y)) := by
  obtain ⟨registry, _⟩ := g
  subst hstore
  obtain ⟨Rep, halike, hrep⟩ := hfresh.alike
  obtain ⟨responses, x', y', m, hy, hm, -⟩ :=
    run_alike registry halike hids actions x y Memory.empty hrep
  have hmemory := memory_transparent registry hsteady actions hactions x Memory.empty
    (answers_empty registry) (x, y)
  have hasks := runAsks_alike registry halike hids actions x y Memory.empty hrep
  rw [hm, ← hasks] at hmemory
  rw [hy]
  exact hmemory

/-- The one place, looked up by its name and by its point with a clearing in between. -/
theorem run_transparent_gotham :
    let g : Geocoder Unit Memory := ⟨Sample.registry, some Memory.store⟩
    let now : Instant := ⟨2024, 1, 1, 0, 0, 0, 0, by decide⟩
    let named : Request := ⟨.text "gotham city", ["test_provider", "test_provider"]⟩
    let located : Request := ⟨.point Sample.gotham.coordinates, ["test_provider"]⟩
    let actions : List Action :=
      [.lookup now named, .lookup now named, .clear, .lookup now located, .lookup now named]
    g.store = some Memory.store ∧ Memory.store.Fresh Memory.empty ∧ g.registry.PlainIds ∧
    g.registry.Steady ∧ PreparedRun actions ∧
    ((g.run actions).run ((), Memory.empty)).1 =
      ((run { g with store := none } actions).run ((), Memory.empty)).1 ∧
    (g.runAsks actions ((), Memory.empty)).Sublist
      (runAsks { g with store := none } actions ((), Memory.empty)) := by
  intro g now named located actions
  have hids : g.registry.PlainIds := by
    intro id p hfind
    rw [(Sample.find?_registry hfind).1]
    decide
  have hreread : [Sample.gotham].mapM Address.reread? = some [Sample.gotham] := by decide +kernel
  have hsteady : g.registry.Steady := by
    intro id p hfind
    obtain ⟨-, rfl⟩ := Sample.find?_registry hfind
    refine ⟨fun q x x' => rfl, fun q x as now e hanswer he => ?_⟩
    have hlist := CacheEntry.reread?_of_ofText? he
    rcases Sample.answer_cases q x with h | h
    · rw [← Except.ok.inj (h.symm.trans hanswer)] at hlist ⊢
      exact (Option.some.inj hlist).symm
    · rw [← Except.ok.inj (h.symm.trans hanswer)] at hlist ⊢
      exact (Option.some.inj (hreread.symm.trans hlist)).symm
  have hprepared : PreparedRun actions := by
    intro now' r hr
    have hquery : r.query = named.query ∨ r.query = located.query := by
      simp only [actions, List.mem_cons, Action.lookup.injEq, reduceCtorEq, List.not_mem_nil,
        false_or, or_false] at hr
      rcases hr with ⟨-, rfl⟩ | ⟨-, rfl⟩ | ⟨-, rfl⟩ | ⟨-, rfl⟩ <;> simp
    rcases hquery with h | h
    · rw [h]
      have htrim : Text.trim " gotham city " = "gotham city" := by decide +kernel
      refine ⟨.text " gotham city ", .geocode, ?_⟩
      rw [FieldValue.query, htrim]
    · rw [h]
      exact ⟨.geofield ⟨"POINT(40 20)", Sample.gotham.coordinates⟩, .reverse, rfl⟩
  exact ⟨rfl, .memory, hids, hsteady, hprepared,
    run_transparent g Memory.store rfl () Memory.empty .memory hids hsteady actions hprepared⟩

end Geocoder

end Gazetteer
