import Gazetteer.Proofs.Lookup.Run
import Gazetteer.Proofs.Provider.Sample

/-!
# What can fail

A lookup fails only for what the request says, before anything is done: if it names no provider, or
one that is not registered.  What providers and stores do cannot make it fail.

A store that never shows an entry is as good as none: its failures, and texts that are no entries,
are passed over, so every run has the responses that it has without a store, and asks the same
questions.  So it is with a cache file that holds no table, and such a file stays as it is.

    a request is refused for its list of providers only, without a trace        (lookup_refused)
    lookups with a blind store are alike to lookups without one              (Store.Blind.alike)
    runs with a blind store are runs without one                                     (run_blind)
-/

namespace Gazetteer

variable {π σ : Type}

/-! ## Requests that are refused -/

namespace Geocoder

/-- A list of ids is refused for the first that is not registered. -/
theorem providers_eq_error_iff (g : Geocoder π σ) (ids : List String) (e : Error) :
    g.providers ids = .error e ↔
      ∃ id, ids.find? (fun id => (g.registry.find? id).isNone) = some id ∧
        e = .unknownProvider id := by
  induction ids with
  | nil => simp [providers, pure, Except.pure]
  | cons id rest ih =>
    rw [providers_cons, List.find?_cons]
    cases g.registry.find? id with
    | none => simp [eq_comm]
    | some p =>
      simp only [Option.isNone_some]
      rw [← ih]
      cases g.providers rest <;> simp [Except.map]

theorem resolved_eq_error_iff (g : Geocoder π σ) (r : Request) (e : Error) :
    g.resolved r = .error e ↔ r.providers = [] ∧ e = .noProviders ∨
      ∃ id, r.providers.find? (fun id => (g.registry.find? id).isNone) = some id ∧
        e = .unknownProvider id := by
  unfold resolved
  rw [← providers_eq_error_iff]
  cases hids : r.providers with
  | nil => simp [providers, pure, Except.pure, eq_comm]
  | cons id rest => simp

/-- A lookup fails exactly if its request names no provider or one that is not registered; then it
names the first of these, asks no provider, does not touch the store, and changes nothing. -/
theorem lookup_refused (g : Geocoder π σ) (now : Instant) (r : Request) (s : π × σ) :
    (∀ e, ((g.lookup now r).run.run s).1 = .error e ↔ r.providers = [] ∧ e = .noProviders ∨
      ∃ id, r.providers.find? (fun id => (g.registry.find? id).isNone) = some id ∧
        e = .unknownProvider id) ∧
    ∀ e, ((g.lookup now r).run.run s).1 = .error e →
      ((g.lookup now r).run.run s).2 = s ∧ g.asks now r s = [] ∧ g.calls now r s = [] := by
  have hrefused : ∀ e, ((g.lookup now r).run.run s).1 = .error e ↔ g.resolved r = .error e := by
    intro e
    rw [lookup_run]
    cases g.resolved r with
    | error e' => simp
    | ok ps =>
      constructor
      · intro h
        cases h
      · intro h
        cases h
  constructor
  · intro e
    rw [hrefused, resolved_eq_error_iff]
  · intro e he
    have hresolved := (hrefused e).mp he
    rw [lookup_run, asks_eq, calls_eq, turnsOf, hresolved]
    exact ⟨rfl, rfl, g.callsOf_nil now r.query⟩

/-- A request for a provider that is there and two that are not. -/
theorem lookup_refused_nobody :
    let g : Geocoder Unit Memory := ⟨Sample.registry, some Memory.store⟩
    let now : Instant := ⟨2024, 1, 1, 0, 0, 0, 0, by decide⟩
    let r : Request := ⟨.text "gotham city", ["test_provider", "nobody", "no one"]⟩
    let s := ((), Memory.empty)
    ((g.lookup now r).run.run s).1 = .error (.unknownProvider "nobody") ∧
      ((g.lookup now r).run.run s).2 = s ∧ g.asks now r s = [] ∧ g.calls now r s = [] := by
  intro g now r s
  obtain ⟨hiff, htrace⟩ := lookup_refused g now r s
  have hfirst : r.providers.find? (fun id => (g.registry.find? id).isNone) = some "nobody" := by
    decide
  have herror := (hiff (.unknownProvider "nobody")).mpr (.inr ⟨"nobody", hfirst, rfl⟩)
  exact ⟨herror, htrace _ herror⟩

end Geocoder

/-! ## Stores that never show an entry -/

/-- What a store shows is no entry: a fault, nothing, or another text. -/
def NoEntry : Except StoreFault (Option String) → Prop
  | .ok (some text) => CacheEntry.ofText? text = none
  | _ => True

/-- In the states that satisfy `P`, the store never shows an entry, and stays in such states.  It may
take entries or refuse them. -/
structure Store.Blind (store : Store σ) (P : σ → Prop) : Prop where
  get : ∀ key y, P y → NoEntry ((store.get key).run.run y).1 ∧ P ((store.get key).run.run y).2
  set : ∀ key text y, P y → P ((store.set key text).run.run y).2

/-- With such a store, a lookup is what it is without one. -/
theorem Store.Blind.alike {store : Store σ} {P : σ → Prop} (h : store.Blind P)
    (registry : Registry π) :
    Geocoder.Alike (⟨registry, some store⟩ : Geocoder π σ) (⟨registry, none⟩ : Geocoder π σ)
      (fun y _ => P y) where
  registry := rfl
  kept? q p _ := by
    intro x y z hy
    obtain ⟨hentry, hy'⟩ := h.get ⟨q.signature, p.id⟩ y hy
    refine ⟨none, x, _, z, ?_, rfl, hy'⟩
    simp only [Geocoder.kept?, LookupM.run_bind, Geocoder.onStore_run]
    cases hget : ((store.get ⟨q.signature, p.id⟩).run.run y).1 with
    | error fault => rfl
    | ok value =>
      rw [hget] at hentry
      cases value with
      | none => rfl
      | some text =>
        have htext : CacheEntry.ofText? text = none := hentry
        simp only [Option.bind_some, htext]
        rfl
  keep now q p as _ := fun x y z hy => ⟨(), x, _, z, rfl, rfl, h.set _ _ y hy⟩

/-- A fresh handle on a file that holds no table stays as it is, and so does the file. -/
theorem Disk.blind_opened {slot : FileSlot} {problem : FileProblem}
    (h : Disk.tableOf slot = .error problem) : Disk.store.Blind (· = Disk.opened slot) := by
  have hheld : (Disk.opened slot).held = .error (.of .cache slot problem) := by
    simp [Disk.held, Disk.opened, h, Except.mapError]
  constructor
  · rintro key _ rfl
    have hget : (Disk.find? key).run.run (Disk.opened slot) = (.error _, Disk.opened slot) :=
      run_bind_error _ (Disk.run_load_error hheld)
    have hlifted := Disk.run_lifted_error hget
    exact ⟨by rw [Disk.store, hlifted]; trivial, congrArg (·.2) hlifted⟩
  · rintro key text _ rfl
    have hset : (Disk.insert key text).run.run (Disk.opened slot) = (.error _, Disk.opened slot) :=
      run_bind_error _ (Disk.run_stage_error hheld key text)
    exact congrArg (·.2) (Disk.run_lifted_error hset)

/-! ## Runs -/

namespace Geocoder

/-- The store makes no difference to a run: without it, the responses and the questions are the
same. -/
structure Unused (g : Geocoder π σ) (actions : List Action) (s : π × σ) : Prop where
  responses : ((g.run actions).run s).1 = ((run { g with store := none } actions).run s).1
  asks : g.runAsks actions s = runAsks { g with store := none } actions s

theorem unused_of_blind {store : Store σ} {P : σ → Prop} (h : store.Blind P)
    (registry : Registry π) {actions : List Action} (hlookups : Action.clear ∉ actions) (x : π)
    {y : σ} (hy : P y) :
    Unused ⟨registry, some store⟩ actions (x, y) ∧
      P (after ⟨registry, some store⟩ actions (x, y)).2 := by
  have halike := h.alike registry
  obtain ⟨responses, x', y', z', hrun, hrun', -⟩ := halike.run (absurd · hlookups) x y y hy
  have hasks := halike.runAsks (absurd · hlookups) x y y hy
  have hafter := halike.after (absurd · hlookups) x y y hy
  refine ⟨⟨?_, hasks⟩, hafter.2⟩
  rw [hrun, hrun']

/-- Lookups one after the other, with a store that never shows an entry, have the responses and the
questions that they have without a store.  In particular it is so with a fresh handle on a file with
a text that is no object of texts, and this file is still the same after them. -/
theorem run_blind (registry : Registry π) (actions : List Action)
    (hlookups : Action.clear ∉ actions) (x : π) :
    (∀ {σ : Type} (store : Store σ) (P : σ → Prop) (y : σ), store.Blind P → P y →
      Unused ⟨registry, some store⟩ actions (x, y)) ∧
    ∀ (slot : FileSlot) (text : String), slot.read = .ok text → ¬ Json.HoldsTexts text →
      Unused ⟨registry, some Disk.store⟩ actions (x, Disk.opened slot) ∧
        (after ⟨registry, some Disk.store⟩ actions (x, Disk.opened slot)).2.slot = slot := by
  constructor
  · intro σ store P y hblind hy
    exact (unused_of_blind hblind registry hlookups x hy).1
  · intro slot text hread htext
    have hblind := Disk.blind_opened (Disk.tableOf_not_texts hread htext)
    obtain ⟨hunused, hafter⟩ := unused_of_blind hblind registry hlookups x rfl
    exact ⟨hunused, congrArg Disk.slot hafter⟩

/-- A store that always fails, and a cache file with a number among its members. -/
theorem run_blind_gotham :
    let fault : StoreFault := .refused "fault"
    let store : Store Unit := ⟨fun _ => throw fault, fun _ _ => throw fault, throw fault, throw fault⟩
    let now : Instant := ⟨2024, 1, 1, 0, 0, 0, 0, by decide⟩
    let r : Request := ⟨.text "gotham city", ["test_provider", "nobody"]⟩
    let actions : List Action := [.lookup now r, .lookup now ⟨r.query, ["test_provider"]⟩]
    let text := "\x7b\"p|geocode:a\": \"1\", \"p|geocode:b\": 2\x7d"
    let slot : FileSlot := ⟨"cache/entries.json", "cache", .file text⟩
    .clear ∉ actions ∧ store.Blind (fun _ => True) ∧
      Unused ⟨Sample.registry, some store⟩ actions ((), ()) ∧
      slot.read = .ok text ∧ ¬ Json.HoldsTexts text ∧
      Unused ⟨Sample.registry, some Disk.store⟩ actions ((), Disk.opened slot) ∧
      (after ⟨Sample.registry, some Disk.store⟩ actions ((), Disk.opened slot)).2.slot = slot := by
  intro fault store now r actions text slot
  have hblind : store.Blind (fun _ => True) :=
    ⟨fun _ _ _ => ⟨trivial, trivial⟩, fun _ _ _ _ => trivial⟩
  have htext : ¬ Json.HoldsTexts text := by
    rw [← Json.texts?_eq_none_iff, ← Option.isNone_iff_eq_none]
    decide +kernel
  obtain ⟨hstore, hfile⟩ := run_blind Sample.registry actions (by decide) ()
  exact ⟨by decide, hblind, hstore store _ () hblind trivial, rfl, htext,
    hfile slot text rfl htext⟩

end Geocoder

end Gazetteer
