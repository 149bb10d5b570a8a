import Gazetteer.Proofs.Cache.Refinement
import Gazetteer.Proofs.Lookup.Record

/-!
# Runs of a geocoder

A run is a list of lookups and of clearings of the store, one after the other.  What providers are
asked during a run is written down as it is for one lookup.

Geocoders are alike if a lookup cannot tell their stores apart: from related states, what is kept
looks the same, and the states stay related.  Then every run of them gives the same responses, asks
the same questions, and leaves related states.  So it is with two stores whose operations are alike.
The cache file is so related to memory, so that what is true of runs with a memory is true of runs
with a cache file.

    g.after (early ++ late) s = g.after late (g.after early s)                    (after_append)
    g.runAsks (a :: rest) s = g.actionAsks a s ++ g.runAsks rest (g.after [a] s)  (runAsks_cons)
    g.Alike g' Rep → the runs of g and g' are alike                                (Alike.run)
    st.Alike st' Rep → the geocoders with these stores are alike             (alike_of_stores)
-/

namespace Gazetteer

/-- What is done with a geocoder. -/
inductive Action where
  | lookup (now : Instant) (r : Request)
  | clear
deriving DecidableEq, Repr

/-- What comes of an action. -/
inductive Response where
  | found (result : Except Error (List Address))
  | cleared (result : Except StoreFault Unit)

variable {π σ τ : Type}

/-- No registered id has a bar in it. -/
def Registry.PlainIds (r : Registry π) : Prop := ∀ id p, r.find? id = some p → '|' ∉ id.toList

namespace Geocoder

def perform (g : Geocoder π σ) : Action → LookupM π σ Response
  | .lookup now r => return .found (← (g.lookup now r).run)
  | .clear => return .cleared (← g.clear)

/-- The responses to actions one after the other. -/
def run (g : Geocoder π σ) : List Action → LookupM π σ (List Response)
  | [] => return []
  | a :: rest => do
    let response ← g.perform a
    return response :: (← g.run rest)

/-- The state after a run. -/
def after (g : Geocoder π σ) (actions : List Action) (s : π × σ) : π × σ :=
  ((g.run actions).run s).2

/-- What the providers are asked by a run, in order. -/
def runAsks (g : Geocoder π σ) (actions : List Action) (s : π × σ) : List Ask :=
  ((g.recorded.run actions).run ((s.1, []), (s.2, []))).2.1.2

/-- What the providers are asked by an action. -/
def actionAsks (g : Geocoder π σ) : Action → π × σ → List Ask
  | .lookup now r, s => g.asks now r s
  | .clear, _ => []

/-! ## One action after the other -/

theorem run_nil (g : Geocoder π σ) (s : π × σ) : (g.run []).run s = ([], s) := rfl

theorem run_cons (g : Geocoder π σ) (a : Action) (rest : List Action) (s : π × σ) :
    (g.run (a :: rest)).run s =
      (((g.perform a).run s).1 :: ((g.run rest).run ((g.perform a).run s).2).1,
        ((g.run rest).run ((g.perform a).run s).2).2) := rfl

theorem after_cons (g : Geocoder π σ) (a : Action) (rest : List Action) (s : π × σ) :
    g.after (a :: rest) s = g.after rest ((g.perform a).run s).2 := rfl

theorem after_append (g : Geocoder π σ) (early late : List Action) (s : π × σ) :
    g.after (early ++ late) s = g.after late (g.after early s) := by
  induction early generalizing s with
  | nil => rfl
  | cons a rest ih => rw [List.cons_append, after_cons, after_cons, ih]

theorem recorded_perform (g : Geocoder π σ) (a : Action) (x : π) (asks : List Ask) (y : σ)
    (calls : List StoreCall) :
    ∃ calls', (g.recorded.perform a).run ((x, asks), (y, calls)) =
      (((g.perform a).run (x, y)).1, ((((g.perform a).run (x, y)).2.1,
        asks ++ g.actionAsks a (x, y)), (((g.perform a).run (x, y)).2.2, calls'))) := by
  cases a with
  | lookup now r =>
    refine ⟨calls ++ g.calls now r (x, y), ?_⟩
    have h := recorded_lookup g now r x asks y calls
    simp only [perform, LookupM.run_bind, LookupM.run_pure, actionAsks, asks_eq, calls_eq]
    rw [h]
    rfl
  | clear =>
    obtain ⟨registry, store⟩ := g
    cases store with
    | none => exact ⟨calls, by simp [perform, clear, recorded, actionAsks,
        LookupM.run_pure, -StateT.run_pure, -StateT.run_bind]⟩
    | some store =>
      refine ⟨calls ++ [.clear], ?_⟩
      rw [actionAsks, List.append_nil]
      rfl

theorem recorded_run (g : Geocoder π σ) (actions : List Action) (x : π) (asks : List Ask) (y : σ)
    (calls : List StoreCall) :
    ((g.recorded.run actions).run ((x, asks), (y, calls))).2.1.2 =
      asks ++ g.runAsks actions (x, y) := by
  induction actions generalizing x asks y calls with
  | nil => simp [runAsks, run_nil]
  | cons a rest ih =>
    have hask : ∀ asks calls, ((g.recorded.run (a :: rest)).run ((x, asks), (y, calls))).2.1.2 =
        asks ++ (g.actionAsks a (x, y) ++ g.runAsks rest ((g.perform a).run (x, y)).2) := by
      intro asks calls
      obtain ⟨calls', h⟩ := recorded_perform g a x asks y calls
      rw [run_cons, h]
      simp only [ih, List.append_assoc]
    have hfresh := hask [] []
    rw [List.nil_append] at hfresh
    rw [hask asks calls, ← hfresh]
    rfl

theorem runAsks_cons (g : Geocoder π σ) (a : Action) (rest : List Action) (s : π × σ) :
    g.runAsks (a :: rest) s =
      g.actionAsks a s ++ g.runAsks rest ((g.perform a).run s).2 := by
  obtain ⟨calls', h⟩ := recorded_perform g a s.1 [] s.2 []
  rw [runAsks, run_cons, h]
  simp only [recorded_run]
  rfl

end Geocoder

/-! ## Alike stores -/

/-- From related states, both steps give the same result and go on to related states. -/
def StepsAlike {α : Type} (Rep : σ → τ → Prop) (step : StateM σ α) (step' : StateM τ α) : Prop :=
  ∀ y z, Rep y z → ∃ a y' z', step.run y = (a, y') ∧ step'.run z = (a, z') ∧ Rep y' z'

/-- The operations of two stores are alike, as long as the keys are plain. -/
structure Store.Alike (store : Store σ) (store' : Store τ) (Rep : σ → τ → Prop) : Prop where
  get : ∀ key, key.Plain → StepsAlike Rep (store.get key).run (store'.get key).run
  set : ∀ key text, key.Plain →
    StepsAlike Rep (store.set key text).run (store'.set key text).run
  clear : StepsAlike Rep store.clear.run store'.clear.run

/-- The cache file is alike to memory. -/
theorem Disk.store_alike : Disk.store.Alike Memory.store Disk.Mirrors where
  get key hkey d m h := by
    obtain ⟨d', hrun, h'⟩ := get_mirrors h key hkey
    exact ⟨_, d', m, hrun, rfl, h'⟩
  set key text hkey d m h := by
    obtain ⟨d', hrun, h'⟩ := set_mirrors h key hkey text
    exact ⟨_, d', m.insert key text, hrun, rfl, h'⟩
  clear d m h := by
    obtain ⟨d', hrun, h'⟩ := clear_mirrors h
    exact ⟨_, d', Memory.empty, hrun, rfl, h'⟩

/-- Steps are alike to themselves. -/
theorem StepsAlike.refl {α : Type} (step : StateM σ α) : StepsAlike (· = ·) step step := by
  rintro y _ rfl
  exact ⟨_, _, _, rfl, rfl, rfl⟩

theorem Store.alike_refl (store : Store σ) : store.Alike store (· = ·) where
  get key _ := .refl (store.get key).run
  set key text _ := .refl (store.set key text).run
  clear := .refl store.clear.run

/-- An empty store: a memory, or a cache file that can be written. -/
inductive Store.Fresh : {σ : Type} → Store σ → σ → Prop
  | memory : Fresh Memory.store Memory.empty
  | disk {d : Disk} (h : d.Holds Table.empty) : Fresh Disk.store d

theorem Store.Fresh.alike {store : Store σ} {y : σ} (h : store.Fresh y) :
    ∃ Rep : σ → Memory → Prop, store.Alike Memory.store Rep ∧ Rep y Memory.empty := by
  cases h with
  | memory => exact ⟨_, Memory.store.alike_refl, rfl⟩
  | disk h => exact ⟨_, Disk.store_alike, Disk.mirrors_empty h⟩

/-! ## Alike geocoders -/

/-- Two steps give the same result from related states, and leave related ones. -/
def LookupM.Alike {α : Type} (Rep : σ → τ → Prop) (m : LookupM π σ α) (m' : LookupM π τ α) : Prop :=
  ∀ x y z, Rep y z → ∃ a x' y' z', m.run (x, y) = (a, (x', y')) ∧ m'.run (x, z) = (a, (x', z')) ∧
    Rep y' z'

section Alike

variable {α β : Type} {Rep : σ → τ → Prop}

theorem LookupM.Alike.pure (a : α) :
    LookupM.Alike Rep (Pure.pure a : LookupM π σ α) (Pure.pure a) :=
  fun x y z h => ⟨a, x, y, z, rfl, rfl, h⟩

theorem LookupM.Alike.bind {m : LookupM π σ α} {m' : LookupM π τ α} {f : α → LookupM π σ β}
    {f' : α → LookupM π τ β} (h : LookupM.Alike Rep m m')
    (hf : ∀ a, LookupM.Alike Rep (f a) (f' a)) : LookupM.Alike Rep (m >>= f) (m' >>= f') := by
  intro x y z hrep
  obtain ⟨a, x1, y1, z1, hm, hm', hrep1⟩ := h x y z hrep
  rw [LookupM.run_bind, LookupM.run_bind, hm, hm']
  exact hf a x1 y1 z1 hrep1

namespace Geocoder

theorem onProviders_alike (step : StateM π α) :
    LookupM.Alike Rep (onProviders step : LookupM π σ α) (onProviders step) :=
  fun x y z h => ⟨(step.run x).1, (step.run x).2, y, z, rfl, rfl, h⟩

theorem onStore_run (step : StateM σ α) (x : π) (y : σ) :
    (onStore step).run (x, y) = ((step.run y).1, (x, (step.run y).2)) := rfl

theorem onStore_alike {step : StateM σ α} {step' : StateM τ α} (h : StepsAlike Rep step step') :
    LookupM.Alike Rep (onStore step : LookupM π σ α) (onStore step') := by
  intro x y z hrep
  obtain ⟨a, y', z', hy, hz, hrep'⟩ := h y z hrep
  refine ⟨a, x, y', z', ?_, ?_, hrep'⟩
  · rw [onStore_run, hy]
  · rw [onStore_run, hz]

/-- Two geocoders with the same providers, whose stores a lookup cannot tell apart. -/
structure Alike (g : Geocoder π σ) (g' : Geocoder π τ) (Rep : σ → τ → Prop) : Prop where
  registry : g'.registry = g.registry
  kept? : ∀ (q : Query) (p : Provider π), g.registry.find? p.id = some p →
    LookupM.Alike Rep (g.kept? ⟨q.signature, p.id⟩) (g'.kept? ⟨q.signature, p.id⟩)
  keep : ∀ (now : Instant) (q : Query) (p : Provider π) (as : List Address),
    g.registry.find? p.id = some p →
    LookupM.Alike Rep (g.keep now ⟨q.signature, p.id⟩ as) (g'.keep now ⟨q.signature, p.id⟩ as)

namespace Alike

variable {g : Geocoder π σ} {g' : Geocoder π τ}

theorem resolved (h : g.Alike g' Rep) (r : Request) : g'.resolved r = g.resolved r := by
  simp only [Geocoder.resolved, providers, h.registry]

theorem firstAnswer (h : g.Alike g' Rep) (now : Instant) (q : Query) (ps : List (Provider π))
    (hps : ∀ p ∈ ps, g.registry.find? p.id = some p) :
    LookupM.Alike Rep (g.firstAnswer now q ps) (g'.firstAnswer now q ps) := by
  induction ps with
  | nil => exact .pure _
  | cons p rest ih =>
    have hp := hps p (by simp)
    have hrest := ih fun p hp => hps p (by simp [hp])
    apply LookupM.Alike.bind (h.kept? q p hp)
    intro kept
    cases kept with
    | some addresses => exact .pure _
    | none =>
      apply LookupM.Alike.bind (onProviders_alike (p.ask q).run)
      intro answer
      cases answer with
      | error e => exact hrest
      | ok addresses =>
        cases addresses with
        | nil => exact hrest
        | cons first others =>
          apply LookupM.Alike.bind (h.keep now q p _ hp)
          intro _
          exact .pure _

theorem lookup (h : g.Alike g' Rep) (now : Instant) (r : Request) :
    LookupM.Alike Rep (g.lookup now r).run (g'.lookup now r).run := by
  intro x y z hrep
  rw [lookup_run, lookup_run, h.resolved]
  cases hps : g.resolved r with
  | error e => exact ⟨_, x, y, z, rfl, rfl, hrep⟩
  | ok ps =>
    have hfind : ∀ p ∈ ps, g.registry.find? p.id = some p := fun p hp =>
      (registered_of_resolved g r ps hps p hp).1
    obtain ⟨found, x', y', z', hy, hz, hrep'⟩ := h.firstAnswer now r.query ps hfind x y z hrep
    refine ⟨.ok found, x', y', z', ?_, ?_, hrep'⟩
    · dsimp only
      rw [hy]
    · dsimp only
      rw [hz]

theorem turn (h : g.Alike g' Rep) (q : Query) (p : Provider π)
    (hp : g.registry.find? p.id = some p) : LookupM.Alike Rep (g.turn q p) (g'.turn q p) := by
  apply LookupM.Alike.bind (h.kept? q p hp)
  intro kept
  cases kept with
  | some addresses => exact .pure _
  | none =>
    apply LookupM.Alike.bind (onProviders_alike (p.ask q).run)
    intro answer
    exact .pure _

/-- The same turns come. -/
theorem turns (h : g.Alike g' Rep) (q : Query) (ps : List (Provider π))
    (hps : ∀ p ∈ ps, g.registry.find? p.id = some p) (x : π) (y : σ) (z : τ) (hrep : Rep y z) :
    g.turns q ps (x, y) = g'.turns q ps (x, z) := by
  induction ps generalizing x y z with
  | nil => rfl
  | cons p rest ih =>
    obtain ⟨t, x', y', z', hy, hz, hrep'⟩ := h.turn q p (hps p (by simp)) x y z hrep
    rw [turns_cons, turns_cons, hy, hz, ih (fun p hp => hps p (by simp [hp])) x' y' z' hrep']

theorem turnsOf (h : g.Alike g' Rep) (r : Request) (x : π) (y : σ) (z : τ) (hrep : Rep y z) :
    g.turnsOf r (x, y) = g'.turnsOf r (x, z) := by
  rw [Geocoder.turnsOf, Geocoder.turnsOf, h.resolved]
  cases hps : g.resolved r with
  | error e => rfl
  | ok ps =>
    exact h.turns r.query ps (fun p hp => (registered_of_resolved g r ps hps p hp).1) x y z hrep

theorem asks (h : g.Alike g' Rep) (now : Instant) (r : Request) (x : π) (y : σ) (z : τ)
    (hrep : Rep y z) : g.asks now r (x, y) = g'.asks now r (x, z) := by
  rw [asks_eq, asks_eq, h.turnsOf r x y z hrep]

section Runs

variable {actions : List Action}

theorem perform (h : g.Alike g' Rep) {a : Action}
    (hclear : a = .clear → LookupM.Alike Rep g.clear g'.clear) :
    LookupM.Alike Rep (g.perform a) (g'.perform a) := by
  cases a with
  | clear =>
    apply LookupM.Alike.bind (hclear rfl)
    intro result
    exact .pure _
  | lookup now r =>
    apply LookupM.Alike.bind (h.lookup now r)
    intro result
    exact .pure _

/-- Runs of alike geocoders are alike, if clearing is. -/
theorem run (h : g.Alike g' Rep)
    (hclear : Action.clear ∈ actions → LookupM.Alike Rep g.clear g'.clear) :
    LookupM.Alike Rep (g.run actions) (g'.run actions) := by
  induction actions with
  | nil => exact .pure _
  | cons a rest ih =>
    apply LookupM.Alike.bind (h.perform fun ha => hclear (by simp [ha]))
    intro response
    apply LookupM.Alike.bind (ih fun hrest => hclear (by simp [hrest]))
    intro responses
    exact .pure _

theorem after (h : g.Alike g' Rep)
    (hclear : Action.clear ∈ actions → LookupM.Alike Rep g.clear g'.clear) (x : π) (y : σ) (z : τ)
    (hrep : Rep y z) :
    (g.after actions (x, y)).1 = (g'.after actions (x, z)).1 ∧
      Rep (g.after actions (x, y)).2 (g'.after actions (x, z)).2 := by
  obtain ⟨_, x', y', z', hy, hz, hrep'⟩ := h.run hclear x y z hrep
  rw [Geocoder.after, Geocoder.after, hy, hz]
  exact ⟨rfl, hrep'⟩

theorem runAsks (h : g.Alike g' Rep)
    (hclear : Action.clear ∈ actions → LookupM.Alike Rep g.clear g'.clear) (x : π) (y : σ) (z : τ)
    (hrep : Rep y z) : g.runAsks actions (x, y) = g'.runAsks actions (x, z) := by
  induction actions generalizing x y z with
  | nil => rfl
  | cons a rest ih =>
    obtain ⟨_, x', y', z', hy, hz, hrep'⟩ :=
      h.perform (a := a) (fun ha => hclear (by simp [ha])) x y z hrep
    have haction : g.actionAsks a (x, y) = g'.actionAsks a (x, z) := by
      cases a with
      | lookup now r => exact h.asks now r x y z hrep
      | clear => rfl
    rw [runAsks_cons, runAsks_cons, haction, hy, hz,
      ih (fun hrest => hclear (by simp [hrest])) x' y' z' hrep']

end Runs

end Alike

/-! ## Geocoders on alike stores -/

section Stores

variable {store : Store σ} {store' : Store τ} (registry : Registry π)

theorem kept?_alike {key : CacheKey}
    (h : StepsAlike Rep (store.get key).run (store'.get key).run) :
    LookupM.Alike Rep (kept? ⟨registry, some store⟩ key) (kept? ⟨registry, some store'⟩ key) := by
  apply LookupM.Alike.bind (onStore_alike h)
  intro result
  cases result with
  | ok text => exact .pure _
  | error e => exact .pure _

/-- Whether a store takes what it is given to keep does not show. -/
theorem keep_alike {now : Instant} {key : CacheKey} {addresses : List Address}
    (h : ∀ y z, Rep y z →
      Rep ((store.set key (CacheEntry.mk now addresses).text).run.run y).2
        ((store'.set key (CacheEntry.mk now addresses).text).run.run z).2) :
    LookupM.Alike Rep (keep ⟨registry, some store⟩ now key addresses)
      (keep ⟨registry, some store'⟩ now key addresses) :=
  fun x y z hrep => ⟨(), x, _, _, rfl, rfl, h y z hrep⟩

theorem alike_of_stores (h : store.Alike store' Rep) (hids : registry.PlainIds) :
    Alike ⟨registry, some store⟩ ⟨registry, some store'⟩ Rep where
  registry := rfl
  kept? q p hp := kept?_alike registry (h.get ⟨q.signature, p.id⟩ (hids p.id p hp))
  keep now q p as hp := by
    apply keep_alike
    intro y z hrep
    obtain ⟨_, y', z', hy, hz, hrep'⟩ :=
      h.set ⟨q.signature, p.id⟩ (CacheEntry.mk now as).text (hids p.id p hp) y z hrep
    rw [hy, hz]
    exact hrep'

/-- Runs on alike stores are alike. -/
theorem run_alike (h : store.Alike store' Rep) (hids : registry.PlainIds) (actions : List Action) :
    LookupM.Alike Rep (run ⟨registry, some store⟩ actions)
      (run ⟨registry, some store'⟩ actions) :=
  (alike_of_stores registry h hids).run fun _ => onStore_alike h.clear

theorem after_alike (h : store.Alike store' Rep) (hids : registry.PlainIds)
    (actions : List Action) (x : π) (y : σ) (z : τ) (hrep : Rep y z) :
    (after ⟨registry, some store⟩ actions (x, y)).1 =
        (after ⟨registry, some store'⟩ actions (x, z)).1 ∧
      Rep (after ⟨registry, some store⟩ actions (x, y)).2
        (after ⟨registry, some store'⟩ actions (x, z)).2 :=
  (alike_of_stores registry h hids).after (fun _ => onStore_alike h.clear) x y z hrep

theorem turnsOf_alike (h : store.Alike store' Rep) (hids : registry.PlainIds) (r : Request)
    (x : π) (y : σ) (z : τ) (hrep : Rep y z) :
    turnsOf ⟨registry, some store⟩ r (x, y) = turnsOf ⟨registry, some store'⟩ r (x, z) :=
  (alike_of_stores registry h hids).turnsOf r x y z hrep

theorem asks_alike (h : store.Alike store' Rep) (hids : registry.PlainIds) (now : Instant)
    (r : Request) (x : π) (y : σ) (z : τ) (hrep : Rep y z) :
    asks ⟨registry, some store⟩ now r (x, y) = asks ⟨registry, some store'⟩ now r (x, z) :=
  (alike_of_stores registry h hids).asks now r x y z hrep

theorem runAsks_alike (h : store.Alike store' Rep) (hids : registry.PlainIds)
    (actions : List Action) (x : π) (y : σ) (z : τ) (hrep : Rep y z) :
    runAsks ⟨registry, some store⟩ actions (x, y) =
      runAsks ⟨registry, some store'⟩ actions (x, z) :=
  (alike_of_stores registry h hids).runAsks (fun _ => onStore_alike h.clear) x y z hrep

end Stores

end Geocoder

end Alike

namespace Geocoder

/-! ## Memory -/

/-- A geocoder that keeps answers in memory. -/
abbrev inMemory (registry : Registry π) : Geocoder π Memory := ⟨registry, some Memory.store⟩

theorem kept?_memory (registry : Registry π) (key : CacheKey) (x : π) (m : Memory) :
    ((inMemory registry).kept? key).run (x, m) =
      (((m.find? key).bind CacheEntry.ofText?).map (·.addresses), (x, m)) := rfl

theorem keep_memory (registry : Registry π) (now : Instant) (key : CacheKey) (as : List Address)
    (x : π) (m : Memory) :
    ((inMemory registry).keep now key as).run (x, m) =
      ((), (x, m.insert key (CacheEntry.mk now as).text)) := rfl

theorem turn_memory (registry : Registry π) (q : Query) (p : Provider π) (x : π) (m : Memory) :
    ((inMemory registry).turn q p).run (x, m) =
      match (m.find? ⟨q.signature, p.id⟩).bind CacheEntry.ofText? with
      | some e => (.kept e.addresses, (x, m))
      | none => (.asked ((p.ask q).run x).1, (((p.ask q).run x).2, m)) := by
  rw [turn, LookupM.run_bind, kept?_memory]
  cases (m.find? ⟨q.signature, p.id⟩).bind CacheEntry.ofText? with
  | some e => rfl
  | none => rfl

end Geocoder

end Gazetteer
