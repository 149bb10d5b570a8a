import Gazetteer.Geocoder

/-!
# Lookups on the record

A geocoder whose providers and store write down what they are asked, and otherwise work as before.
The record of a lookup is told in `Turn`s: each provider's turn consists of a look into the store
and, if nothing is kept there, a question to the provider.

    g.lookup now r s                     the result, and what becomes of the states
    g.asks now r s, g.calls now r s      what the providers and the store were asked
    g.turns q ps s                       the turns that came, up to the first that finds something

    g.asks now r s = (g.turns r.query ps s).flatMap asks                        (asks_eq)
    (g.recorded.lookup now r ((p, a), (t, c))).1 = (g.lookup now r (p, t)).1    (recorded_lookup)
-/

namespace Gazetteer

/-- A question to a provider, and what it gave. -/
structure Ask where
  provider : String
  query : Query
  answer : Except ProviderError (List Address)

/-- A call of a store. -/
inductive StoreCall where
  | get (key : CacheKey)
  | set (key : CacheKey) (text : String)
  | clear
  | size

namespace Table

variable {α β : Type}

/-- The same keys with other values. -/
def map (f : α → β) (t : Table α) : Table β where
  entries := t.entries.map fun e => (e.1, f e.2)
  ascending := List.pairwise_map.mpr t.ascending

theorem find?_map (f : α → β) (t : Table α) (key : String) :
    (t.map f).find? key = (t.find? key).map f := by
  obtain ⟨entries, h⟩ := t
  simp only [find?, map]
  clear h
  induction entries with
  | nil => rfl
  | cons e rest ih =>
    obtain ⟨k, v⟩ := e
    rw [List.map_cons, lookup_entry, lookup_entry, ih]
    split <;> rfl

theorem map_insert (f : α → β) (t : Table α) (key : String) (value : α) :
    (t.insert key value).map f = (t.map f).insert key (f value) := by
  obtain ⟨entries, h⟩ := t
  apply ext
  simp only [insert, map]
  clear h
  induction entries with
  | nil => rfl
  | cons e rest ih =>
    obtain ⟨k, v⟩ := e
    simp only [place, List.map_cons]
    split
    · rfl
    · split
      · rfl
      · rw [List.map_cons, ih]

end Table

variable {π σ : Type}

/-- Two steps are run one after the other. -/
theorem LookupM.run_bind {α β : Type} (m : LookupM π σ α) (f : α → LookupM π σ β) (s : π × σ) :
    (m >>= f).run s = (f (m.run s).1).run (m.run s).2 := rfl

theorem LookupM.run_pure {α : Type} (a : α) (s : π × σ) :
    (pure a : LookupM π σ α).run s = (a, s) := rfl

namespace Provider

/-- A step of a provider that is written down. -/
def noted (id : String) (q : Query) (step : ProviderM π (List Address)) :
    ProviderM (π × List Ask) (List Address) :=
  ExceptT.mk fun (x, asks) =>
    let (answer, x) := step.run x
    (answer, (x, asks ++ [⟨id, q, answer⟩]))

def recorded (p : Provider π) : Provider (π × List Ask) where
  id := p.id
  label := p.label
  geocode s := noted p.id (.text s) (p.geocode s)
  reverse c := noted p.id (.point c) (p.reverse c)

end Provider

/-- A registry has a provider under its own id only. -/
theorem Registry.id_of_find? (r : Registry π) {id : String} {p : Provider π}
    (h : r.find? id = some p) : p.id = id :=
  r.id_eq (id, p) ((Table.find?_eq_some_iff r.table).mp h)

def Registry.recorded (r : Registry π) : Registry (π × List Ask) where
  table := r.table.map Provider.recorded
  id_eq e h := by
    obtain ⟨e, he, rfl⟩ := List.mem_map.mp h
    exact r.id_eq e he

namespace Store

/-- A step of a store that is written down. -/
def noted {α : Type} (call : StoreCall) (step : StoreM σ α) : StoreM (σ × List StoreCall) α :=
  ExceptT.mk fun (s, calls) =>
    let (result, s) := step.run s
    (result, (s, calls ++ [call]))

def recorded (store : Store σ) : Store (σ × List StoreCall) where
  get key := noted (.get key) (store.get key)
  set key text := noted (.set key text) (store.set key text)
  clear := noted .clear store.clear
  size := noted .size store.size

end Store

namespace Geocoder

/-- The geocoder with its providers and its store on the record. -/
def recorded (g : Geocoder π σ) : Geocoder (π × List Ask) (σ × List StoreCall) where
  registry := g.registry.recorded
  store := g.store.map Store.recorded

/-- What the providers are asked by a lookup, in order. -/
def asks (g : Geocoder π σ) (now : Instant) (r : Request) (s : π × σ) : List Ask :=
  ((g.recorded.lookup now r).run ((s.1, []), (s.2, []))).2.1.2

/-- What the store is asked by a lookup, in order. -/
def calls (g : Geocoder π σ) (now : Instant) (r : Request) (s : π × σ) : List StoreCall :=
  ((g.recorded.lookup now r).run ((s.1, []), (s.2, []))).2.2.2

/-! ## Turns -/

/-- What comes of a provider's turn: what is kept of it, or else its answer. -/
inductive Turn where
  | kept (addresses : List Address)
  | asked (answer : Except ProviderError (List Address))

namespace Turn

/-- The addresses that a turn finds.  An entry counts whatever it holds, an answer if it is not
empty. -/
def found? : Turn → Option (List Address)
  | kept addresses => some addresses
  | asked (.ok (first :: others)) => some (first :: others)
  | asked _ => none

/-- The question that a turn of the provider `id` asks. -/
def asks (id : String) (q : Query) : Turn → List Ask
  | kept _ => []
  | asked answer => [⟨id, q, answer⟩]

/-- What a turn has the store keep. -/
def sets (now : Instant) (key : CacheKey) : Turn → List StoreCall
  | asked (.ok (first :: others)) => [.set key (CacheEntry.mk now (first :: others)).text]
  | _ => []

end Turn

/-- The turn of a provider, up to keeping its answer. -/
def turn (g : Geocoder π σ) (q : Query) (p : Provider π) : LookupM π σ Turn := do
  match ← g.kept? ⟨q.signature, p.id⟩ with
  | some addresses => return .kept addresses
  | none => return .asked (← onProviders (p.ask q).run)

/-- Keeps what a turn found, if it is an answer. -/
def settle (g : Geocoder π σ) (now : Instant) (q : Query) (p : Provider π) : Turn → LookupM π σ Unit
  | .asked (.ok (first :: others)) => g.keep now ⟨q.signature, p.id⟩ (first :: others)
  | _ => return

/-- The turns that come, up to the first that finds something. -/
def turns (g : Geocoder π σ) (q : Query) :
    List (Provider π) → π × σ → List (Provider π × Turn)
  | [], _ => []
  | p :: rest, s =>
    let (t, s) := (g.turn q p).run s
    (p, t) :: if t.found?.isSome then [] else g.turns q rest s

/-- What a turn calls of the store. -/
def Turn.calls (now : Instant) (key : CacheKey) (t : Turn) : List StoreCall :=
  .get key :: t.sets now key

/-- A lookup is its first provider's turn, and the rest of it if that found nothing. -/
theorem firstAnswer_cons (g : Geocoder π σ) (now : Instant) (q : Query) (p : Provider π)
    (rest : List (Provider π)) (s : π × σ) :
    (g.firstAnswer now q (p :: rest)).run s =
      match ((g.turn q p).run s).1.found? with
      | some addresses =>
        (addresses, ((g.settle now q p ((g.turn q p).run s).1).run ((g.turn q p).run s).2).2)
      | none => (g.firstAnswer now q rest).run ((g.turn q p).run s).2 := by
  simp only [firstAnswer, turn, LookupM.run_bind]
  generalize (g.kept? ⟨q.signature, p.id⟩).run s = kept
  obtain ⟨kept, s1⟩ := kept
  cases kept with
  | some addresses => rfl
  | none =>
    simp only [LookupM.run_bind]
    generalize (onProviders (p.ask q).run).run s1 = answer
    obtain ⟨answer, s2⟩ := answer
    cases answer with
    | error e => rfl
    | ok addresses => cases addresses <;> rfl

theorem turns_cons (g : Geocoder π σ) (q : Query) (p : Provider π) (rest : List (Provider π))
    (s : π × σ) :
    g.turns q (p :: rest) s =
      (p, ((g.turn q p).run s).1) ::
        if ((g.turn q p).run s).1.found?.isSome then []
        else g.turns q rest ((g.turn q p).run s).2 := rfl

/-! ## The record of a lookup -/

/-- The questions of turns. -/
def asksOf (q : Query) (turns : List (Provider π × Turn)) : List Ask :=
  turns.flatMap fun (p, t) => t.asks p.id q

/-- The store calls of turns; none without a store. -/
def callsOf (g : Geocoder π σ) (now : Instant) (q : Query) (turns : List (Provider π × Turn)) :
    List StoreCall :=
  if g.isCaching then turns.flatMap fun (p, t) => t.calls now ⟨q.signature, p.id⟩ else []

theorem recorded_kept? (g : Geocoder π σ) (key : CacheKey) (x : π) (asks : List Ask) (y : σ)
    (calls : List StoreCall) :
    (g.recorded.kept? key).run ((x, asks), (y, calls)) =
      let (kept, (x', y')) := (g.kept? key).run (x, y)
      (kept, ((x', asks), (y', calls ++ if g.isCaching then [.get key] else []))) := by
  obtain ⟨registry, store⟩ := g
  cases store with
  | none => simp [kept?, recorded, isCaching, LookupM.run_pure, -StateT.run_pure]
  | some store =>
    simp only [kept?, recorded, Option.map_some, LookupM.run_bind, isCaching]
    have h : (onStore (π := π × List Ask) (store.recorded.get key).run).run ((x, asks), (y, calls))
        = (((store.get key).run y).1,
            ((x, asks), (((store.get key).run y).2, calls ++ [.get key]))) := rfl
    have h' : (onStore (π := π) (store.get key).run).run (x, y)
        = (((store.get key).run y).1, (x, ((store.get key).run y).2)) := rfl
    rw [h, h']
    cases ((store.get key).run y).1 <;> rfl

theorem recorded_keep (g : Geocoder π σ) (now : Instant) (key : CacheKey)
    (addresses : List Address) (x : π) (asks : List Ask) (y : σ) (calls : List StoreCall) :
    (g.recorded.keep now key addresses).run ((x, asks), (y, calls)) =
      let (_, (x', y')) := (g.keep now key addresses).run (x, y)
      ((), ((x', asks), (y', calls ++
        if g.isCaching then [.set key (CacheEntry.mk now addresses).text] else []))) := by
  obtain ⟨registry, store⟩ := g
  cases store with
  | none => simp [keep, recorded, isCaching, LookupM.run_pure, -StateT.run_pure]
  | some store => rfl

theorem recorded_turn (g : Geocoder π σ) (q : Query) (p : Provider π) (x : π) (asks : List Ask)
    (y : σ) (calls : List StoreCall) :
    (g.recorded.turn q p.recorded).run ((x, asks), (y, calls)) =
      let (t, (x', y')) := (g.turn q p).run (x, y)
      (t, ((x', asks ++ t.asks p.id q),
        (y', calls ++ if g.isCaching then [.get ⟨q.signature, p.id⟩] else []))) := by
  have hid : p.recorded.id = p.id := rfl
  simp only [turn, LookupM.run_bind, hid, recorded_kept?]
  generalize (g.kept? ⟨q.signature, p.id⟩).run (x, y) = kept
  obtain ⟨kept, x1, y1⟩ := kept
  cases kept with
  | some addresses => simp [Turn.asks, LookupM.run_pure, -StateT.run_pure]
  | none =>
    have h : (onProviders (p.recorded.ask q).run).run ((x1, asks),
        (y1, calls ++ if g.isCaching then [StoreCall.get ⟨q.signature, p.id⟩] else []))
        = (((p.ask q).run x1).1, ((((p.ask q).run x1).2, asks ++ [⟨p.id, q, ((p.ask q).run x1).1⟩]),
          (y1, calls ++ if g.isCaching then [.get ⟨q.signature, p.id⟩] else []))) := by
      cases q <;> rfl
    simp only [LookupM.run_bind, h]
    rfl

theorem recorded_settle (g : Geocoder π σ) (now : Instant) (q : Query) (p : Provider π) (t : Turn)
    (x : π) (asks : List Ask) (y : σ) (calls : List StoreCall) :
    (g.recorded.settle now q p.recorded t).run ((x, asks), (y, calls)) =
      let (_, (x', y')) := (g.settle now q p t).run (x, y)
      ((), ((x', asks), (y', calls ++
        if g.isCaching then t.sets now ⟨q.signature, p.id⟩ else []))) := by
  cases t with
  | kept addresses => simp [settle, Turn.sets, LookupM.run_pure, -StateT.run_pure]
  | asked answer =>
    cases answer with
    | error e => simp [settle, Turn.sets, LookupM.run_pure, -StateT.run_pure]
    | ok addresses =>
      cases addresses with
      | nil => simp [settle, Turn.sets, LookupM.run_pure, -StateT.run_pure]
      | cons first others => exact recorded_keep g now ⟨q.signature, p.id⟩ _ x asks y calls

theorem asksOf_cons (q : Query) (p : Provider π) (t : Turn) (rest : List (Provider π × Turn)) :
    asksOf q ((p, t) :: rest) = t.asks p.id q ++ asksOf q rest := rfl

theorem callsOf_cons (g : Geocoder π σ) (now : Instant) (q : Query) (p : Provider π) (t : Turn)
    (rest : List (Provider π × Turn)) :
    g.callsOf now q ((p, t) :: rest) =
      (if g.isCaching then t.calls now ⟨q.signature, p.id⟩ else []) ++ g.callsOf now q rest := by
  unfold callsOf
  split <;> simp

theorem callsOf_nil (g : Geocoder π σ) (now : Instant) (q : Query) : g.callsOf now q [] = [] := by
  simp [callsOf]

theorem Turn.sets_of_not_found {t : Turn} (now : Instant) (key : CacheKey) (h : t.found? = none) :
    t.sets now key = [] := by
  cases t with
  | kept addresses => rfl
  | asked answer =>
    cases answer with
    | error e => rfl
    | ok addresses =>
      cases addresses with
      | nil => rfl
      | cons first others => cases h

/-- What is found by asking is an answer that is not empty. -/
theorem Turn.of_found?_asked {answer : Except ProviderError (List Address)} {as : List Address}
    (h : (Turn.asked answer).found? = some as) : answer = .ok as ∧ as ≠ [] := by
  cases answer with
  | error e => cases h
  | ok addresses =>
    cases addresses with
    | nil => cases h
    | cons first others =>
      injection h with h
      subst h
      exact ⟨rfl, by simp⟩

/-- An answer that is not empty is kept. -/
theorem settle_answer (g : Geocoder π σ) (now : Instant) (q : Query) (p : Provider π)
    (as : List Address) (h : as ≠ []) :
    g.settle now q p (.asked (.ok as)) = g.keep now ⟨q.signature, p.id⟩ as := by
  obtain ⟨first, others, rfl⟩ := List.exists_cons_of_ne_nil h
  rfl

/-- On the record, the first answer is what it is off the record. -/
theorem recorded_firstAnswer (g : Geocoder π σ) (now : Instant) (q : Query) (ps : List (Provider π))
    (x : π) (asks : List Ask) (y : σ) (calls : List StoreCall) :
    (g.recorded.firstAnswer now q (ps.map Provider.recorded)).run ((x, asks), (y, calls)) =
      let (found, (x', y')) := (g.firstAnswer now q ps).run (x, y)
      (found, ((x', asks ++ asksOf q (g.turns q ps (x, y))),
        (y', calls ++ g.callsOf now q (g.turns q ps (x, y))))) := by
  induction ps generalizing x asks y calls with
  | nil => simp [firstAnswer, turns, asksOf, callsOf_nil, LookupM.run_pure, -StateT.run_pure]
  | cons p rest ih =>
    rw [List.map_cons, firstAnswer_cons, firstAnswer_cons, recorded_turn, turns_cons]
    generalize (g.turn q p).run (x, y) = turn
    obtain ⟨t, x1, y1⟩ := turn
    cases h : t.found? with
    | none =>
      simp only [Option.isSome_none, Bool.false_eq_true, if_false, ih, asksOf_cons, callsOf_cons,
        Turn.calls, t.sets_of_not_found now _ h, List.append_assoc]
    | some addresses =>
      simp only [Option.isSome_some, if_true, recorded_settle, asksOf_cons, callsOf_cons,
        callsOf_nil, Turn.calls, List.append_nil, List.append_assoc]
      generalize (g.settle now q p t).run (x1, y1) = settled
      obtain ⟨_, x2, y2⟩ := settled
      cases g.isCaching <;> simp [asksOf]

theorem providers_cons (g : Geocoder π σ) (id : String) (rest : List String) :
    g.providers (id :: rest) =
      match g.registry.find? id with
      | some p => (g.providers rest).map (p :: ·)
      | none => .error (.unknownProvider id) := by
  unfold providers
  rw [List.mapM_cons]
  cases g.registry.find? id <;> rfl

/-- What the registry on the record finds. -/
theorem recorded_providers (g : Geocoder π σ) (ids : List String) :
    g.recorded.providers ids = (g.providers ids).map (List.map Provider.recorded) := by
  induction ids with
  | nil => rfl
  | cons id rest ih =>
    have h : g.recorded.registry.find? id = (g.registry.find? id).map Provider.recorded :=
      Table.find?_map _ _ _
    rw [providers_cons, providers_cons, ih, h]
    cases g.registry.find? id with
    | none => rfl
    | some p => cases g.providers rest <;> rfl

/-- The providers that a request names, at least one. -/
def resolved (g : Geocoder π σ) (r : Request) : Except Error (List (Provider π)) :=
  if r.providers.isEmpty then .error .noProviders else g.providers r.providers

theorem providers_eq_ok_iff (g : Geocoder π σ) (ids : List String) (ps : List (Provider π)) :
    g.providers ids = .ok ps ↔ ids.map g.registry.find? = ps.map some := by
  induction ids generalizing ps with
  | nil =>
    have hnil : g.providers [] = .ok [] := rfl
    rw [hnil]
    cases ps <;> simp
  | cons id rest ih =>
    rw [providers_cons]
    cases hid : g.registry.find? id with
    | none => cases ps <;> simp [hid]
    | some p =>
      cases ps with
      | nil => cases g.providers rest <;> simp [Except.map]
      | cons p' ps =>
        rw [List.map_cons, List.map_cons, hid, List.cons.injEq, Option.some.injEq, ← ih]
        cases g.providers rest <;> simp [Except.map]

theorem resolved_eq_ok_iff (g : Geocoder π σ) (r : Request) (ps : List (Provider π)) :
    g.resolved r = .ok ps ↔
      r.providers ≠ [] ∧ r.providers.map g.registry.find? = ps.map some := by
  unfold resolved
  rw [← providers_eq_ok_iff]
  cases r.providers <;> simp

/-- A provider that is asked is registered under its id, and the request names it. -/
theorem registered_of_resolved (g : Geocoder π σ) (r : Request) (ps : List (Provider π))
    (h : g.resolved r = .ok ps) (p : Provider π) (hp : p ∈ ps) :
    g.registry.find? p.id = some p ∧ p.id ∈ r.providers := by
  have hmap := ((resolved_eq_ok_iff g r ps).mp h).2
  have hmem : some p ∈ r.providers.map g.registry.find? := by
    rw [hmap]
    exact List.mem_map_of_mem hp
  obtain ⟨id, hid, hfind⟩ := List.mem_map.mp hmem
  rw [Registry.id_of_find? _ hfind]
  exact ⟨hfind, hid⟩

theorem recorded_resolved (g : Geocoder π σ) (r : Request) :
    g.recorded.resolved r = (g.resolved r).map (List.map Provider.recorded) := by
  unfold resolved
  split
  · rfl
  · exact recorded_providers g r.providers

/-- A lookup is refused without a trace, or is the first answer of its providers. -/
theorem lookup_run (g : Geocoder π σ) (now : Instant) (r : Request) (s : π × σ) :
    (g.lookup now r).run.run s =
      match g.resolved r with
      | .error e => (.error e, s)
      | .ok ps =>
        let (found, s') := (g.firstAnswer now r.query ps).run s
        (.ok found, s') := by
  unfold lookup resolved
  split
  · rfl
  · cases g.providers r.providers <;> rfl

/-- The turns of a request; none if it is refused. -/
def turnsOf (g : Geocoder π σ) (r : Request) (s : π × σ) : List (Provider π × Turn) :=
  match g.resolved r with
  | .ok ps => g.turns r.query ps s
  | .error _ => []

theorem turnsOf_of_resolved {g : Geocoder π σ} {r : Request} {ps : List (Provider π)}
    (h : g.resolved r = .ok ps) (s : π × σ) : g.turnsOf r s = g.turns r.query ps s := by
  rw [turnsOf, h]

/-- On the record, a lookup is what it is off the record, and its record is that of its turns. -/
theorem recorded_lookup (g : Geocoder π σ) (now : Instant) (r : Request) (x : π) (asks : List Ask)
    (y : σ) (calls : List StoreCall) :
    (g.recorded.lookup now r).run.run ((x, asks), (y, calls)) =
      let (result, (x', y')) := (g.lookup now r).run.run (x, y)
      (result, ((x', asks ++ asksOf r.query (g.turnsOf r (x, y))),
        (y', calls ++ g.callsOf now r.query (g.turnsOf r (x, y))))) := by
  rw [lookup_run, lookup_run, recorded_resolved, turnsOf]
  cases g.resolved r with
  | error e => simp [Except.map, asksOf, callsOf_nil]
  | ok ps =>
    simp only [Except.map, recorded_firstAnswer]
    rfl

theorem asks_eq (g : Geocoder π σ) (now : Instant) (r : Request) (s : π × σ) :
    g.asks now r s = asksOf r.query (g.turnsOf r s) := by
  have h := recorded_lookup g now r s.1 [] s.2 []
  exact congrArg (fun w => w.2.1.2) h

theorem calls_eq (g : Geocoder π σ) (now : Instant) (r : Request) (s : π × σ) :
    g.calls now r s = g.callsOf now r.query (g.turnsOf r s) := by
  have h := recorded_lookup g now r s.1 [] s.2 []
  exact congrArg (fun w => w.2.2.2) h

/-! ## Where the questions go -/

theorem turn_asked (g : Geocoder π σ) (q : Query) (p : Provider π) (s : π × σ)
    (answer : Except ProviderError (List Address))
    (h : ((g.turn q p).run s).1 = .asked answer) : ∃ x, answer = ((p.ask q).run x).1 := by
  rw [turn, LookupM.run_bind] at h
  cases hkept : ((g.kept? ⟨q.signature, p.id⟩).run s).1 with
  | some addresses =>
    rw [hkept] at h
    cases h
  | none =>
    rw [hkept] at h
    injection h with h
    exact ⟨_, h.symm⟩

theorem mem_turns (g : Geocoder π σ) (q : Query) (ps : List (Provider π)) (s : π × σ)
    (p : Provider π) (t : Turn) (h : (p, t) ∈ g.turns q ps s) :
    p ∈ ps ∧ ∃ s', ((g.turn q p).run s').1 = t := by
  induction ps generalizing s with
  | nil => cases h
  | cons p' rest ih =>
    rw [turns_cons] at h
    rcases List.mem_cons.mp h with heq | hmem
    · cases heq
      exact ⟨by simp, s, rfl⟩
    · split at hmem
      · cases hmem
      · obtain ⟨hp, hturn⟩ := ih _ hmem
        exact ⟨List.mem_cons_of_mem _ hp, hturn⟩

/-- A turn of a lookup is that of a provider that it names and that is registered. -/
theorem mem_turnsOf (g : Geocoder π σ) (r : Request) (s : π × σ) (p : Provider π) (t : Turn)
    (h : (p, t) ∈ g.turnsOf r s) :
    g.registry.find? p.id = some p ∧ p.id ∈ r.providers ∧
      ∃ s', ((g.turn r.query p).run s').1 = t := by
  rw [turnsOf] at h
  cases hps : g.resolved r with
  | error e =>
    rw [hps] at h
    cases h
  | ok ps =>
    rw [hps] at h
    obtain ⟨hp, hturn⟩ := mem_turns g r.query ps s p t h
    obtain ⟨hfind, hnamed⟩ := registered_of_resolved g r ps hps p hp
    exact ⟨hfind, hnamed, hturn⟩

/-- A question of a lookup is its query, to a provider that it names, and has that provider's
answer. -/
theorem mem_asks (g : Geocoder π σ) (now : Instant) (r : Request) (s : π × σ) (a : Ask)
    (h : a ∈ g.asks now r s) :
    a.query = r.query ∧ a.provider ∈ r.providers ∧
      ∃ p x, g.registry.find? a.provider = some p ∧ a.answer = ((p.ask r.query).run x).1 := by
  rw [asks_eq] at h
  obtain ⟨⟨p, t⟩, hmem, ha⟩ := List.mem_flatMap.mp h
  obtain ⟨hfind, hnamed, s', hturn⟩ := mem_turnsOf g r s p t hmem
  cases t with
  | kept addresses => cases ha
  | asked answer =>
    obtain ⟨x, hx⟩ := turn_asked g r.query p s' answer hturn
    obtain rfl := List.mem_singleton.mp ha
    exact ⟨rfl, hnamed, p, x, hfind, hx⟩

/-- The question of a turn is among the questions of its lookup. -/
theorem ask_mem_of_turn (g : Geocoder π σ) (now : Instant) (r : Request) (s : π × σ)
    (p : Provider π) (answer : Except ProviderError (List Address))
    (h : (p, .asked answer) ∈ g.turnsOf r s) : ⟨p.id, r.query, answer⟩ ∈ g.asks now r s := by
  rw [asks_eq]
  exact List.mem_flatMap.mpr ⟨_, h, List.mem_singleton.mpr rfl⟩

theorem turn_of_firstAnswer (g : Geocoder π σ) (now : Instant) (q : Query) (ps : List (Provider π))
    (s : π × σ) (h : ((g.firstAnswer now q ps).run s).1 ≠ []) :
    ∃ p t, (p, t) ∈ g.turns q ps s ∧ t.found? = some ((g.firstAnswer now q ps).run s).1 := by
  induction ps generalizing s with
  | nil => exact absurd rfl h
  | cons p rest ih =>
    rw [firstAnswer_cons] at h ⊢
    rw [turns_cons]
    cases hfound : ((g.turn q p).run s).1.found? with
    | some found => exact ⟨p, _, List.mem_cons_self, hfound⟩
    | none =>
      rw [hfound] at h
      obtain ⟨p', t, hmem, hfound'⟩ := ih _ h
      exact ⟨p', t, List.mem_cons_of_mem _ hmem, hfound'⟩

/-- What a lookup finds, one of its turns finds. -/
theorem turn_of_lookup (g : Geocoder π σ) (now : Instant) (r : Request) (s : π × σ)
    (as : List Address) (h : ((g.lookup now r).run.run s).1 = .ok as) (hne : as ≠ []) :
    ∃ p t, (p, t) ∈ g.turnsOf r s ∧ t.found? = some as := by
  rw [lookup_run] at h
  rw [turnsOf]
  cases hps : g.resolved r with
  | error e =>
    rw [hps] at h
    cases h
  | ok ps =>
    rw [hps] at h
    have hfound : ((g.firstAnswer now r.query ps).run s).1 = as := Except.ok.inj h
    rw [← hfound] at hne ⊢
    exact turn_of_firstAnswer g now r.query ps s hne

end Geocoder

end Gazetteer
