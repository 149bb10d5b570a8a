import Mathlib.Data.List.Forall2
import Gazetteer.Proofs.CommandLine.Plan
import Gazetteer.Proofs.Lookup.Record

/-!
# Requests on the record

A network that writes down the requests it is sent, and otherwise answers as before.  All that uses
it, from a provider to a whole command, does on the record what it does off the record, so the
requests of a command are those that its run on the record has written down.

    step' follows step through view: same result, same state as far as the view goes
    g'.lookup now r follows g.lookup now r                                       (lookup_follows)
    run network.recorded now args follows run network now args                        (run_follows)
-/

namespace Gazetteer

/-- A network that writes down its requests, in order. -/
def Http.Network.recorded {ν : Type} (n : Http.Network ν) :
    Http.Network (ν × List Http.Request) where
  address? := n.address?
  send request := fun (x, sent) =>
    let (answer, x) := (n.send request).run x
    (answer, (x, sent ++ [request]))

/-! ## Steps that follow each other -/

/-- A step on states with more in them does what another step does, as far as a view of these
states goes. -/
def Follows {s t α : Type} (view : t → s) (step' : StateM t α) (step : StateM s α) : Prop :=
  ∀ x, ((step'.run x).1, view (step'.run x).2) = step.run (view x)

namespace Follows

variable {s t α β : Type} {view : t → s}

theorem pure (a : α) : Follows view (Pure.pure a) (Pure.pure a) := fun _ => rfl

theorem bind {m' : StateM t α} {m : StateM s α} {f' : α → StateM t β} {f : α → StateM s β}
    (h : Follows view m' m) (hf : ∀ a, Follows view (f' a) (f a)) :
    Follows view (m' >>= f') (m >>= f) := by
  intro x
  show (((f' (m'.run x).1).run (m'.run x).2).1, view ((f' (m'.run x).1).run (m'.run x).2).2) =
    (f (m.run (view x)).1).run (m.run (view x)).2
  rw [← h x]
  exact hf _ _

/-- Steps that may fail, one after the other. -/
theorem andThen {ε : Type} {m' : ExceptT ε (StateM t) α} {m : ExceptT ε (StateM s) α}
    {f' : α → ExceptT ε (StateM t) β} {f : α → ExceptT ε (StateM s) β}
    (h : Follows view m'.run m.run) (hf : ∀ a, Follows view (f' a).run (f a).run) :
    Follows view (m' >>= f').run (m >>= f).run := by
  rw [ExceptT.run_bind, ExceptT.run_bind]
  apply bind h
  intro result
  cases result with
  | ok a => exact hf a
  | error e => exact pure _

/-- A step that cannot fail among steps that may. -/
theorem lift {ε : Type} {m' : StateM t α} {m : StateM s α} (h : Follows view m' m) :
    Follows view (liftM m' : ExceptT ε (StateM t) α).run
      (liftM m : ExceptT ε (StateM s) α).run := by
  intro x
  show (Except.ok (m'.run x).1, view (m'.run x).2) =
    (Except.ok (m.run (view x)).1, (m.run (view x)).2)
  rw [← h x]

end Follows

/-! ## Providers -/

variable {ν σ : Type}

theorem Http.Network.recorded_follows (n : Http.Network ν) (request : Http.Request) :
    Follows Prod.fst (n.recorded.send request) (n.send request) := fun _ => rfl

theorem Nominatim.Service.fetch_follows (s : Nominatim.Service) (n : Http.Network ν) (name : String)
    (own : List (String × String)) :
    Follows Prod.fst (s.fetch n.recorded name own).run (s.fetch n name own).run := by
  unfold fetch
  have hrequest : s.request? n.recorded name own = s.request? n name own := rfl
  rw [hrequest]
  cases s.request? n name own with
  | none => exact .pure _
  | some request =>
    apply Follows.andThen (.lift (n.recorded_follows request))
    intro answer
    cases answer with
    | none => exact .pure _
    | some a =>
      dsimp only
      split
      · exact .pure _
      · exact .pure _

/-- A provider on the record, and the same provider off the record. -/
structure Provider.Follows (p' : Provider (ν × List Http.Request)) (p : Provider ν) : Prop where
  id : p'.id = p.id
  ask : ∀ q, Gazetteer.Follows Prod.fst (p'.ask q).run (p.ask q).run

theorem Provider.nominatim_follows (s : Nominatim.Service) (n : Http.Network ν) :
    (nominatim s n.recorded).Follows (nominatim s n) where
  id := rfl
  ask q := by
    cases q with
    | text t => exact .andThen (s.fetch_follows n _ _) fun body => .pure (s.addresses body)
    | point c => exact .andThen (s.fetch_follows n _ _) fun body => .pure (s.reverseAddresses body)

theorem Provider.orUnavailable_follows (n : Http.Network ν) (s : Settings) (id : ProviderId) :
    (orUnavailable n.recorded s id).Follows (orUnavailable n s id) := by
  have hunavailable (reason : String) :
      (unavailable id reason : Provider (ν × List Http.Request)).Follows (unavailable id reason) :=
    ⟨rfl, fun q => by cases q <;> exact .pure _⟩
  have hsample : (sample : Provider (ν × List Http.Request)).Follows sample := by
    refine ⟨rfl, fun q => ?_⟩
    cases q with
    | text t => exact fun _ => rfl
    | point c => exact fun _ => rfl
  unfold orUnavailable
  cases id with
  | test => exact hsample
  | openStreetMap => exact nominatim_follows _ n
  | mapsCo =>
    unfold ofSettings
    cases s.apiKey? .mapsCo with
    | none => exact hunavailable _
    | some key => exact nominatim_follows _ n

/-- Registries with the same ids, on the record and off it. -/
def Registry.Follows (r' : Registry (ν × List Http.Request)) (r : Registry ν) : Prop :=
  ∀ id, Option.Rel Provider.Follows (r'.find? id) (r.find? id)

theorem Registry.register_follows {r' : Registry (ν × List Http.Request)} {r : Registry ν}
    {p' : Provider (ν × List Http.Request)} {p : Provider ν} (h : r'.Follows r)
    (hp : p'.Follows p) : (r'.register p').Follows (r.register p) := by
  intro id
  show Option.Rel _ ((r'.table.insert p'.id p').find? id) ((r.table.insert p.id p).find? id)
  rw [Table.find?_insert, Table.find?_insert, hp.id]
  split
  · exact .some hp
  · exact h id

theorem Registry.ofSettings_follows (n : Http.Network ν) (s : Settings) :
    (ofSettings n.recorded s).Follows (ofSettings n s) := by
  have hfold (ids : List ProviderId) (r' : Registry (ν × List Http.Request)) (r : Registry ν)
      (h : r'.Follows r) :
      (ids.foldl (fun r id => r.register (.orUnavailable n.recorded s id)) r').Follows
        (ids.foldl (fun r id => r.register (.orUnavailable n s id)) r) := by
    induction ids generalizing r' r with
    | nil => exact h
    | cons id rest ih => exact ih _ _ (register_follows h (Provider.orUnavailable_follows n s id))
  exact hfold _ _ _ fun _ => .none

/-! ## Lookups -/

namespace Geocoder

/-- The states of a lookup without what is written down. -/
def offRecord (s : (ν × List Http.Request) × σ) : ν × σ := (s.1.1, s.2)

variable {r' : Registry (ν × List Http.Request)} {r : Registry ν} {store : Option (Store σ)}

theorem kept?_follows (key : CacheKey) :
    Follows offRecord (kept? ⟨r', store⟩ key) (kept? ⟨r, store⟩ key) := by
  cases store with
  | none => exact .pure _
  | some store =>
    apply Follows.bind (m := onStore (store.get key).run) (fun _ => rfl)
    intro result
    cases result with
    | ok text => exact .pure _
    | error e => exact .pure _

theorem keep_follows (now : Instant) (key : CacheKey) (as : List Address) :
    Follows offRecord (keep ⟨r', store⟩ now key as) (keep ⟨r, store⟩ now key as) := by
  cases store with
  | none => exact .pure _
  | some store => exact fun _ => rfl

theorem firstAnswer_follows (now : Instant) (q : Query)
    {ps' : List (Provider (ν × List Http.Request))} {ps : List (Provider ν)}
    (h : List.Forall₂ Provider.Follows ps' ps) :
    Follows offRecord (firstAnswer ⟨r', store⟩ now q ps') (firstAnswer ⟨r, store⟩ now q ps) := by
  induction h with
  | nil => exact .pure _
  | cons hp _ ih =>
    unfold firstAnswer
    rw [hp.id]
    apply Follows.bind (kept?_follows _)
    intro kept
    cases kept with
    | some as => exact .pure _
    | none =>
      have hask := hp.ask q
      apply Follows.bind (m := onProviders _)
      · exact fun x => congrArg (fun a => (a.1, (a.2, x.2))) (hask x.1)
      · intro answer
        cases answer with
        | error e => exact ih
        | ok as =>
          cases as with
          | nil => exact ih
          | cons first others => exact .bind (keep_follows now _ _) fun _ => .pure _

theorem providers_follows (h : r'.Follows r) (ids : List String) :
    (∃ e, providers ⟨r', store⟩ ids = .error e ∧ providers ⟨r, store⟩ ids = .error e) ∨
    ∃ ps' ps, providers ⟨r', store⟩ ids = .ok ps' ∧ providers ⟨r, store⟩ ids = .ok ps ∧
      List.Forall₂ Provider.Follows ps' ps := by
  induction ids with
  | nil => exact .inr ⟨[], [], rfl, rfl, .nil⟩
  | cons id rest ih =>
    have hid := h id
    rw [providers_cons, providers_cons]
    dsimp only
    generalize r'.find? id = p' at hid ⊢
    generalize r.find? id = p at hid ⊢
    cases hid with
    | none => exact .inl ⟨_, rfl, rfl⟩
    | some hp =>
      obtain ⟨e, he', he⟩ | ⟨ps', ps, hps', hps, hfollow⟩ := ih
      · exact .inl ⟨e, by rw [he']; rfl, by rw [he]; rfl⟩
      · exact .inr ⟨_, _, by rw [hps']; rfl, by rw [hps]; rfl, .cons hp hfollow⟩

/-- On the record, a lookup does what it does off the record. -/
theorem lookup_follows (h : r'.Follows r) (now : Instant) (request : Request) :
    Follows offRecord (lookup ⟨r', store⟩ now request).run (lookup ⟨r, store⟩ now request).run := by
  unfold lookup
  split
  · exact .pure _
  · obtain ⟨e, he', he⟩ | ⟨ps', ps, hps', hps, hfollow⟩ :=
      @providers_follows _ _ r' r store h request.providers
    · rw [he', he]
      exact .pure _
    · rw [hps', hps]
      exact .lift (firstAnswer_follows now request.query hfollow)

theorem ofSettings_lookup_follows (n : Http.Network ν) (s : Settings) (store : Option (Store σ))
    (now : Instant) (request : Request) :
    Follows offRecord ((ofSettings n.recorded s store).lookup now request).run
      ((ofSettings n s store).lookup now request).run :=
  lookup_follows (Registry.ofSettings_follows n s) now request

end Geocoder

/-! ## Commands -/

/-- A world whose network has yet to write down a request. -/
def World.onRecord (w : World ν) : World (ν × List Http.Request) :=
  { w with network := (w.network, []) }

/-- A world without what its network has written down. -/
def World.offRecord (w : World (ν × List Http.Request)) : World ν :=
  { w with network := w.network.1 }

namespace CommandLine

theorem runLookup_follows (n : Http.Network ν) (now : Instant) (direction : Direction)
    (text : String) (options : LookupOptions) :
    Follows World.offRecord (runLookup n.recorded now direction text options)
      (runLookup n now direction text options) := by
  intro w
  cases hplan : plan w.config direction text options with
  | error f =>
    have hoff : plan w.offRecord.config direction text options = .error f := hplan
    rw [runLookup_unplanned n.recorded now hplan, runLookup_unplanned n now hoff]
  | ok p =>
    have hoff : plan w.offRecord.config direction text options = .ok p := hplan
    have hlookup : ((p.lookup n.recorded now w).1, Geocoder.offRecord (p.lookup n.recorded now w).2) =
        p.lookup n now w.offRecord :=
      Geocoder.ofSettings_lookup_follows n p.settings (some Disk.store) now p.request
        (w.network, Disk.opened w.cache)
    rw [runLookup_planned n.recorded now hplan, runLookup_planned n now hoff, ← hlookup]
    rfl

theorem runCommand_providers (n : Http.Network ν) (now : Instant) (w : World ν) :
    (runCommand n now .providers).run w = (match Settings.load w.config with
      | .ok s => { code := 0, output := String.join (ProviderId.all.map (providerLine s)) }
      | .error fault => failed (.file fault) "", w) := by
  show (match Settings.load w.config with
    | .ok _ => (pure _ : StateM (World ν) Outcome)
    | .error _ => pure _).run w = _
  cases Settings.load w.config with
  | ok s => rfl
  | error fault => rfl

/-- The requests that a command line sends, in order. -/
def requests (n : Http.Network ν) (now : Instant) (args : List String) (w : World ν) :
    List Http.Request :=
  ((run n.recorded now args).run w.onRecord).2.network.2

/-- On the record, a command line does what it does off the record. -/
theorem run_follows (n : Http.Network ν) (now : Instant) (args : List String) :
    Follows World.offRecord (run n.recorded now args) (run n now args) := by
  unfold run
  cases parse false args with
  | command c =>
    intro w
    cases c with
    | lookup direction text options => exact runLookup_follows n now direction text options w
    | providers =>
      rw [runCommand_providers, runCommand_providers]
      rfl
    | formats => rfl
    | configure provider => rfl
    | cacheInfo => rfl
    | cacheClear => rfl
  | version => exact .pure _
  | help => exact .pure _
  | refused => exact .pure _

end CommandLine

end Gazetteer
