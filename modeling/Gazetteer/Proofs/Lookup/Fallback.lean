import Gazetteer.Proofs.Lookup.Repeat

/-!
# Which provider a lookup is answered by

The providers of a request have their turns in order, and the first turn that finds something ends
the lookup.  A turn is told by two things: what the store's text under the key of the query and the
provider is read as, and what the provider answers.  `placeAt?` is the turn that a position of the
list has once all positions before it have had theirs and found nothing; the winner is the least
position whose turn finds something.

    a turn      the entry that is read, or else the provider's answer                  (turn_run)
    result      what the winner found, or no addresses                       (firstAnswer_found)
    questions   those of the turns up to the winner, or of all                        (turns_eq)
    store       a look for each turn, then what the winner was told, if it was asked
                                                                               (callsOf_turns)
    all of it   lookup_first_found
-/

namespace Gazetteer.Geocoder

variable {π σ : Type}

/-! ## What tells a turn -/

/-- The entry that the text under a key is read as, if the store gives a text. -/
def entry? (g : Geocoder π σ) (key : CacheKey) (y : σ) : Option CacheEntry :=
  match g.store with
  | none => none
  | some store =>
    match ((store.get key).run.run y).1 with
    | .ok (some text) => CacheEntry.ofText? text
    | _ => none

/-- The store's state after a look under a key. -/
def looked (g : Geocoder π σ) (key : CacheKey) (y : σ) : σ :=
  match g.store with
  | none => y
  | some store => ((store.get key).run.run y).2

/-- A provider's turn and the states after it: the entry under its key if there is one, or else its
own answer. -/
def told (g : Geocoder π σ) (q : Query) (p : Provider π) (s : π × σ) : Turn × (π × σ) :=
  let key := ⟨q.signature, p.id⟩
  match g.entry? key s.2 with
  | some entry => (.kept entry.addresses, (s.1, g.looked key s.2))
  | none =>
    let (answer, x) := (p.ask q).run.run s.1
    (.asked answer, (x, g.looked key s.2))

theorem told_of_entry {g : Geocoder π σ} {q : Query} {p : Provider π} {s : π × σ}
    {entry : CacheEntry} (h : g.entry? ⟨q.signature, p.id⟩ s.2 = some entry) :
    g.told q p s = (.kept entry.addresses, (s.1, g.looked ⟨q.signature, p.id⟩ s.2)) := by
  rw [told, h]

theorem told_of_none {g : Geocoder π σ} {q : Query} {p : Provider π} {s : π × σ}
    (h : g.entry? ⟨q.signature, p.id⟩ s.2 = none) :
    g.told q p s = (.asked ((p.ask q).run.run s.1).1,
      (((p.ask q).run.run s.1).2, g.looked ⟨q.signature, p.id⟩ s.2)) := by
  rw [told, h]
  rfl

theorem kept?_run (g : Geocoder π σ) (key : CacheKey) (s : π × σ) :
    (g.kept? key).run s = ((g.entry? key s.2).map (·.addresses), (s.1, g.looked key s.2)) := by
  obtain ⟨registry, store⟩ := g
  cases store with
  | none => rfl
  | some store =>
    unfold kept? entry? looked
    have hlook : (onStore (store.get key).run).run s =
        (((store.get key).run.run s.2).1, (s.1, ((store.get key).run.run s.2).2)) := rfl
    rw [LookupM.run_bind, hlook]
    dsimp only
    generalize ((store.get key).run.run s.2).1 = found
    cases found with
    | error e => rfl
    | ok text => cases text <;> rfl

theorem turn_run (g : Geocoder π σ) (q : Query) (p : Provider π) (s : π × σ) :
    (g.turn q p).run s = g.told q p s := by
  rw [turn, LookupM.run_bind, kept?_run]
  cases h : g.entry? ⟨q.signature, p.id⟩ s.2 with
  | some entry =>
    rw [told_of_entry h]
    rfl
  | none =>
    rw [told_of_none h]
    rfl

/-! ## Positions -/

/-- The state after the turns of some providers. -/
def passed (g : Geocoder π σ) (q : Query) (ps : List (Provider π)) (s : π × σ) : π × σ :=
  ps.foldl (fun s p => (g.told q p s).2) s

/-- The provider at a position with the turn it has when those before it have had theirs. -/
def placeAt? (g : Geocoder π σ) (q : Query) (ps : List (Provider π)) (s : π × σ) (i : Nat) :
    Option (Provider π × Turn) :=
  ps[i]?.map fun p => (p, (g.told q p (g.passed q (ps.take i) s)).1)

/-- What is found at a position. -/
def foundAt? (g : Geocoder π σ) (q : Query) (ps : List (Provider π)) (s : π × σ) (i : Nat) :
    Option (List Address) :=
  (g.placeAt? q ps s i).bind (·.2.found?)

/-- The first position at which something is found. -/
def winner? (g : Geocoder π σ) (q : Query) (ps : List (Provider π)) (s : π × σ) : Option Nat :=
  (List.range ps.length).find? fun i => (g.foundAt? q ps s i).isSome

/-- How many positions have their turn. -/
def turnCount (ps : List (Provider π)) (winner : Option Nat) : Nat :=
  (winner.map (· + 1)).getD ps.length

theorem placeAt?_zero (g : Geocoder π σ) (q : Query) (p : Provider π) (rest : List (Provider π))
    (s : π × σ) : g.placeAt? q (p :: rest) s 0 = some (p, (g.told q p s).1) := rfl

theorem foundAt?_zero (g : Geocoder π σ) (q : Query) (p : Provider π) (rest : List (Provider π))
    (s : π × σ) : g.foundAt? q (p :: rest) s 0 = (g.told q p s).1.found? := rfl

theorem foundAt?_eq_none (g : Geocoder π σ) (q : Query) (ps : List (Provider π)) (s : π × σ)
    (i : Nat) (h : ps.length ≤ i) : g.foundAt? q ps s i = none := by
  simp [foundAt?, placeAt?, List.getElem?_eq_none h]

theorem winner?_eq_some_iff (g : Geocoder π σ) (q : Query) (ps : List (Provider π)) (s : π × σ)
    (i : Nat) :
    g.winner? q ps s = some i ↔
      (g.foundAt? q ps s i).isSome ∧ ∀ j < i, g.foundAt? q ps s j = none := by
  unfold winner?
  rw [List.find?_range_eq_some]
  constructor
  · rintro ⟨h1, _, h2⟩
    exact ⟨h1, fun j hj => by simpa using h2 j hj⟩
  · rintro ⟨h1, h2⟩
    refine ⟨h1, ?_, fun j hj => by simp [h2 j hj]⟩
    apply List.mem_range.mpr
    apply Classical.byContradiction
    intro hlt
    rw [foundAt?_eq_none g q ps s i (by omega)] at h1
    cases h1

theorem winner?_cons (g : Geocoder π σ) (q : Query) (p : Provider π) (rest : List (Provider π))
    (s : π × σ) :
    g.winner? q (p :: rest) s =
      if (g.told q p s).1.found?.isSome then some 0
      else (g.winner? q rest (g.told q p s).2).map (· + 1) := by
  unfold winner?
  rw [List.length_cons, List.range_succ_eq_map, List.find?_cons, foundAt?_zero]
  cases (g.told q p s).1.found? with
  | some found => rfl
  | none =>
    simp only [Option.isSome_none, Bool.false_eq_true, if_false, List.find?_map]
    rfl

/-! ## The turns that come -/

theorem turnCount_succ (p : Provider π) (rest : List (Provider π)) (winner : Option Nat) :
    turnCount (p :: rest) (winner.map (· + 1)) = turnCount rest winner + 1 := by
  cases winner <;> rfl

theorem turns_eq (g : Geocoder π σ) (q : Query) (ps : List (Provider π)) (s : π × σ) :
    g.turns q ps s =
      (List.range (turnCount ps (g.winner? q ps s))).filterMap (g.placeAt? q ps s) := by
  induction ps generalizing s with
  | nil => rfl
  | cons p rest ih =>
    rw [turns_cons, turn_run, winner?_cons]
    cases h : (g.told q p s).1.found? with
    | some found => rfl
    | none =>
      simp only [Option.isSome_none, Bool.false_eq_true, if_false, turnCount_succ]
      rw [List.range_succ_eq_map, List.filterMap_cons, placeAt?_zero, List.filterMap_map, ih]
      rfl

theorem firstAnswer_found (g : Geocoder π σ) (now : Instant) (q : Query) (ps : List (Provider π))
    (s : π × σ) :
    ((g.firstAnswer now q ps).run s).1 =
      ((g.winner? q ps s).bind (g.foundAt? q ps s)).getD [] := by
  induction ps generalizing s with
  | nil => rfl
  | cons p rest ih =>
    rw [firstAnswer_cons, turn_run, winner?_cons]
    cases h : (g.told q p s).1.found? with
    | some found => simp [foundAt?_zero, h]
    | none =>
      simp only [Option.isSome_none, Bool.false_eq_true, if_false, ih, Option.bind_map]
      rfl

theorem callsOf_turns (g : Geocoder π σ) (now : Instant) (q : Query) (ps : List (Provider π))
    (s : π × σ) (hc : g.isCaching = true) :
    g.callsOf now q (g.turns q ps s) =
      (ps.take (turnCount ps (g.winner? q ps s))).map (fun p => .get ⟨q.signature, p.id⟩) ++
        ((g.winner? q ps s).bind (g.placeAt? q ps s)).elim []
          fun (p, t) => t.sets now ⟨q.signature, p.id⟩ := by
  induction ps generalizing s with
  | nil => simp [turns, callsOf_nil, winner?]
  | cons p rest ih =>
    rw [turns_cons, turn_run, winner?_cons, callsOf_cons, if_pos hc]
    cases h : (g.told q p s).1.found? with
    | some found =>
      simp [turnCount, placeAt?_zero, callsOf_nil, Turn.calls]
    | none =>
      simp only [Option.isSome_none, Bool.false_eq_true, if_false, ih, turnCount_succ, Turn.calls,
        Turn.sets_of_not_found now _ h, Option.bind_map, List.take_succ_cons, List.map_cons,
        List.cons_append, List.nil_append]
      rfl

/-- A turn that comes and is not the winner's finds nothing. -/
theorem passed_of_lt (g : Geocoder π σ) (q : Query) (ps : List (Provider π)) (s : π × σ) (i : Nat)
    (hi : i < turnCount ps (g.winner? q ps s)) (hw : g.winner? q ps s ≠ some i) :
    ∃ p t, g.placeAt? q ps s i = some (p, t) ∧ t.found? = none := by
  have hnone : i < ps.length ∧ g.foundAt? q ps s i = none := by
    cases h : g.winner? q ps s with
    | none =>
      rw [h] at hi
      have hi' : i < ps.length := hi
      have := List.find?_eq_none.mp h i (List.mem_range.mpr hi')
      exact ⟨hi', by simpa using this⟩
    | some k =>
      rw [h] at hi hw
      have hk : i < k + 1 := hi
      obtain ⟨hfound, hbefore⟩ := (winner?_eq_some_iff g q ps s k).mp h
      have hlt : k < ps.length := by
        apply Classical.byContradiction
        intro hge
        rw [foundAt?_eq_none g q ps s k (by omega)] at hfound
        cases hfound
      have hik : i < k := by
        rcases Nat.lt_succ_iff_lt_or_eq.mp hk with h | h
        · exact h
        · exact absurd (congrArg some h.symm) hw
      exact ⟨by omega, hbefore i hik⟩
  obtain ⟨hi, hfound⟩ := hnone
  refine ⟨ps[i], (g.told q ps[i] (g.passed q (ps.take i) s)).1, ?_, ?_⟩
  · simp [placeAt?, List.getElem?_eq_getElem hi]
  · simpa [foundAt?, placeAt?, List.getElem?_eq_getElem hi] using hfound

/-! ## The whole of a lookup -/

theorem map_id_of_registered (g : Geocoder π σ) (ids : List String) (ps : List (Provider π))
    (h : ids.map g.registry.find? = ps.map some) : ps.map (·.id) = ids := by
  induction ids generalizing ps with
  | nil => cases ps <;> simp_all
  | cons id rest ih =>
    cases ps with
    | nil => cases h
    | cons p ps =>
      rw [List.map_cons, List.map_cons, List.cons.injEq] at h
      rw [List.map_cons, Registry.id_of_find? _ h.1, ih ps h.2]

/-- What a request does when `winner` is the position that answers it, if any. -/
structure FirstFound (g : Geocoder π σ) (now : Instant) (r : Request) (ps : List (Provider π))
    (s : π × σ) (winner : Option Nat) : Prop where
  /-- No position before the winner finds anything. -/
  least : ∀ i, winner = some i ↔
    (g.foundAt? r.query ps s i).isSome ∧ ∀ j < i, g.foundAt? r.query ps s j = none
  result : ((g.lookup now r).run.run s).1 =
    .ok ((winner.bind (g.foundAt? r.query ps s)).getD [])
  /-- Each turn but the winner's is a miss of the store, so that the provider is asked. -/
  missed : ∀ i < turnCount ps winner, winner ≠ some i →
    ∃ p answer, g.placeAt? r.query ps s i = some (p, .asked answer)
  asks : g.asks now r s =
    asksOf r.query ((List.range (turnCount ps winner)).filterMap (g.placeAt? r.query ps s))
  /-- A look for each turn; then the answer is kept, if the winner gave one. -/
  calls : g.calls now r s =
    if g.isCaching then
      (r.providers.take (turnCount ps winner)).map (fun id => .get ⟨r.query.signature, id⟩) ++
        (winner.bind (g.placeAt? r.query ps s)).elim []
          fun (p, t) => t.sets now ⟨r.query.signature, p.id⟩
    else []

/-- Ordered fallback: a request whose providers are all there is answered by the first of them that
finds something, whatever providers and store do. -/
theorem lookup_first_found (g : Geocoder π σ) (now : Instant) (r : Request)
    (ps : List (Provider π)) (s : π × σ) (hne : r.providers ≠ [])
    (hps : r.providers.map g.registry.find? = ps.map some) :
    ∃ winner, g.FirstFound now r ps s winner := by
  have hr : g.resolved r = .ok ps := (resolved_eq_ok_iff g r ps).mpr ⟨hne, hps⟩
  have hturns : g.turnsOf r s = g.turns r.query ps s := by rw [turnsOf, hr]
  refine ⟨g.winner? r.query ps s, ?least, ?result, ?missed, ?asks, ?calls⟩
  case least => exact winner?_eq_some_iff g r.query ps s
  case result =>
    rw [lookup_run, hr, ← firstAnswer_found g now]
    rfl
  case missed =>
    intro i hi hw
    obtain ⟨p, t, hplace, hfound⟩ := passed_of_lt g r.query ps s i hi hw
    cases t with
    | kept addresses => cases hfound
    | asked answer => exact ⟨p, answer, hplace⟩
  case asks => rw [asks_eq, hturns, turns_eq]
  case calls =>
    have hids := map_id_of_registered g r.providers ps hps
    rw [calls_eq, hturns]
    split
    · next hc =>
      rw [callsOf_turns g now r.query ps s hc, ← hids, ← List.map_take, List.map_map]
      rfl
    · next hc => simp [callsOf, hc]

/-- The first provider's text is broken and it has no answer; the second one's is an entry. -/
theorem lookup_first_found_kept :
    let now : Instant := ⟨2024, 1, 1, 0, 0, 0, 0, by decide⟩
    let silent : Provider Unit := .steady "silent" []
    let g : Geocoder Unit Memory :=
      ⟨(Registry.empty.register .sample).register silent, some Memory.store⟩
    let r : Request := ⟨.text "x", ["silent", "test_provider", "silent"]⟩
    let ps : List (Provider Unit) := [silent, .sample, silent]
    let s : Unit × Memory := ((), ⟨[(⟨"geocode:x", "silent"⟩, "broken"),
      (⟨"geocode:x", "test_provider"⟩, (CacheEntry.mk now [Sample.gotham]).text)]⟩)
    r.providers ≠ [] ∧ r.providers.map g.registry.find? = ps.map some ∧
      g.FirstFound now r ps s (some 1) ∧
      ((g.lookup now r).run.run s).1 = .ok [Sample.gotham] ∧
      g.asks now r s = [⟨"silent", .text "x", .ok []⟩] ∧
      g.calls now r s = [.get ⟨"geocode:x", "silent"⟩, .get ⟨"geocode:x", "test_provider"⟩] := by
  intro now silent g r ps s
  have hentry := Sample.entry_gotham now (by decide)
  have hbroken : CacheEntry.ofText? "broken" = none := by decide +kernel
  have hsignature : r.query.signature = "geocode:x" := by decide +kernel
  have hnone : g.entry? ⟨r.query.signature, silent.id⟩ s.2 = none := by
    rw [hsignature]
    exact hbroken
  have hfirst : g.placeAt? r.query ps s 0 = some (silent, .asked (.ok [])) := by
    rw [placeAt?_zero, told_of_none hnone]
    rfl
  have hsecond : g.placeAt? r.query ps s 1 = some (.sample, .kept [Sample.gotham]) := by
    have hkept : g.entry? ⟨r.query.signature, (.sample : Provider Unit).id⟩
        (g.passed r.query [silent] s).2 = some ⟨now, [Sample.gotham]⟩ := by
      have hpassed : (g.passed r.query [silent] s).2 = s.2 := by
        rw [passed, List.foldl_cons, told_of_none hnone]
        rfl
      rw [hsignature, hpassed]
      exact hentry
    show some (_, (g.told r.query .sample (g.passed r.query [silent] s)).1) = _
    rw [told_of_entry hkept]
  have hregistered : r.providers.map g.registry.find? = ps.map some := by
    simp only [r, g, List.map_cons, List.map_nil, Registry.find?_register]
    rfl
  obtain ⟨winner, h⟩ := lookup_first_found g now r ps s (by simp [r]) hregistered
  have hwinner : winner = some 1 := by
    rw [h.least]
    refine ⟨by rw [foundAt?, hsecond]; rfl, fun j hj => ?_⟩
    obtain rfl : j = 0 := by omega
    rw [foundAt?, hfirst]
    rfl
  subst hwinner
  have hresult := h.result
  have hasks := h.asks
  have hcalls := h.calls
  have hturns : (List.range (turnCount ps (some 1))).filterMap (g.placeAt? r.query ps s) =
      [(silent, .asked (.ok [])), (.sample, .kept [Sample.gotham])] := by
    show [0, 1].filterMap _ = _
    rw [List.filterMap_cons, hfirst, List.filterMap_cons, hsecond]
    rfl
  rw [Option.bind_some, foundAt?, hsecond] at hresult
  rw [hturns] at hasks
  rw [Option.bind_some, hsecond, hsignature] at hcalls
  exact ⟨by simp [r], hregistered, h, hresult, hasks, hcalls⟩

end Gazetteer.Geocoder
