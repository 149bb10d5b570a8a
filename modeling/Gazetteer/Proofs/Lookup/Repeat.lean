import Gazetteer.Proofs.Address.Range
import Gazetteer.Proofs.Cache.Entry
import Gazetteer.Proofs.Lookup.Memory
import Gazetteer.Proofs.Provider.Sample

/-!
# Asking again

An answer that a lookup got from a provider is its result, and is kept.  If the provider is the
first that the request names, the same request asks nobody the next time and results in what the
kept text is read as.  For places on the globe that is always a list of addresses, but not always
the same one: the reader of documents may read the number of a double as a neighbour of the double.

    an entry of the first provider is the result, and nothing is asked     (lookup_hit)
    the second result is the first one reread; they are equal if every double reads back
                                                                               (lookup_again)
    a place whose second result is another one                         (lookup_again_drifting)
-/

namespace Gazetteer

variable {π σ : Type}

/-- A provider with the same answer to everything. -/
def Provider.steady (id : String) (answer : List Address) : Provider π where
  id := id
  label := id
  geocode _ := return answer
  reverse _ := return answer

namespace Geocoder

/-- The first provider that a request names is the first that it is answered by. -/
theorem resolved_first (g : Geocoder π σ) (r : Request) (id : String) (ps : List (Provider π))
    (hfirst : r.providers.head? = some id) (hps : g.resolved r = .ok ps) :
    ∃ p rest, ps = p :: rest ∧ p.id = id := by
  have hmap := ((resolved_eq_ok_iff g r ps).mp hps).2
  cases hids : r.providers with
  | nil =>
    rw [hids] at hfirst
    cases hfirst
  | cons id' ids =>
    rw [hids] at hfirst hmap
    injection hfirst with hfirst
    subst hfirst
    cases ps with
    | nil => cases hmap
    | cons p rest =>
      injection hmap with hfind
      exact ⟨p, rest, rfl, Registry.id_of_find? _ hfind⟩

/-- An entry that is kept for the first provider is the result of a request, and no provider is
asked. -/
theorem lookup_hit (registry : Registry π) (now : Instant) (r : Request) (x : π) (m : Memory)
    (id : String) (e : CacheEntry) (hfirst : r.providers.head? = some id)
    (hresolved : ∃ ps, (inMemory registry).resolved r = .ok ps)
    (he : (m.find? ⟨r.query.signature, id⟩).bind CacheEntry.ofText? = some e) :
    ((inMemory registry).lookup now r).run.run (x, m) = (.ok e.addresses, (x, m)) ∧
      (inMemory registry).asks now r (x, m) = [] := by
  obtain ⟨ps, hps⟩ := hresolved
  obtain ⟨p, rest, rfl, hid⟩ := resolved_first _ r id ps hfirst hps
  subst hid
  have hturn : ((inMemory registry).turn r.query p).run (x, m) = (.kept e.addresses, (x, m)) := by
    rw [turn_memory, he]
  constructor
  · rw [lookup_run, hps]
    dsimp only
    rw [firstAnswer_cons, hturn]
    rfl
  · rw [asks_eq, turnsOf, hps]
    dsimp only
    rw [turns_cons, hturn]
    rfl

/-- A request that its first provider answered results in the answer.  When it comes again it asks
nobody, and results in the answer reread. -/
theorem lookup_reread (registry : Registry π) (now now' : Instant) (r : Request) (s : π × Memory)
    (id : String) (as again : List Address) (hfirst : r.providers.head? = some id) (hne : as ≠ [])
    (htime : now.InRange) (hagain : as.mapM Address.reread? = some again)
    (hanswer : ⟨id, r.query, .ok as⟩ ∈ (inMemory registry).asks now r s) :
    let s' := (((inMemory registry).lookup now r).run.run s).2
    (((inMemory registry).lookup now r).run.run s).1 = .ok as ∧
      ((inMemory registry).lookup now' r).run.run s' = (.ok again, s') ∧
      (inMemory registry).asks now' r s' = [] := by
  obtain ⟨hresolved, x', hrun⟩ := answered_lookup registry now r s id as hne hanswer
  have he : ((s.2.insert ⟨r.query.signature, id⟩ (CacheEntry.mk now as).text).find?
      ⟨r.query.signature, id⟩).bind CacheEntry.ofText? = some ⟨now, again⟩ := by
    rw [Memory.find?_insert, if_pos rfl, Option.bind_some, CacheEntry.ofText?_text,
      Instant.ofText?_text now htime, hagain]
    rfl
  rw [hrun]
  exact ⟨rfl, lookup_hit registry now' r x' _ id _ hfirst hresolved he⟩

/-- For places on the globe, the second result is a list of addresses again, and the same as the
first if every double of it reads back. -/
theorem lookup_again (registry : Registry π) (now now' : Instant) (r : Request) (s : π × Memory)
    (id : String) (as : List Address) (hfirst : r.providers.head? = some id) (hne : as ≠ [])
    (htime : now.InRange) (hrange : ∀ a ∈ as, a.InRange)
    (hanswer : ⟨id, r.query, .ok as⟩ ∈ (inMemory registry).asks now r s) :
    let s' := (((inMemory registry).lookup now r).run.run s).2
    (((inMemory registry).lookup now r).run.run s).1 = .ok as ∧
      (inMemory registry).asks now' r s' = [] ∧
      ∃ again, as.mapM Address.reread? = some again ∧
        ((inMemory registry).lookup now' r).run.run s' = (.ok again, s') ∧
        (again = as ↔ ∀ a ∈ as, ∀ x ∈ a.doubles, x.ReadsBack) := by
  intro s'
  obtain ⟨again, hagain⟩ := Option.isSome_iff_exists.mp (Address.mapM_reread?_isSome as hrange)
  obtain ⟨hresult, hsecond, hasks⟩ :=
    lookup_reread registry now now' r s id as again hfirst hne htime hagain hanswer
  have hsame : again = as ↔ ∀ a ∈ as, ∀ x ∈ a.doubles, x.ReadsBack := by
    rw [← Address.mapM_reread?_eq_self_iff, hagain, Option.some.injEq]
  exact ⟨hresult, hasks, again, hagain, hsecond, hsame⟩

/-! ## One provider alone -/

theorem asks_steady (now : Instant) (q : Query) (id : String) (answer : List Address) (x : π) :
    (inMemory (Registry.empty.register (.steady id answer))).asks now ⟨q, [id]⟩ (x, Memory.empty) =
      [⟨id, q, .ok answer⟩] := by
  have hresolved : (inMemory (Registry.empty.register (.steady (π := π) id answer))).resolved
      ⟨q, [id]⟩ = .ok [.steady id answer] := by
    rw [resolved_eq_ok_iff]
    refine ⟨by simp, ?_⟩
    have hfind := Table.find?_insert (Table.empty : Table (Provider π)) id id (.steady id answer)
    rw [if_pos rfl] at hfind
    show [_] = [_]
    exact congrArg (fun p => [p]) hfind
  rw [asks_eq, turnsOf, hresolved]
  dsimp only
  rw [turns_cons, turn_memory]
  cases q with
  | text s => cases answer <;> rfl
  | point c => cases answer <;> rfl

/-- A place whose doubles read back is found again as it was. -/
theorem lookup_again_gotham :
    let registry : Registry Unit := Registry.empty.register (.steady "p" [Sample.gotham])
    let now : Instant := ⟨2024, 1, 1, 0, 0, 0, 0, by decide⟩
    let r : Request := ⟨.text "gotham city", ["p"]⟩
    let s' := (((inMemory registry).lookup now r).run.run ((), Memory.empty)).2
    now.InRange ∧ Sample.gotham.InRange ∧
      ⟨"p", r.query, .ok [Sample.gotham]⟩ ∈ (inMemory registry).asks now r ((), Memory.empty) ∧
      (inMemory registry).asks now r s' = [] ∧
      ((inMemory registry).lookup now r).run.run s' = (.ok [Sample.gotham], s') := by
  intro registry now r s'
  have htime : now.InRange := by decide
  have hrange : Sample.gotham.InRange := by decide +kernel
  have hdoubles : ∀ a ∈ [Sample.gotham], ∀ x ∈ a.doubles, x.ReadsBack := by decide +kernel
  have hanswer : ⟨"p", r.query, .ok [Sample.gotham]⟩ ∈
      (inMemory registry).asks now r ((), Memory.empty) := by
    rw [asks_steady]
    exact List.mem_singleton.mpr rfl
  obtain ⟨-, hasks, again, -, hsecond, hsame⟩ := lookup_again registry now now r ((), Memory.empty)
    "p" [Sample.gotham] rfl (by simp) htime (by simpa using hrange) hanswer
  refine ⟨htime, hrange, hanswer, hasks, ?_⟩
  rwa [hsame.mpr hdoubles] at hsecond

/-- A place whose latitude is read as its upper neighbour. -/
def drifting : Address where
  coordinates := ⟨.ofDecimal false ⟨9368737009602555, -15⟩, .ofNat 40⟩
  providedBy := "p"

/-- The place that is read. -/
def drifted : Address where
  coordinates := ⟨.ofDecimal false ⟨9368737009602556, -15⟩, .ofNat 40⟩
  providedBy := "p"

theorem reread?_drifting : drifting.reread? = some drifted := by decide +kernel

/-- The second result may be another one than the first. -/
theorem lookup_again_drifting :
    let registry : Registry Unit := Registry.empty.register (.steady "p" [drifting])
    let now : Instant := ⟨2024, 1, 1, 0, 0, 0, 0, by decide⟩
    let r : Request := ⟨.text "x", ["p"]⟩
    let first := ((inMemory registry).lookup now r).run.run ((), Memory.empty)
    let second := ((inMemory registry).lookup now r).run.run first.2
    drifting.InRange ∧ first.1 = .ok [drifting] ∧ (inMemory registry).asks now r first.2 = [] ∧
      second = (.ok [drifted], first.2) ∧ drifted ≠ drifting := by
  intro registry now r first second
  have hagain : [drifting].mapM Address.reread? = some [drifted] := by
    rw [List.mapM_cons, reread?_drifting]
    rfl
  have hanswer : ⟨"p", r.query, .ok [drifting]⟩ ∈
      (inMemory registry).asks now r ((), Memory.empty) := by
    rw [asks_steady]
    exact List.mem_singleton.mpr rfl
  obtain ⟨hfirst, hsecond, hasks⟩ := lookup_reread registry now now r ((), Memory.empty) "p"
    [drifting] [drifted] rfl (by simp) (by decide) hagain hanswer
  exact ⟨by decide +kernel, hfirst, hasks, hsecond, by decide +kernel⟩

end Geocoder

end Gazetteer
