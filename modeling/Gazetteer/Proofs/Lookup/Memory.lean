import Gazetteer.Proofs.Lookup.Run

/-!
# Lookups on memory

During a lookup on memory nothing changes in the memory until a provider answers.  Then the answer is
the result, and is kept under the signature of the query and the id of the provider; the rest of the
memory is as it was.

An entry that is kept decides its provider's turn: the provider is not asked, and the entry is what
the turn finds.  So it stays, whatever is looked up, until the memory is cleared.

    an answer in the record of a lookup is its result and is kept              (answered_lookup)
    without one, the memory is as it was                                     (unanswered_lookup)
    the turn of a provider that has an entry finds the entry               (kept_of_mem_turnsOf)
    an entry outlives a lookup, so it outlives lookups         (entry_lookup, entry_lookups)
-/

namespace Gazetteer

variable {π : Type}

namespace Geocoder

/-! ## What a lookup leaves -/

/-- An answer among the questions of the turns is the result, and is kept.  The induction is on the
providers: a turn that finds something is the last one, so its question is the last too. -/
theorem answered_firstAnswer (registry : Registry π) (now : Instant) (q : Query)
    (ps : List (Provider π)) (x : π) (m : Memory) (id : String) (as : List Address) (hne : as ≠ [])
    (h : ⟨id, q, .ok as⟩ ∈ asksOf q ((inMemory registry).turns q ps (x, m))) :
    ∃ x', ((inMemory registry).firstAnswer now q ps).run (x, m) =
      (as, (x', m.insert ⟨q.signature, id⟩ (CacheEntry.mk now as).text)) := by
  induction ps generalizing x with
  | nil => cases h
  | cons p rest ih =>
    rw [turns_cons, turn_memory, asksOf_cons] at h
    rw [firstAnswer_cons, turn_memory]
    cases hkept : (m.find? ⟨q.signature, p.id⟩).bind CacheEntry.ofText? with
    | some e =>
      rw [hkept] at h
      cases h
    | none =>
      rw [hkept] at h
      dsimp only at h ⊢
      cases hfound : (Turn.asked ((p.ask q).run x).1).found? with
      | none =>
        rw [hfound] at h
        rcases List.mem_append.mp h with h | h
        · -- a question that found nothing did not have this answer
          have heq := List.mem_singleton.mp h
          injection heq with _ _ hanswer
          rw [← hanswer] at hfound
          obtain ⟨first, others, rfl⟩ := List.exists_cons_of_ne_nil hne
          cases hfound
        · exact ih _ h
      | some found =>
        obtain ⟨hanswer, hfoundNe⟩ := Turn.of_found?_asked hfound
        rw [hfound] at h
        rcases List.mem_append.mp h with h | h
        · have heq := List.mem_singleton.mp h
          injection heq with hid _ has
          rw [hanswer] at has
          injection has with has
          subst hid has
          refine ⟨((p.ask q).run x).2, ?_⟩
          dsimp only
          rw [hanswer, settle_answer _ now q p as hne, keep_memory]
        · cases h

theorem answered_lookup (registry : Registry π) (now : Instant) (r : Request) (s : π × Memory)
    (id : String) (as : List Address) (hne : as ≠ [])
    (h : ⟨id, r.query, .ok as⟩ ∈ (inMemory registry).asks now r s) :
    (∃ ps, (inMemory registry).resolved r = .ok ps) ∧
      ∃ x', ((inMemory registry).lookup now r).run.run s =
        (.ok as, (x', s.2.insert ⟨r.query.signature, id⟩ (CacheEntry.mk now as).text)) := by
  obtain ⟨x, m⟩ := s
  rw [asks_eq, turnsOf] at h
  rw [lookup_run]
  cases hps : (inMemory registry).resolved r with
  | error e =>
    rw [hps] at h
    cases h
  | ok ps =>
    rw [hps] at h
    obtain ⟨x', hrun⟩ := answered_firstAnswer registry now r.query ps x m id as hne h
    refine ⟨⟨ps, rfl⟩, x', ?_⟩
    dsimp only
    rw [hrun]

/-- Without such an answer the memory is as it was. -/
theorem unanswered_firstAnswer (registry : Registry π) (now : Instant) (q : Query)
    (ps : List (Provider π)) (x : π) (m : Memory)
    (h : ∀ id as, ⟨id, q, .ok as⟩ ∈ asksOf q ((inMemory registry).turns q ps (x, m)) → as = []) :
    (((inMemory registry).firstAnswer now q ps).run (x, m)).2.2 = m := by
  induction ps generalizing x with
  | nil => rfl
  | cons p rest ih =>
    rw [turns_cons, turn_memory, asksOf_cons] at h
    rw [firstAnswer_cons, turn_memory]
    cases hkept : (m.find? ⟨q.signature, p.id⟩).bind CacheEntry.ofText? with
    | some e => rfl
    | none =>
      rw [hkept] at h
      dsimp only at h ⊢
      cases hfound : (Turn.asked ((p.ask q).run x).1).found? with
      | none =>
        rw [hfound] at h
        exact ih _ fun id as hmem => h id as (List.mem_append_right _ hmem)
      | some as =>
        obtain ⟨hanswer, hne⟩ := Turn.of_found?_asked hfound
        have hmem : (⟨p.id, q, .ok as⟩ : Ask) ∈ (Turn.asked ((p.ask q).run x).1).asks p.id q := by
          rw [hanswer]
          exact List.mem_singleton.mpr rfl
        exact absurd (h p.id as (List.mem_append_left _ hmem)) hne

theorem unanswered_lookup (registry : Registry π) (now : Instant) (r : Request) (s : π × Memory)
    (h : ∀ id as, ⟨id, r.query, .ok as⟩ ∈ (inMemory registry).asks now r s → as = []) :
    (((inMemory registry).lookup now r).run.run s).2.2 = s.2 := by
  rw [asks_eq, turnsOf] at h
  rw [lookup_run]
  cases hps : (inMemory registry).resolved r with
  | error e => rfl
  | ok ps =>
    rw [hps] at h
    exact unanswered_firstAnswer registry now r.query ps s.1 s.2 h

/-- A lookup leaves the memory as it was, or with the one answer that it got. -/
theorem memory_of_lookup (registry : Registry π) (now : Instant) (r : Request) (s : π × Memory) :
    (((inMemory registry).lookup now r).run.run s).2.2 = s.2 ∨
      ∃ id as, as ≠ [] ∧ ⟨id, r.query, .ok as⟩ ∈ (inMemory registry).asks now r s ∧
        (((inMemory registry).lookup now r).run.run s).2.2 =
          s.2.insert ⟨r.query.signature, id⟩ (CacheEntry.mk now as).text := by
  by_cases h : ∃ id as, as ≠ [] ∧ ⟨id, r.query, .ok as⟩ ∈ (inMemory registry).asks now r s
  · obtain ⟨id, as, hne, hask⟩ := h
    obtain ⟨-, x', hrun⟩ := answered_lookup registry now r s id as hne hask
    exact .inr ⟨id, as, hne, hask, by rw [hrun]⟩
  · refine .inl (unanswered_lookup registry now r s fun id as hask => ?_)
    exact Classical.byContradiction fun hne => h ⟨id, as, hne, hask⟩

/-! ## Entries -/

/-- A turn of a lookup is what it would be at any time during the lookup. -/
theorem turn_of_mem_turns (registry : Registry π) (q : Query) (ps : List (Provider π)) (x : π)
    (m : Memory) (p : Provider π) (t : Turn) (h : (p, t) ∈ (inMemory registry).turns q ps (x, m)) :
    ∃ x', (((inMemory registry).turn q p).run (x', m)).1 = t := by
  induction ps generalizing x with
  | nil => cases h
  | cons p' rest ih =>
    rw [turns_cons] at h
    rcases List.mem_cons.mp h with heq | hmem
    · cases heq
      exact ⟨x, rfl⟩
    · have hmemory : (((inMemory registry).turn q p').run (x, m)).2.2 = m := by
        rw [turn_memory]
        cases (m.find? ⟨q.signature, p'.id⟩).bind CacheEntry.ofText? <;> rfl
      have hstate : (((inMemory registry).turn q p').run (x, m)).2 =
          ((((inMemory registry).turn q p').run (x, m)).2.1, m) := Prod.ext rfl hmemory
      split at hmem
      · cases hmem
      · rw [hstate] at hmem
        exact ih _ hmem

theorem turn_of_mem_turnsOf (registry : Registry π) (r : Request) (x : π) (m : Memory)
    (p : Provider π) (t : Turn) (h : (p, t) ∈ (inMemory registry).turnsOf r (x, m)) :
    ∃ x', (((inMemory registry).turn r.query p).run (x', m)).1 = t := by
  rw [turnsOf] at h
  cases hps : (inMemory registry).resolved r with
  | error e =>
    rw [hps] at h
    cases h
  | ok ps =>
    rw [hps] at h
    exact turn_of_mem_turns registry r.query ps x m p t h

section Entry

variable {registry : Registry π} {m : Memory} {key : CacheKey} {e : CacheEntry}

/-- What a turn finds in the memory is the entry of its provider. -/
theorem kept_of_mem_turnsOf (he : (m.find? key).bind CacheEntry.ofText? = some e) (r : Request)
    (x : π) (p : Provider π) (t : Turn) (hr : r.query.signature = key.signature)
    (hp : p.id = key.provider) (h : (p, t) ∈ (inMemory registry).turnsOf r (x, m)) :
    t = .kept e.addresses := by
  obtain ⟨x', rfl⟩ := turn_of_mem_turnsOf registry r x m p t h
  have hkey : (⟨r.query.signature, p.id⟩ : CacheKey) = key := by rw [hr, hp]
  rw [turn_memory, hkey, he]

/-- A provider without an entry is asked when its turn comes. -/
theorem asked_of_mem_turnsOf (hnone : (m.find? key).bind CacheEntry.ofText? = none) (r : Request)
    (x : π) (p : Provider π) (t : Turn) (hr : r.query.signature = key.signature)
    (hp : p.id = key.provider) (h : (p, t) ∈ (inMemory registry).turnsOf r (x, m)) :
    ∃ answer, t = .asked answer := by
  obtain ⟨x', rfl⟩ := turn_of_mem_turnsOf registry r x m p t h
  have hkey : (⟨r.query.signature, p.id⟩ : CacheKey) = key := by rw [hr, hp]
  rw [turn_memory, hkey, hnone]
  exact ⟨_, rfl⟩

/-- The provider of an entry is not asked. -/
theorem never_asked (he : (m.find? key).bind CacheEntry.ofText? = some e) (now : Instant)
    (r : Request) (x : π) (hr : r.query.signature = key.signature) :
    ∀ a ∈ (inMemory registry).asks now r (x, m), a.provider ≠ key.provider := by
  intro a ha hprovider
  rw [asks_eq] at ha
  obtain ⟨⟨p, t⟩, hmem, ha⟩ := List.mem_flatMap.mp ha
  cases t with
  | kept addresses => cases ha
  | asked answer =>
    obtain rfl := List.mem_singleton.mp ha
    cases kept_of_mem_turnsOf he r x p _ hr hprovider hmem

/-- An entry outlives a lookup: it could be written over only by an answer of its provider, which is
not asked. -/
theorem entry_lookup (he : (m.find? key).bind CacheEntry.ofText? = some e) (now : Instant)
    (r : Request) (x : π) :
    ((((inMemory registry).lookup now r).run.run (x, m)).2.2.find? key).bind CacheEntry.ofText? =
      some e := by
  rcases memory_of_lookup registry now r (x, m) with h | ⟨id, as, -, hask, h⟩
  · rw [h, he]
  · rw [h, Memory.find?_insert]
    have hne : key ≠ ⟨r.query.signature, id⟩ := by
      rintro rfl
      exact never_asked he now r x rfl _ hask rfl
    rw [if_neg hne, he]

/-- It outlives lookups one after the other, and none of them asks its provider again. -/
theorem entry_lookups (he : (m.find? key).bind CacheEntry.ofText? = some e)
    (actions : List Action) (hlookups : Action.clear ∉ actions) (x : π) :
    (((inMemory registry).after actions (x, m)).2.find? key).bind CacheEntry.ofText? = some e ∧
      ∀ a ∈ (inMemory registry).runAsks actions (x, m), a.provider = key.provider →
        a.query.signature ≠ key.signature := by
  induction actions generalizing x m with
  | nil => exact ⟨he, fun a ha => by cases ha⟩
  | cons action rest ih =>
    cases action with
    | clear => exact absurd List.mem_cons_self hlookups
    | lookup now r =>
      have hrest : Action.clear ∉ rest := fun h => hlookups (List.mem_cons_of_mem _ h)
      obtain ⟨hlast, hasks⟩ := ih (entry_lookup he now r x) hrest
        (((inMemory registry).lookup now r).run.run (x, m)).2.1
      refine ⟨hlast, fun a ha hprovider hsignature => ?_⟩
      rw [runAsks_cons] at ha
      rcases List.mem_append.mp ha with ha | ha
      · have hquery := (mem_asks (inMemory registry) now r (x, m) a ha).1
        rw [hquery] at hsignature
        exact never_asked he now r x hsignature a ha hprovider
      · exact hasks a ha hprovider hsignature

end Entry

end Geocoder

end Gazetteer
