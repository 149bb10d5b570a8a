import Gazetteer.Proofs.Lookup.Fallback
import Gazetteer.Proofs.Lookup.Lasting
import Gazetteer.Proofs.Lookup.Repeat

/-!
# Lookups that find nothing

A lookup that finds nothing has asked all its providers in vain, or has come upon an entry without
addresses.  Such an entry ends a lookup like any other, and the providers from there on are not
asked.  The geocoder keeps no empty answers, so such an entry comes from elsewhere: from another
program, or from a file that was changed by hand.

    turns that find nothing are those of all providers                    (turns_of_vain)
    nothing found ↔ asked in vain, to the end or up to an empty entry     (lookup_empty_iff)
    an empty entry in the way of a provider that has an answer            (lookup_empty_unasked)
-/

namespace Gazetteer

variable {π σ : Type}

/-- The question was answered with no address, or with a failure. -/
def Ask.Vain (a : Ask) : Prop := ∀ as, a.answer = .ok as → as = []

namespace Geocoder

/-! ## Turns and questions -/

theorem length_turns_le (g : Geocoder π σ) (q : Query) (ps : List (Provider π)) (s : π × σ) :
    (g.turns q ps s).length ≤ ps.length := by
  induction ps generalizing s with
  | nil => exact Nat.le_refl 0
  | cons p rest ih =>
    rw [turns_cons]
    split
    · simp
    · exact Nat.succ_le_succ (ih _)

/-- As long as nothing is found, the next provider has its turn. -/
theorem turns_of_vain (g : Geocoder π σ) (q : Query) (ps : List (Provider π)) (s : π × σ)
    (h : ∀ turn ∈ g.turns q ps s, turn.2.found? = none) : (g.turns q ps s).map (·.1) = ps := by
  induction ps generalizing s with
  | nil => rfl
  | cons p rest ih =>
    rw [turns_cons] at h ⊢
    have hfirst := h _ List.mem_cons_self
    dsimp only at hfirst
    rw [hfirst] at h ⊢
    rw [List.map_cons]
    exact congrArg (p :: ·) (ih _ fun turn hturn => h turn (List.mem_cons_of_mem _ hturn))

theorem length_asksOf_le (q : Query) (turns : List (Provider π × Turn)) :
    (asksOf q turns).length ≤ turns.length := by
  induction turns with
  | nil => exact Nat.le_refl 0
  | cons turn rest ih =>
    obtain ⟨p, t⟩ := turn
    rw [asksOf_cons, List.length_append, List.length_cons]
    cases t with
    | kept addresses => exact Nat.le_succ_of_le (by simpa [Turn.asks] using ih)
    | asked answer =>
      simp only [Turn.asks, List.length_singleton]
      omega

/-- A turn that finds nothing is a question, so there are as many questions as turns. -/
theorem providers_of_vain (q : Query) (turns : List (Provider π × Turn))
    (h : ∀ turn ∈ turns, turn.2.found? = none) :
    (asksOf q turns).map (·.provider) = turns.map (·.1.id) := by
  induction turns with
  | nil => rfl
  | cons turn rest ih =>
    obtain ⟨p, t⟩ := turn
    have hfirst := h _ List.mem_cons_self
    have hrest := ih fun turn hturn => h turn (List.mem_cons_of_mem _ hturn)
    rw [asksOf_cons, List.map_append, List.map_cons, hrest]
    cases t with
    | kept addresses => cases hfirst
    | asked answer => rfl

/-! ## Nothing found -/

/-- What a turn finds is the result; so if there is none, it has found an empty entry. -/
theorem empty_entry_of_found (g : Geocoder π σ) (now : Instant) (r : Request) (s : π × σ)
    (hempty : ((g.lookup now r).run.run s).1 = .ok []) (p : Provider π) (t : Turn)
    (as : List Address) (h : (p, t) ∈ g.turnsOf r s) (hfound : t.found? = some as) :
    t = .kept [] := by
  obtain ⟨hresult, -⟩ := found_of_mem_turnsOf g now r s p t as h hfound
  have has : as = [] := (Except.ok.inj (hempty.symm.trans hresult)).symm
  subst has
  cases t with
  | kept addresses => rw [Option.some.inj hfound]
  | asked answer => exact absurd rfl (Turn.of_found?_asked hfound).2

/-- The question of a turn is in vain, unless its answer is the result. -/
theorem vain_of_empty (g : Geocoder π σ) (now : Instant) (r : Request) (s : π × σ)
    (hempty : ((g.lookup now r).run.run s).1 = .ok []) : ∀ a ∈ g.asks now r s, a.Vain := by
  intro a ha as hanswer
  apply Classical.byContradiction
  intro hne
  rw [asks_eq] at ha
  obtain ⟨⟨p, t⟩, hmem, ha⟩ := List.mem_flatMap.mp ha
  cases t with
  | kept addresses => cases ha
  | asked answer =>
    obtain rfl := List.mem_singleton.mp ha
    dsimp only at hanswer
    subst hanswer
    obtain ⟨first, others, rfl⟩ := List.exists_cons_of_ne_nil hne
    cases empty_entry_of_found g now r s hempty p _ _ hmem rfl

/-- Without an empty entry, every provider was asked. -/
theorem asked_all_of_empty (g : Geocoder π σ) (now : Instant) (r : Request) (s : π × σ)
    (ps : List (Provider π)) (hps : g.resolved r = .ok ps)
    (hempty : ((g.lookup now r).run.run s).1 = .ok [])
    (hentry : ¬ ∃ p, (p, .kept []) ∈ g.turnsOf r s) :
    (g.asks now r s).map (·.provider) = r.providers := by
  have hturns := turnsOf_of_resolved hps s
  have hnone : ∀ turn ∈ g.turns r.query ps s, turn.2.found? = none := by
    rintro ⟨p, t⟩ hmem
    rw [← hturns] at hmem
    apply Option.eq_none_iff_forall_ne_some.mpr
    intro as hfound
    have ht := empty_entry_of_found g now r s hempty p t as hmem hfound
    exact hentry ⟨p, ht ▸ hmem⟩
  have hids := map_id_of_registered g r.providers ps ((resolved_eq_ok_iff g r ps).mp hps).2
  have hall := turns_of_vain g r.query ps s hnone
  calc (g.asks now r s).map (·.provider)
      = (g.turns r.query ps s).map (·.1.id) := by
        rw [asks_eq, hturns, providers_of_vain r.query _ hnone]
    _ = ((g.turns r.query ps s).map (·.1)).map (·.id) := by rw [List.map_map]; rfl
    _ = r.providers := by rw [hall, hids]

/-- A lookup with a result has left a provider unasked, or has an answer that holds addresses. -/
theorem asked_less_of_found (g : Geocoder π σ) (now : Instant) (r : Request) (s : π × σ)
    (ps : List (Provider π)) (hps : g.resolved r = .ok ps) (as : List Address)
    (hresult : ((g.lookup now r).run.run s).1 = .ok as) (hne : as ≠ [])
    (hvain : ∀ a ∈ g.asks now r s, a.Vain) :
    (g.asks now r s).map (·.provider) ≠ r.providers := by
  obtain ⟨p, t, hmem, hfound⟩ := turn_of_lookup g now r s as hresult hne
  cases t with
  | asked answer =>
    obtain ⟨hanswer, -⟩ := Turn.of_found?_asked hfound
    exact absurd (hvain _ (ask_mem_of_turn g now r s p answer hmem) as hanswer) hne
  | kept addresses =>
    -- the last turn asks nothing, and no provider has more turns than the request names it
    obtain ⟨-, before, hturns⟩ := found_of_mem_turnsOf g now r s p _ as hmem hfound
    have hasks : g.asks now r s = asksOf r.query before := by
      rw [asks_eq, hturns, asksOf, List.flatMap_append]
      exact List.append_nil _
    have hfew := length_asksOf_le r.query before
    have hle := length_turns_le g r.query ps s
    rw [← turnsOf_of_resolved hps s, hturns, List.length_append, List.length_singleton] at hle
    have hids := map_id_of_registered g r.providers ps ((resolved_eq_ok_iff g r ps).mp hps).2
    intro hall
    have hlength := congrArg List.length hall
    rw [List.length_map, hasks, ← hids, List.length_map] at hlength
    omega

/-- A lookup finds nothing if and only if it is accepted, each question it asks is in vain, and
either each of its providers was asked, once and in order, or the last turn came upon an entry
without addresses. -/
theorem lookup_empty_iff (g : Geocoder π σ) (now : Instant) (r : Request) (s : π × σ) :
    ((g.lookup now r).run.run s).1 = .ok [] ↔
      (∃ ps, g.resolved r = .ok ps) ∧ (∀ a ∈ g.asks now r s, a.Vain) ∧
        ((g.asks now r s).map (·.provider) = r.providers ∨
          ∃ before p, g.turnsOf r s = before ++ [(p, .kept [])]) := by
  have hrun := congrArg Prod.fst (lookup_run g now r s)
  constructor
  · intro hempty
    cases hps : g.resolved r with
    | error e =>
      rw [hempty, hps] at hrun
      cases hrun
    | ok ps =>
      refine ⟨⟨ps, rfl⟩, vain_of_empty g now r s hempty, ?_⟩
      by_cases hentry : ∃ p, (p, .kept []) ∈ g.turnsOf r s
      · obtain ⟨p, hmem⟩ := hentry
        obtain ⟨-, before, hturns⟩ := found_of_mem_turnsOf g now r s p _ [] hmem rfl
        exact .inr ⟨before, p, hturns⟩
      · exact .inl (asked_all_of_empty g now r s ps hps hempty hentry)
  · rintro ⟨⟨ps, hps⟩, hvain, hasked | ⟨before, p, hturns⟩⟩
    · rw [hps] at hrun
      apply Classical.byContradiction
      intro hne
      refine asked_less_of_found g now r s ps hps _ hrun (fun hnil => hne ?_) hvain hasked
      rw [hrun]
      exact congrArg Except.ok hnil
    · have hmem : (p, .kept []) ∈ g.turnsOf r s := by simp [hturns]
      exact (found_of_mem_turnsOf g now r s p _ [] hmem rfl).1

/-- An entry without addresses hides a place that its provider knows. -/
theorem lookup_empty_unasked :
    let g : Geocoder Unit Memory := inMemory Sample.registry
    let now : Instant := ⟨2020, 1, 1, 0, 0, 0, 0, by decide⟩
    let r : Request := ⟨.text "gotham city", ["test_provider"]⟩
    let text := "\x7b\"stored_at\":\"2020-01-01T00:00:00Z\",\"result\":[]\x7d"
    let s : Unit × Memory := ((), ⟨[(⟨"geocode:gotham city", "test_provider"⟩, text)]⟩)
    ((g.lookup now r).run.run s).1 = .ok [] ∧ g.asks now r s = [] ∧
      ((Provider.sample.ask r.query).run ()).1 = .ok [Sample.gotham] := by
  intro g now r text s
  have he : (s.2.find? ⟨r.query.signature, "test_provider"⟩).bind CacheEntry.ofText? =
      some ⟨now, []⟩ := by
    decide +kernel
  obtain ⟨hresult, hasks⟩ :=
    lookup_hit Sample.registry now r () s.2 "test_provider" ⟨now, []⟩ rfl ⟨[.sample], rfl⟩ he
  exact ⟨congrArg Prod.fst hresult, hasks, rfl⟩

end Geocoder

end Gazetteer
