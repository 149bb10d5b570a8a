import Mathlib.Data.List.Count
import Mathlib.Data.List.Dedup
import Gazetteer.Proofs.Provider.Registered
import Gazetteer.Proofs.Settings.Persistence

/-!
# Preferred providers come first

To prefer a provider is to move it to the front of the order.  After a session the preferred ids
stand in front, each once and the last one first, and the others follow as they stood before.  Keys
and addresses that are set on the way leave the order alone, as long as there is one.

    preferring (id :: ids) order = preferring ids (order after id is preferred)   (preferring_cons)
    the order after a session is `preferring` of the order before it                    (order_run)
    each preferred id once, the others as often as before               (preferred_first_in_order)
-/

namespace Gazetteer.Settings

/-! ## Orders -/

/-- An order after ids have been preferred one after the other: first these, each once and the one
that was preferred last in front, and then the others. -/
def preferring (ids : List ProviderId) (order : List String) : List String :=
  ids.dedup.reverse.map ProviderId.name ++
    order.filter fun name => name ∉ ids.map ProviderId.name

theorem preferring_nil (order : List String) : preferring [] order = order := by
  simp [preferring]

theorem name_mem_map_iff {id : ProviderId} {ids : List ProviderId} :
    id.name ∈ ids.map ProviderId.name ↔ id ∈ ids := by
  simp [ProviderId.name_inj]

/-- The first id to be preferred is in front for a start, and gives way to all that come later. -/
theorem preferring_cons (id : ProviderId) (ids : List ProviderId) (order : List String) :
    preferring (id :: ids) order = preferring ids (id.name :: order.filter (· != id.name)) := by
  have hothers : order.filter (fun name => name ∉ (id :: ids).map ProviderId.name) =
      (order.filter (· != id.name)).filter fun name => name ∉ ids.map ProviderId.name := by
    rw [List.filter_filter]
    apply List.filter_congr
    intro name _
    by_cases h : name = id.name <;> simp [h]
  rw [preferring, preferring, hothers, List.filter_cons, List.dedup_cons]
  by_cases hid : id ∈ ids
  · simp only [hid, name_mem_map_iff, if_true, not_true, decide_false, Bool.false_eq_true, if_false]
  · simp only [hid, name_mem_map_iff, if_false, not_false_iff, decide_true, if_true,
      List.reverse_cons, List.map_append, List.map_singleton, List.append_assoc,
      List.singleton_append]

theorem preferring_append (early late : List ProviderId) (order : List String) :
    preferring (early ++ late) order = preferring late (preferring early order) := by
  induction early generalizing order with
  | nil => rw [List.nil_append, preferring_nil]
  | cons id early ih => rw [List.cons_append, preferring_cons, ih, ← preferring_cons]

/-- What becomes of an order when ids are preferred one after the other. -/
structure Reordered (ids : List ProviderId) (before after : List String) : Prop where
  order : after = preferring ids before
  once : ∀ id ∈ ids, after.count id.name = 1
  kept : ∀ name, (∀ id ∈ ids, id.name ≠ name) → after.count name = before.count name

theorem reordered_preferring (ids : List ProviderId) (order : List String) :
    Reordered ids order (preferring ids order) where
  order := rfl
  once id hid := by
    have hfront : (ids.dedup.reverse.map ProviderId.name).count id.name = 1 := by
      rw [List.count_map_of_injective _ _ fun _ _ => ProviderId.name_inj.mp, List.count_reverse,
        List.count_dedup, if_pos hid]
    have hrest : (order.filter fun name => name ∉ ids.map ProviderId.name).count id.name = 0 := by
      apply List.count_eq_zero.mpr
      intro hmem
      exact (of_decide_eq_true (List.mem_filter.mp hmem).2) (name_mem_map_iff.mpr hid)
    rw [preferring, List.count_append, hfront, hrest]
  kept name hname := by
    have hother : name ∉ ids.map ProviderId.name := by
      simpa using hname
    have hfront : (ids.dedup.reverse.map ProviderId.name).count name = 0 := by
      apply List.count_eq_zero.mpr
      simpa using hname
    rw [preferring, List.count_append, hfront, List.count_filter (by simpa using hother),
      Nat.zero_add]

theorem prefer_prefer (s : Settings) (id : ProviderId) : (s.prefer id).prefer id = s.prefer id := by
  simp [prefer, List.filter_filter]

namespace Session

/-! ## Sessions -/

/-- The ids that are preferred by steps, in order. -/
def preferred (steps : List Step) : List ProviderId :=
  steps.filterMap fun
    | .prefer id => some id
    | _ => none

/-- No settings are loaded over those in memory, and there is an order to begin with, or no key is
set: the first key that is set makes an order where there is none. -/
structure KeepsOrder (d : Session) (steps : List Step) : Prop where
  unloaded : .load true ∉ steps
  opened : d.settings.providersOrder ≠ [] ∨ ∀ id key, .setApiKey id key ∉ steps

/-- A step leaves the order alone, but for an id that is preferred; and there is an order then. -/
theorem order_step {d : Session} {step : Step} {steps : List Step}
    (h : d.KeepsOrder (step :: steps)) :
    (d.step step).KeepsOrder steps ∧
      (d.step step).settings.providersOrder =
        preferring (preferred [step]) d.settings.providersOrder := by
  obtain ⟨hunloaded, hopened⟩ := h
  have hrest : .load true ∉ steps := fun hmem => hunloaded (List.mem_cons_of_mem _ hmem)
  have hlater : d.settings.providersOrder ≠ [] ∨ ∀ id key, .setApiKey id key ∉ steps :=
    hopened.imp id fun hnone id key hmem => hnone id key (List.mem_cons_of_mem _ hmem)
  cases step with
  | prefer id =>
    have hfront := preferring_cons id [] d.settings.providersOrder
    rw [preferring_nil] at hfront
    exact ⟨⟨hrest, .inl (List.cons_ne_nil _ _)⟩, hfront.symm⟩
  | setApiKey id key =>
    have hne : d.settings.providersOrder ≠ [] := by
      obtain hne | hnone := hopened
      · exact hne
      · exact absurd List.mem_cons_self (hnone id key)
    have horder : (d.step (.setApiKey id key)).settings.providersOrder =
        d.settings.providersOrder := by
      simp [Session.step, setApiKey, changeProvider, hne]
    exact ⟨⟨hrest, .inl (horder ▸ hne)⟩, horder.trans (preferring_nil _).symm⟩
  | setBaseUrl id url => exact ⟨⟨hrest, hlater⟩, (preferring_nil _).symm⟩
  | save order => exact ⟨⟨hrest, hlater⟩, (preferring_nil _).symm⟩
  | load adopt =>
    cases adopt with
    | true => exact absurd List.mem_cons_self hunloaded
    | false =>
      have hsettings : (d.step (.load false)).settings = d.settings := by
        rw [Session.step]
        split <;> rfl
      refine ⟨⟨hrest, ?_⟩, ?_⟩
      · rwa [hsettings]
      · rw [hsettings]
        exact (preferring_nil _).symm

theorem order_run {d : Session} {steps : List Step} (h : d.KeepsOrder steps) :
    (d.run steps).settings.providersOrder =
      preferring (preferred steps) d.settings.providersOrder := by
  induction steps generalizing d with
  | nil => exact (preferring_nil _).symm
  | cons step steps ih =>
    obtain ⟨hlater, horder⟩ := order_step h
    calc (d.run (step :: steps)).settings.providersOrder
        = ((d.step step).run steps).settings.providersOrder := rfl
      _ = preferring (preferred steps)
            (preferring (preferred [step]) d.settings.providersOrder) := by
        rw [ih hlater, horder]
      _ = preferring (preferred (step :: steps)) d.settings.providersOrder := by
        rw [← preferring_append, preferred, preferred, ← List.filterMap_append]
        rfl

/-- Preferring is moving to the front.  After a session, the preferred ids are in front, each
once and the last one first, and the others follow as they stood, each as often as before.  To
prefer an id twice in a row is to prefer it once. -/
theorem preferred_first_in_order {d : Session} {steps : List Step} (h : d.KeepsOrder steps) :
    Reordered (preferred steps) d.settings.providersOrder (d.run steps).settings.providersOrder ∧
      ∀ id later, (d.run steps).run (.prefer id :: .prefer id :: later) =
        (d.run steps).run (.prefer id :: later) := by
  constructor
  · rw [order_run h]
    exact reordered_preferring _ _
  · intro id later
    have htwice : ((d.run steps).step (.prefer id)).step (.prefer id) =
        (d.run steps).step (.prefer id) := by
      simp only [Session.step, prefer_prefer]
    exact congrArg (fun d : Session => d.run later) htwice

/-- Ids that stand in the order twice, and one that comes into it. -/
theorem preferred_first_in_order_twice :
    let d : Session :=
      ⟨{ providersOrder := ["mapsco", "x", "Mapsco", "mapsco", "x"] }, ⟨"c/s.toml", "c", .absent⟩⟩
    let steps : List Step := [.prefer .mapsCo, .setApiKey .mapsCo "", .prefer .openStreetMap,
      .save .byName, .setBaseUrl .test "", .prefer .mapsCo]
    d.KeepsOrder steps ∧
      Reordered [.mapsCo, .openStreetMap, .mapsCo] d.settings.providersOrder
        (d.run steps).settings.providersOrder ∧
      (d.run steps).settings.providersOrder = ["mapsco", "openstreetmap", "x", "Mapsco", "x"] ∧
      (d.run steps).run [.prefer .test, .prefer .test] = (d.run steps).run [.prefer .test] := by
  intro d steps
  have hkeeps : d.KeepsOrder steps := ⟨by simp [steps], .inl (by simp [d])⟩
  obtain ⟨hreordered, htwice⟩ := preferred_first_in_order hkeeps
  exact ⟨hkeeps, hreordered, by decide, htwice .test []⟩

end Session

end Gazetteer.Settings
