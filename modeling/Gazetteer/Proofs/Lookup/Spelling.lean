import Gazetteer.Proofs.Lookup.Memory
import Gazetteer.Proofs.Lookup.Transparency

/-!
# Spellings of a text share an entry

The signature of a text leaves out the blanks at its ends, while a provider is asked the text as it
stands.  So two spellings of a text have one entry.  If the answer to the first spelling is kept, it
is also the result for the second one, whatever the provider would say to that; if it is not kept,
the provider is asked the second spelling.

    a request of one provider is its turn, settled                     (lookup_single)
    the result for the second spelling, with and without a store       (lookup_respelled)
    a provider that tells two spellings apart                          (lookup_respelled_apart)
-/

namespace Gazetteer

variable {π σ : Type}

namespace Provider

/-- The answer to a text depends on the text alone. -/
def AnswersTexts (p : Provider π) (f : String → Except ProviderError (List Address)) : Prop :=
  ∀ s x, ((p.geocode s).run x).1 = f s

/-- A provider that answers texts by a function, and finds no point. -/
def ofTexts (id : String) (f : String → Except ProviderError (List Address)) : Provider π where
  id := id
  label := id
  geocode s := ExceptT.mk (return f s)
  reverse _ := return []

theorem answersTexts_ofTexts (id : String) (f : String → Except ProviderError (List Address)) :
    (ofTexts id f : Provider π).AnswersTexts f := fun _ _ => rfl

end Provider

namespace Geocoder

/-! ## A request of one provider -/

theorem settle_of_not_found (g : Geocoder π σ) (now : Instant) (q : Query) (p : Provider π)
    (t : Turn) (h : t.found? = none) : g.settle now q p t = pure () := by
  cases t with
  | kept addresses => cases h
  | asked answer =>
    cases answer with
    | error e => rfl
    | ok addresses =>
      cases addresses with
      | nil => rfl
      | cons first others => cases h

theorem resolved_single (g : Geocoder π σ) (q : Query) (p : Provider π)
    (hp : g.registry.find? p.id = some p) : g.resolved ⟨q, [p.id]⟩ = .ok [p] :=
  (resolved_eq_ok_iff g _ _).mpr ⟨by simp, by simp [hp]⟩

theorem lookup_single (g : Geocoder π σ) (now : Instant) (q : Query) (p : Provider π)
    (hp : g.registry.find? p.id = some p) (s : π × σ) :
    (g.lookup now ⟨q, [p.id]⟩).run.run s =
      (.ok (((g.turn q p).run s).1.found?.getD []),
        ((g.settle now q p ((g.turn q p).run s).1).run ((g.turn q p).run s).2).2) := by
  rw [lookup_run, resolved_single g q p hp]
  dsimp only
  rw [firstAnswer_cons]
  cases hfound : ((g.turn q p).run s).1.found? with
  | some addresses => rfl
  | none =>
    rw [settle_of_not_found g now q p _ hfound]
    rfl

theorem turnsOf_single (g : Geocoder π σ) (q : Query) (p : Provider π)
    (hp : g.registry.find? p.id = some p) (s : π × σ) :
    g.turnsOf ⟨q, [p.id]⟩ s = [(p, ((g.turn q p).run s).1)] := by
  rw [turnsOf_of_resolved (resolved_single g q p hp), turns_cons]
  split <;> rfl

/-! ## Two requests with one signature -/

/-- The addresses of an answer; none if it is a failure. -/
def addressesOf : Except ProviderError (List Address) → List Address
  | .ok as => as
  | .error _ => []

/-- The entry that is read when an answer has been given for its signature. -/
def entryOf (now : Instant) : Except ProviderError (List Address) → Option CacheEntry
  | .ok (first :: others) => CacheEntry.ofText? (CacheEntry.mk now (first :: others)).text
  | _ => none

theorem found?_asked (answer : Except ProviderError (List Address)) :
    (Turn.asked answer).found?.getD [] = addressesOf answer := by
  cases answer with
  | error e => rfl
  | ok addresses => cases addresses <;> rfl

section OneProvider

variable {registry : Registry π} {p : Provider π} (hp : registry.find? p.id = some p)
  {f : String → Except ProviderError (List Address)} (hf : p.AnswersTexts f)

include hp hf

theorem lookup_uncached (now : Instant) (t : String) (s : π × σ) :
    (((uncached registry).lookup now ⟨.text t, [p.id]⟩).run.run s).1 =
      .ok (addressesOf (f t)) := by
  have hanswer : ((p.ask (.text t)).run s.1).1 = f t := hf t s.1
  rw [lookup_single _ now _ p hp, turn_uncached, hanswer]
  exact congrArg Except.ok (found?_asked (f t))

/-- After a request of the provider alone, the memory has its answer's entry. -/
theorem entry_of_first (now : Instant) (s : String) (x : π) :
    (((inMemory registry).after [.lookup now ⟨.text s, [p.id]⟩] (x, Memory.empty)).2.find?
      ⟨(Query.text s).signature, p.id⟩).bind CacheEntry.ofText? = entryOf now (f s) := by
  have hanswer : ((p.ask (.text s)).run x).1 = f s := hf s x
  have hafter : (inMemory registry).after [.lookup now ⟨.text s, [p.id]⟩] (x, Memory.empty) =
      (((inMemory registry).lookup now ⟨.text s, [p.id]⟩).run.run (x, Memory.empty)).2 := rfl
  rw [hafter, lookup_single _ now _ p hp, turn_memory]
  simp only [Memory.find?_empty, Option.bind_none, hanswer]
  cases f s with
  | error e => rfl
  | ok addresses =>
    cases addresses with
    | nil => rfl
    | cons first others =>
      rw [settle_answer _ now _ p _ (List.cons_ne_nil first others), keep_memory]
      dsimp only
      rw [Memory.find?_insert, if_pos rfl, Option.bind_some, entryOf]

/-- The turn that a second spelling has. -/
theorem turn_of_second (now : Instant) (s t : String)
    (hst : (Query.text s).signature = (Query.text t).signature) (x : π) :
    (((inMemory registry).turn (.text t) p).run
      ((inMemory registry).after [.lookup now ⟨.text s, [p.id]⟩] (x, Memory.empty))).1 =
      (entryOf now (f s)).elim (.asked (f t)) fun e => .kept e.addresses := by
  have he := entry_of_first hp hf now s x
  generalize (inMemory registry).after [.lookup now ⟨.text s, [p.id]⟩] (x, Memory.empty) = s' at he
  obtain ⟨x', m⟩ := s'
  rw [turn_memory, ← hst, he]
  cases entryOf now (f s) with
  | some e => rfl
  | none => exact congrArg Turn.asked (hf t x')

theorem lookup_of_second (now now' : Instant) (s t : String)
    (hst : (Query.text s).signature = (Query.text t).signature) (x : π) :
    (((inMemory registry).lookup now' ⟨.text t, [p.id]⟩).run.run
      ((inMemory registry).after [.lookup now ⟨.text s, [p.id]⟩] (x, Memory.empty))).1 =
      .ok ((entryOf now (f s)).elim (addressesOf (f t)) (·.addresses)) := by
  rw [lookup_single _ now' _ p hp, turn_of_second hp hf now s t hst x]
  cases entryOf now (f s) with
  | some e => rfl
  | none => exact congrArg Except.ok (found?_asked (f t))

end OneProvider

/-- What becomes of a text after another spelling of it, when one provider that answers texts by `f`
is asked alone. -/
structure Respelled (registry : Registry π) (p : Provider π)
    (f : String → Except ProviderError (List Address)) (now now' : Instant) (s t : String)
    (s' : π × Memory) : Prop where
  /-- The first spelling's entry is the result, or else the provider's answer. -/
  result : (((inMemory registry).lookup now' ⟨.text t, [p.id]⟩).run.run s').1 =
    .ok ((entryOf now (f s)).elim (addressesOf (f t)) (·.addresses))
  /-- The provider is asked only if there is no such entry. -/
  asks : (inMemory registry).asks now' ⟨.text t, [p.id]⟩ s' =
    (entryOf now (f s)).elim [⟨p.id, .text t, f t⟩] fun _ => []
  /-- Without a store, the provider's answer is the result. -/
  plain : ∀ y : π × Memory, (((uncached registry).lookup now' ⟨.text t, [p.id]⟩).run.run y).1 =
    .ok (addressesOf (f t))
  /-- The store makes no difference if the spellings are answered alike and the answer is read back
  as it was. -/
  same : f s = f t → (∀ e, entryOf now (f s) = some e → f s = .ok e.addresses) →
    ∀ y : π × Memory, (((inMemory registry).lookup now' ⟨.text t, [p.id]⟩).run.run s').1 =
      (((uncached registry).lookup now' ⟨.text t, [p.id]⟩).run.run y).1
  /-- Trimmed texts are answered alike, and all texts by a provider that overlooks blanks at their
  ends. -/
  alike : (Text.trim s = s ∧ Text.trim t = t) ∨ (∀ u, f (Text.trim u) = f u) → f s = f t

/-- Two texts with one signature, looked up one after the other with one provider alone on an empty
memory: the second one has the entry of the first, and its own answer only if there is none. -/
theorem lookup_respelled (registry : Registry π) (p : Provider π)
    (hp : registry.find? p.id = some p) (f : String → Except ProviderError (List Address))
    (hf : p.AnswersTexts f) (now now' : Instant) (s t : String)
    (hst : (Query.text s).signature = (Query.text t).signature) (x : π) :
    Respelled registry p f now now' s t
      ((inMemory registry).after [.lookup now ⟨.text s, [p.id]⟩] (x, Memory.empty)) := by
  refine ⟨?result, ?asks, ?plain, ?same, ?alike⟩
  case result => exact lookup_of_second hp hf now now' s t hst x
  case asks =>
    rw [asks_eq, turnsOf_single _ _ p hp, turn_of_second hp hf now s t hst x]
    cases entryOf now (f s) <;> rfl
  case plain => exact lookup_uncached hp hf now' t
  case same =>
    intro hanswers hfaithful y
    rw [lookup_of_second hp hf now now' s t hst x, lookup_uncached hp hf now' t]
    cases he : entryOf now (f s) with
    | none => rfl
    | some e =>
      rw [← hanswers, hfaithful e he]
      rfl
  case alike =>
    have htrim : Text.trim s = Text.trim t := by
      have hlist := congrArg String.toList hst
      rwa [Query.signature, Query.signature, String.toList_append, String.toList_append,
        List.append_cancel_left_eq, String.toList_inj] at hlist
    rintro (⟨hs, ht⟩ | hblind)
    · rw [← hs, htrim, ht]
    · rw [← hblind s, htrim, hblind t]

/-- The place by its name, and by its name with blanks around it. -/
theorem lookup_respelled_gotham :
    let registry : Registry Unit := Sample.registry
    let p : Provider Unit := .sample
    let f : String → Except ProviderError (List Address) := fun s => .ok (Sample.named s)
    let now : Instant := ⟨2024, 1, 1, 0, 0, 0, 0, by decide⟩
    let s := "gotham city"
    let t := " gotham city "
    registry.find? p.id = some p ∧ p.AnswersTexts f ∧
      (Query.text s).signature = (Query.text t).signature ∧
      Respelled registry p f now now s t
        ((inMemory registry).after [.lookup now ⟨.text s, [p.id]⟩] ((), Memory.empty)) := by
  intro registry p f now s t
  have hp : registry.find? p.id = some p := rfl
  have hf : p.AnswersTexts f := fun _ _ => rfl
  have hst : (Query.text s).signature = (Query.text t).signature := by decide +kernel
  exact ⟨hp, hf, hst, lookup_respelled registry p hp f hf now now s t hst ()⟩

/-- A provider that knows one spelling only is asked no other, so that these have its result. -/
theorem lookup_respelled_apart :
    let f : String → Except ProviderError (List Address) := fun s =>
      .ok (if s = "gotham city" then [Sample.gotham] else [])
    let registry : Registry Unit := Registry.empty.register (.ofTexts "p" f)
    let now : Instant := ⟨2024, 1, 1, 0, 0, 0, 0, by decide⟩
    let first : Request := ⟨.text "gotham city", ["p"]⟩
    let second : Request := ⟨.text " gotham city ", ["p"]⟩
    let s' := (inMemory registry).after [.lookup now first] ((), Memory.empty)
    first.query.signature = second.query.signature ∧
      (Provider.ofTexts "p" f : Provider Unit).AnswersTexts f ∧
      (((inMemory registry).lookup now second).run.run s').1 = .ok [Sample.gotham] ∧
      (((uncached registry).lookup now second).run.run s').1 = .ok [] := by
  intro f registry now first second s'
  have hp : registry.find? "p" = some (.ofTexts "p" f) :=
    (Registry.find?_register _ _ _).trans (if_pos rfl)
  have hf : (Provider.ofTexts "p" f : Provider Unit).AnswersTexts f :=
    Provider.answersTexts_ofTexts "p" f
  have hst : first.query.signature = second.query.signature := by decide +kernel
  have hentry : entryOf now (f "gotham city") = some ⟨now, [Sample.gotham]⟩ :=
    Sample.entry_gotham now (by decide)
  refine ⟨hst, hf, ?_, lookup_uncached hp hf now " gotham city " s'⟩
  have hresult := lookup_of_second hp hf now now _ _ hst ()
  rw [hentry] at hresult
  exact hresult

end Geocoder

end Gazetteer
