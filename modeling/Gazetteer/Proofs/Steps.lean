import Mathlib.Data.List.Forall2

/-!
# Steps that may fail

A step keeps its changes of the state when it fails, and what would follow it is left out.  What is
done to each item of a list in turn is done if it can be done to every one of them, and fails as the
first one that it fails for.
-/

namespace Gazetteer

section

variable {ε ε' α β : Type}

theorem bind_eq_ok_iff {m : Except ε α} {f : α → Except ε β} {b : β} :
    m >>= f = .ok b ↔ ∃ a, m = .ok a ∧ f a = .ok b := by
  cases m <;> simp [bind, Except.bind]

theorem mapError_eq_ok_iff {m : Except ε α} {f : ε → ε'} {a : α} :
    m.mapError f = .ok a ↔ m = .ok a := by
  cases m with
  | error e => exact ⟨nofun, nofun⟩
  | ok b => exact ⟨fun h => congrArg _ (Except.ok.inj h), fun h => congrArg _ (Except.ok.inj h)⟩

theorem mapM_ok {h : α → Except ε β} {l : List α} (hl : ∀ a ∈ l, ∃ b, h a = .ok b) :
    l.mapM h = .ok (l.filterMap fun a => (h a).toOption) := by
  induction l with
  | nil => rfl
  | cons a rest ih =>
    obtain ⟨b, hb⟩ := hl a (by simp)
    have hrest := ih fun a ha => hl a (by simp [ha])
    rw [List.mapM_cons, hb, hrest, List.filterMap_cons, hb]
    rfl

theorem mapM_error {h : α → Except ε β} {before after : List α} {a : α} {e : ε}
    (hbefore : ∀ b ∈ before, ∃ c, h b = .ok c) (ha : h a = .error e) :
    (before ++ a :: after).mapM h = .error e := by
  rw [List.mapM_append, mapM_ok hbefore, List.mapM_cons, ha]
  rfl

theorem mapM_eq_ok_iff {h : α → Except ε β} {l : List α} {r : List β} :
    l.mapM h = .ok r ↔ List.Forall₂ (fun a b => h a = .ok b) l r := by
  induction l generalizing r with
  | nil =>
    rw [List.mapM_nil, List.forall₂_nil_left_iff]
    exact ⟨fun heq => (Except.ok.inj heq).symm, fun heq => congrArg _ heq.symm⟩
  | cons a rest ih =>
    rw [List.mapM_cons, List.forall₂_cons_left_iff, bind_eq_ok_iff]
    simp only [bind_eq_ok_iff, ih]
    constructor
    · rintro ⟨b, hb, bs, hbs, heq⟩
      exact ⟨b, bs, hb, hbs, (Except.ok.inj heq).symm⟩
    · rintro ⟨b, bs, hb, hbs, rfl⟩
      exact ⟨b, hb, bs, hbs, rfl⟩

theorem eq_filterMap_of_mapM {h : α → Except ε β} {l : List α} {r : List β}
    (hl : l.mapM h = .ok r) : r = l.filterMap fun a => (h a).toOption := by
  have heach := mapM_eq_ok_iff.mp hl
  clear hl
  induction heach with
  | nil => rfl
  | cons hb _ ih =>
    rw [List.filterMap_cons, hb, ← ih]
    rfl

/-- Two results are in step if both failed with one error, or both succeeded with related values. -/
inductive InStep (r : α → β → Prop) : Except ε α → Except ε β → Prop where
  | failed (e : ε) : InStep r (.error e) (.error e)
  | succeeded {a : α} {b : β} (h : r a b) : InStep r (.ok a) (.ok b)

/-- Two steps that are in step for every item are in step for the list. -/
theorem InStep.mapM {γ : Type} {r : β → γ → Prop} {f : α → Except ε β} {g : α → Except ε γ}
    {l : List α} (h : ∀ a ∈ l, InStep r (f a) (g a)) :
    InStep (List.Forall₂ r) (l.mapM f) (l.mapM g) := by
  induction l with
  | nil => exact .succeeded .nil
  | cons a rest ih =>
    have hfirst := h a List.mem_cons_self
    have hrest := ih fun b hb => h b (List.mem_cons_of_mem _ hb)
    rw [List.mapM_cons, List.mapM_cons]
    generalize f a = first at hfirst ⊢
    generalize g a = first' at hfirst ⊢
    cases hfirst with
    | failed e => exact .failed e
    | succeeded hr =>
      generalize rest.mapM f = others at hrest ⊢
      generalize rest.mapM g = others' at hrest ⊢
      cases hrest with
      | failed e => exact .failed e
      | succeeded hall => exact .succeeded (.cons hr hall)

theorem mapM_isSome_iff {h : α → Option β} {l : List α} :
    (l.mapM h).isSome ↔ ∀ a ∈ l, (h a).isSome := by
  induction l with
  | nil => simp
  | cons a rest ih =>
    rw [List.forall_mem_cons, ← ih, List.mapM_cons]
    cases h a with
    | none => simp
    | some b => cases rest.mapM h <;> simp

end

section

variable {σ ε α β : Type} {m : ExceptT ε (StateM σ) α} {s s' : σ}

theorem run_bind_ok {k : α → ExceptT ε (StateM σ) β} {a : α} (h : m.run.run s = (.ok a, s')) :
    (m >>= k).run.run s = (k a).run.run s' := by
  rw [ExceptT.run_bind, StateT.run_bind, h]
  rfl

theorem run_bind_error (k : α → ExceptT ε (StateM σ) β) {e : ε}
    (h : m.run.run s = (.error e, s')) : (m >>= k).run.run s = (.error e, s') := by
  rw [ExceptT.run_bind, StateT.run_bind, h]
  rfl

/-- The state after a step, and after what follows it and changes nothing. -/
theorem run_bind_state {k : α → ExceptT ε (StateM σ) β} (hk : ∀ a t, ((k a).run.run t).2 = t) :
    ((m >>= k).run.run s).2 = (m.run.run s).2 := by
  cases h : m.run.run s with
  | mk result t =>
    cases result with
    | ok a => rw [run_bind_ok h, hk]
    | error e => rw [run_bind_error k h]

end

end Gazetteer
