import Mathlib.Data.Nat.Find
import Gazetteer.Field.View
import Gazetteer.Proofs.Lookup.Record
import Gazetteer.Proofs.Steps

/-!
# Fields are looked up and shown in order

The values of a field that are not empty are looked up one after the other, each in the state that
the ones before it have left.  The first fault of a lookup ends the view.  Only when all values are
looked up are their first addresses shown, in the same order, and the first fault of these ends the
view as well.

    f.stateAt g now 0 values s i          the state that the values before place i leave
    f.outcomeAt? g now 0 values s i       what comes of the value at place i, if it is not empty
    f.firstAt? g now 0 values s i         its first address

    one value, and the rest of the field              (resolve_cons_ok, resolve_cons_error)
    the whole field, or up to its first fault         (resolve_ok, resolve_error)
    the view                                          (shown_in_order)
-/

namespace Gazetteer

/-- If something is true of a place, there is a first place of which it is true. -/
theorem exists_first {p : Nat → Prop} (h : ∃ i, p i) : ∃ i, p i ∧ ∀ j < i, ¬ p j := by
  classical
  exact ⟨Nat.find h, Nat.find_spec h, fun _ hj => Nat.find_min h hj⟩

variable {π σ : Type}

namespace FieldLookup

/-! ## One value after the other -/

/-- Makes the query of a value and looks it up. -/
def find (f : FieldLookup) (g : Geocoder π σ) (now : Instant) (value : FieldValue) :
    ExceptT Error (LookupM π σ) (List Address) := do
  let query ← value.query f.direction
  g.lookup now ⟨query, f.providers⟩

/-- What comes of a value, and the state after it.  An empty value is passed over. -/
def step (f : FieldLookup) (g : Geocoder π σ) (now : Instant) (value : FieldValue) (s : π × σ) :
    Option (Except Error (List Address)) × (π × σ) :=
  if value.isEmpty then (none, s)
  else (some ((f.find g now value).run.run s).1, ((f.find g now value).run.run s).2)

/-- The state that the values before a place leave.  The places of values and the times of their
lookups are counted from `delta`. -/
def stateAt (f : FieldLookup) (g : Geocoder π σ) (now : Nat → Instant) (delta : Nat)
    (values : List FieldValue) (s : π × σ) (i : Nat) : π × σ :=
  ((values.zipIdx delta).take i).foldl (fun s (value, n) => (f.step g (now n) value s).2) s

/-- What comes of the value at a place, if it is not empty. -/
def outcomeAt? (f : FieldLookup) (g : Geocoder π σ) (now : Nat → Instant) (delta : Nat)
    (values : List FieldValue) (s : π × σ) (i : Nat) : Option (Except Error (List Address)) :=
  values[i]?.bind fun value =>
    (f.step g (now (delta + i)) value (f.stateAt g now delta values s i)).1

def first? : Except Error (List Address) → Option Address
  | .ok (first :: _) => some first
  | _ => none

/-- The first address that is found for the value at a place. -/
def firstAt? (f : FieldLookup) (g : Geocoder π σ) (now : Nat → Instant) (delta : Nat)
    (values : List FieldValue) (s : π × σ) (i : Nat) : Option Address :=
  (f.outcomeAt? g now delta values s i).bind first?

/-- The first addresses of a field with their places. -/
def firsts (f : FieldLookup) (g : Geocoder π σ) (now : Nat → Instant) (delta : Nat)
    (values : List FieldValue) (s : π × σ) : List (Nat × Address) :=
  (List.range values.length).filterMap fun i =>
    (f.firstAt? g now delta values s i).map (delta + i, ·)

theorem find_run (f : FieldLookup) (g : Geocoder π σ) (now : Instant) (value : FieldValue)
    (s : π × σ) : (f.find g now value).run.run s =
      match value.query f.direction with
      | .error e => (.error e, s)
      | .ok q => (g.lookup now ⟨q, f.providers⟩).run.run s := by
  unfold find
  cases value.query f.direction <;> rfl

section Cons

variable (f : FieldLookup) (g : Geocoder π σ) (now : Nat → Instant) (delta : Nat)
  (value : FieldValue) (rest : List FieldValue) (s : π × σ) (i : Nat)

theorem stateAt_succ : f.stateAt g now delta (value :: rest) s (i + 1) =
    f.stateAt g now (delta + 1) rest (f.step g (now delta) value s).2 i := rfl

theorem outcomeAt?_succ : f.outcomeAt? g now delta (value :: rest) s (i + 1) =
    f.outcomeAt? g now (delta + 1) rest (f.step g (now delta) value s).2 i := by
  have hplace : delta + (i + 1) = delta + 1 + i := by omega
  rw [outcomeAt?, outcomeAt?, stateAt_succ, hplace, List.getElem?_cons_succ]

theorem firsts_cons : f.firsts g now delta (value :: rest) s =
    (((f.step g (now delta) value s).1.bind first?).map (delta, ·)).toList ++
      f.firsts g now (delta + 1) rest (f.step g (now delta) value s).2 := by
  have hrest : ((fun i => (f.firstAt? g now delta (value :: rest) s i).map (delta + i, ·)) ∘
      Nat.succ) = fun i => (f.firstAt? g now (delta + 1) rest
        (f.step g (now delta) value s).2 i).map (delta + 1 + i, ·) := by
    funext i
    have hplace : delta + (i + 1) = delta + 1 + i := by omega
    simp only [Function.comp_apply, Nat.succ_eq_add_one, firstAt?, outcomeAt?_succ, hplace]
  have hfirst : f.firstAt? g now delta (value :: rest) s 0 =
      (f.step g (now delta) value s).1.bind first? := rfl
  rw [firsts, List.length_cons, List.range_succ_eq_map, List.filterMap_cons, List.filterMap_map,
    hrest, hfirst, firsts]
  cases (f.step g (now delta) value s).1.bind first? <;> rfl

/-- A field is its first value, unless that is empty, and the rest. -/
theorem resolve_cons : f.resolve g now delta (value :: rest) =
    if value.isEmpty then f.resolve g now (delta + 1) rest
    else do
      let found ← f.find g (now delta) value
      let others ← f.resolve g now (delta + 1) rest
      return ((first? (.ok found)).map (delta, ·)).toList ++ others := by
  rw [resolve]
  split
  · rfl
  · rw [find, bind_assoc]
    congr 1
    funext query
    congr 1
    funext found
    congr 1
    funext others
    cases found <;> rfl

/-- If the first value has no fault, the rest is looked up in the state that it leaves. -/
theorem resolve_cons_ok (h : ∀ e, (f.step g (now delta) value s).1 ≠ some (.error e))
    {others : Except Error (List (Nat × Address))} {s' : π × σ}
    (hrest : (f.resolve g now (delta + 1) rest).run.run (f.step g (now delta) value s).2 =
      (others, s')) :
    (f.resolve g now delta (value :: rest)).run.run s =
      (others.map ((((f.step g (now delta) value s).1.bind first?).map (delta, ·)).toList ++ ·),
        s') := by
  rw [resolve_cons]
  unfold step at h hrest ⊢
  split
  · next hempty =>
    rw [if_pos hempty] at hrest
    rw [hrest]
    cases others <;> rfl
  · next hempty =>
    rw [if_neg hempty] at h hrest
    cases hfound : ((f.find g (now delta) value).run.run s).1 with
    | error e => exact absurd (congrArg some hfound) (h e)
    | ok found =>
      rw [run_bind_ok (Prod.ext hfound rfl)]
      cases others with
      | error e => rw [run_bind_error _ hrest]; rfl
      | ok others => rw [run_bind_ok hrest]; rfl

theorem resolve_cons_error (e : Error) (h : (f.step g (now delta) value s).1 = some (.error e)) :
    (f.resolve g now delta (value :: rest)).run.run s =
      (.error e, (f.step g (now delta) value s).2) := by
  rw [resolve_cons]
  unfold step at h ⊢
  split
  · next hempty =>
    rw [if_pos hempty] at h
    cases h
  · next hempty =>
    rw [if_neg hempty] at h
    exact run_bind_error _ (Prod.ext (Option.some.inj h) rfl)

end Cons

/-! ## The whole field -/

section Resolve

variable (f : FieldLookup) (g : Geocoder π σ) (now : Nat → Instant) (delta : Nat)
  (values : List FieldValue) (s : π × σ)

/-- Without a fault, all values are looked up. -/
theorem resolve_ok (h : ∀ i e, f.outcomeAt? g now delta values s i ≠ some (.error e)) :
    (f.resolve g now delta values).run.run s =
      (.ok (f.firsts g now delta values s), f.stateAt g now delta values s values.length) := by
  induction values generalizing delta s with
  | nil => rfl
  | cons value rest ih =>
    have hfirst := h 0
    have hrest := ih (delta + 1) (f.step g (now delta) value s).2 fun i e => by
      rw [← outcomeAt?_succ]
      exact h (i + 1) e
    rw [resolve_cons_ok f g now delta value rest s hfirst hrest, firsts_cons]
    rfl

/-- The first fault ends the lookups: the state is what that value leaves. -/
theorem resolve_error (i : Nat) (e : Error)
    (hfault : f.outcomeAt? g now delta values s i = some (.error e))
    (hbefore : ∀ j < i, ∀ e', f.outcomeAt? g now delta values s j ≠ some (.error e')) :
    (f.resolve g now delta values).run.run s =
      (.error e, f.stateAt g now delta values s (i + 1)) := by
  induction values generalizing delta s i with
  | nil => cases hfault
  | cons value rest ih =>
    cases i with
    | zero => rw [resolve_cons_error f g now delta value rest s e hfault]; rfl
    | succ i =>
      have hfirst := hbefore 0 (Nat.zero_lt_succ i)
      rw [outcomeAt?_succ] at hfault
      have hrest := ih (delta + 1) (f.step g (now delta) value s).2 i hfault fun j hj e' => by
        rw [← outcomeAt?_succ]
        exact hbefore (j + 1) (Nat.succ_lt_succ hj) e'
      rw [resolve_cons_ok f g now delta value rest s hfirst hrest]
      rfl

/-- What is resolved are the first addresses: a fault would have ended the lookups. -/
theorem firsts_of_resolved {resolved : List (Nat × Address)} {s' : π × σ}
    (h : (f.resolve g now delta values).run.run s = (.ok resolved, s')) :
    resolved = f.firsts g now delta values s := by
  have hlookups : ∀ i e, f.outcomeAt? g now delta values s i ≠ some (.error e) := by
    intro i e he
    obtain ⟨i, ⟨e, he⟩, hbefore⟩ := exists_first
      (p := fun i => ∃ e, f.outcomeAt? g now delta values s i = some (.error e)) ⟨i, e, he⟩
    rw [resolve_error f g now delta values s i e he fun j hj e' he' => hbefore j hj ⟨e', he'⟩] at h
    cases h
  rw [resolve_ok f g now delta values s hlookups] at h
  cases h
  rfl

theorem mem_firsts (n : Nat) (a : Address) :
    (n, a) ∈ f.firsts g now 0 values s ↔ f.firstAt? g now 0 values s n = some a := by
  unfold firsts
  rw [List.mem_filterMap]
  constructor
  · rintro ⟨i, -, hi⟩
    obtain ⟨b, hb, heq⟩ := Option.map_eq_some_iff.mp hi
    rw [Nat.zero_add, Prod.mk.injEq] at heq
    rw [← heq.1, ← heq.2]
    exact hb
  · intro h
    have hlt : n < values.length := by
      apply Classical.byContradiction
      intro hge
      have hnone : values[n]? = none := List.getElem?_eq_none (by omega)
      rw [firstAt?, outcomeAt?, hnone] at h
      cases h
    exact ⟨n, List.mem_range.mpr hlt, by rw [h, Nat.zero_add]; rfl⟩

theorem firsts_ascending : (f.firsts g now delta values s).Pairwise fun a b => a.1 < b.1 := by
  unfold firsts
  rw [List.pairwise_filterMap]
  apply List.pairwise_lt_range.imp
  intro i j hij a ha b hb
  obtain ⟨_, -, rfl⟩ := Option.map_eq_some_iff.mp ha
  obtain ⟨_, -, rfl⟩ := Option.map_eq_some_iff.mp hb
  exact Nat.add_lt_add_left hij delta

end Resolve

/-! ## The view -/

/-- The item that is shown for the value at a place. -/
def itemAt? (f : FieldLookup) (g : Geocoder π σ) (now : Nat → Instant) (format : ExportFormat)
    (values : List FieldValue) (s : π × σ) (i : Nat) : Option ShownItem :=
  (f.firstAt? g now 0 values s i).bind fun a => ((a.render format).map (ShownItem.mk i)).toOption

/-- A view of a field as its result and the state that it leaves. -/
structure InOrder (f : FieldLookup) (g : Geocoder π σ) (now : Nat → Instant)
    (format : ExportFormat) (values : List FieldValue) (s : π × σ)
    (result : Except Error (List ShownItem)) (s' : π × σ) : Prop where
  /-- Without a fault, there is an item for each value with an address, in the order of the field. -/
  items : (∀ i e, f.outcomeAt? g now 0 values s i ≠ some (.error e)) →
    (∀ i a e, f.firstAt? g now 0 values s i = some a → a.render format ≠ .error e) →
    result = .ok ((List.range values.length).filterMap (f.itemAt? g now format values s)) ∧
      s' = f.stateAt g now 0 values s values.length
  /-- The first fault of a lookup is the result, and no later value is looked up. -/
  lookupFault : ∀ i e, f.outcomeAt? g now 0 values s i = some (.error e) →
    (∀ j < i, ∀ e', f.outcomeAt? g now 0 values s j ≠ some (.error e')) →
    result = .error e ∧ s' = f.stateAt g now 0 values s (i + 1)
  /-- If no lookup has a fault, the first fault of showing is the result, and all values have been
  looked up. -/
  showFault : (∀ i e, f.outcomeAt? g now 0 values s i ≠ some (.error e)) →
    ∀ i a e, f.firstAt? g now 0 values s i = some a → a.render format = .error e →
    (∀ j < i, ∀ b e', f.firstAt? g now 0 values s j = some b → b.render format ≠ .error e') →
    result = .error e ∧ s' = f.stateAt g now 0 values s values.length
  /-- Items are in the order of their places, and an item is shown if and only if it is the output
  of the first address at its place. -/
  exact : ∀ items, result = .ok items → (items.map (·.delta)).Pairwise (· < ·) ∧
    ∀ item, item ∈ items ↔ ∃ a, f.firstAt? g now 0 values s item.delta = some a ∧
      a.render format = .ok item.output

section Shown

variable (f : FieldLookup) (g : Geocoder π σ) (now : Nat → Instant) (format : ExportFormat)
  (values : List FieldValue) (s : π × σ)

/-- Shows an address as the item of a place. -/
def showItem (a : Nat × Address) : Except Error ShownItem :=
  (a.2.render format).map (ShownItem.mk a.1)

theorem shown_of_resolved {resolved : List (Nat × Address)} {s' : π × σ}
    (h : (f.resolve g now 0 values).run.run s = (.ok resolved, s')) :
    (f.shown g now format values).run.run s = (resolved.mapM (showItem format), s') :=
  run_bind_ok h

theorem showItem_ok_iff (a : Nat × Address) (item : ShownItem) :
    showItem format a = .ok item ↔ a.1 = item.delta ∧ a.2.render format = .ok item.output := by
  obtain ⟨delta, output⟩ := item
  unfold showItem
  cases a.2.render format with
  | error e => simp [Except.map]
  | ok text => simp [Except.map]

theorem showItem_error_iff (a : Nat × Address) (e : Error) :
    showItem format a = .error e ↔ a.2.render format = .error e := by
  unfold showItem
  cases a.2.render format <;> simp [Except.map]

/-- The items of the first addresses are those of the places. -/
theorem filterMap_showItem : (f.firsts g now 0 values s).filterMap
    (fun a => (showItem format a).toOption) =
      (List.range values.length).filterMap (f.itemAt? g now format values s) := by
  rw [firsts, List.filterMap_filterMap]
  congr 1
  funext i
  rw [Nat.zero_add, itemAt?]
  cases f.firstAt? g now 0 values s i <;> rfl

theorem shown_ok (hlookups : ∀ i e, f.outcomeAt? g now 0 values s i ≠ some (.error e))
    (hshows : ∀ i a e, f.firstAt? g now 0 values s i = some a → a.render format ≠ .error e) :
    (f.shown g now format values).run.run s =
      (.ok ((List.range values.length).filterMap (f.itemAt? g now format values s)),
        f.stateAt g now 0 values s values.length) := by
  have hall : ∀ a ∈ f.firsts g now 0 values s, ∃ item, showItem format a = .ok item := by
    rintro ⟨i, a⟩ hmem
    cases hitem : showItem format (i, a) with
    | ok item => exact ⟨item, rfl⟩
    | error e =>
      exact absurd ((showItem_error_iff format (i, a) e).mp hitem)
        (hshows i a e ((mem_firsts f g now values s i a).mp hmem))
  rw [shown_of_resolved f g now format values s (resolve_ok f g now 0 values s hlookups),
    mapM_ok hall, filterMap_showItem]

theorem shown_lookupFault (i : Nat) (e : Error)
    (hfault : f.outcomeAt? g now 0 values s i = some (.error e))
    (hbefore : ∀ j < i, ∀ e', f.outcomeAt? g now 0 values s j ≠ some (.error e')) :
    (f.shown g now format values).run.run s =
      (.error e, f.stateAt g now 0 values s (i + 1)) :=
  run_bind_error _ (resolve_error f g now 0 values s i e hfault hbefore)

theorem shown_showFault (hlookups : ∀ i e, f.outcomeAt? g now 0 values s i ≠ some (.error e))
    (i : Nat) (a : Address) (e : Error) (hfirst : f.firstAt? g now 0 values s i = some a)
    (hfault : a.render format = .error e)
    (hbefore : ∀ j < i, ∀ b e', f.firstAt? g now 0 values s j = some b →
      b.render format ≠ .error e') :
    (f.shown g now format values).run.run s =
      (.error e, f.stateAt g now 0 values s values.length) := by
  have hmem := (mem_firsts f g now values s i a).mpr hfirst
  have hascending := firsts_ascending f g now 0 values s
  rw [shown_of_resolved f g now format values s (resolve_ok f g now 0 values s hlookups)]
  obtain ⟨before, after, hsplit⟩ := List.append_of_mem hmem
  have hshown : ∀ b ∈ before, ∃ item, showItem format b = .ok item := by
    rintro ⟨j, b⟩ hb
    rw [hsplit] at hascending
    have hlt : j < i := (List.pairwise_append.mp hascending).2.2 (j, b) hb (i, a) (by simp)
    have hfound := (mem_firsts f g now values s j b).mp (by rw [hsplit]; simp [hb])
    cases hitem : showItem format (j, b) with
    | ok item => exact ⟨item, rfl⟩
    | error e' =>
      exact absurd ((showItem_error_iff format (j, b) e').mp hitem) (hbefore j hlt b e' hfound)
  rw [hsplit, mapM_error hshown ((showItem_error_iff format (i, a) e).mpr hfault)]

theorem itemAt?_eq_some_iff (i : Nat) (item : ShownItem) :
    f.itemAt? g now format values s i = some item ↔
      item.delta = i ∧ ∃ a, f.firstAt? g now 0 values s i = some a ∧
        a.render format = .ok item.output := by
  have hshow (a : Address) : ((a.render format).map (ShownItem.mk i)).toOption = some item ↔
      showItem format (i, a) = .ok item := by
    rw [showItem]
    cases (a.render format).map (ShownItem.mk i) <;> simp [Except.toOption]
  rw [itemAt?, Option.bind_eq_some_iff]
  simp only [hshow, showItem_ok_iff]
  constructor
  · rintro ⟨a, ha, hi, hout⟩
    exact ⟨hi.symm, a, ha, hout⟩
  · rintro ⟨hi, a, ha, hout⟩
    exact ⟨a, ha, hi.symm, hout⟩

theorem items_ascending : (((List.range values.length).filterMap
    (f.itemAt? g now format values s)).map (·.delta)).Pairwise (· < ·) := by
  rw [List.pairwise_map, List.pairwise_filterMap]
  apply List.pairwise_lt_range.imp
  intro i j hij a ha b hb
  rw [((itemAt?_eq_some_iff f g now format values s i a).mp ha).1,
    ((itemAt?_eq_some_iff f g now format values s j b).mp hb).1]
  exact hij

theorem mem_items (item : ShownItem) :
    item ∈ (List.range values.length).filterMap (f.itemAt? g now format values s) ↔
      ∃ a, f.firstAt? g now 0 values s item.delta = some a ∧
        a.render format = .ok item.output := by
  rw [← filterMap_showItem, List.mem_filterMap]
  constructor
  · rintro ⟨⟨i, a⟩, hmem, hitem⟩
    cases hshow : showItem format (i, a) with
    | error e =>
      rw [hshow] at hitem
      cases hitem
    | ok shown =>
      rw [hshow] at hitem
      cases hitem
      obtain ⟨hi, hout⟩ := (showItem_ok_iff format (i, a) item).mp hshow
      dsimp only at hi
      subst hi
      exact ⟨a, (mem_firsts f g now values s _ a).mp hmem, hout⟩
  · rintro ⟨a, hfirst, hout⟩
    have hshow := (showItem_ok_iff format (item.delta, a) item).mpr ⟨rfl, hout⟩
    exact ⟨_, (mem_firsts f g now values s _ a).mpr hfirst, by rw [hshow]; rfl⟩

/-- A view with items has had no fault: the first one would have ended it. -/
theorem items_of_shown (items : List ShownItem)
    (h : ((f.shown g now format values).run.run s).1 = .ok items) :
    items = (List.range values.length).filterMap (f.itemAt? g now format values s) := by
  cases hresolve : (f.resolve g now 0 values).run.run s with
  | mk result s' =>
    cases result with
    | error e =>
      have hshown : (f.shown g now format values).run.run s = (.error e, s') :=
        run_bind_error _ hresolve
      rw [hshown] at h
      cases h
    | ok resolved =>
      rw [shown_of_resolved f g now format values s hresolve] at h
      rw [eq_filterMap_of_mapM h, firsts_of_resolved f g now 0 values s hresolve,
        filterMap_showItem]

/-- A field is shown value by value, in order, up to the first fault. -/
theorem shown_in_order : f.InOrder g now format values s
    ((f.shown g now format values).run.run s).1 ((f.shown g now format values).run.run s).2 := by
  refine ⟨?items, ?lookupFault, ?showFault, ?exact⟩
  case items =>
    intro hlookups hshows
    rw [shown_ok f g now format values s hlookups hshows]
    exact ⟨rfl, rfl⟩
  case lookupFault =>
    intro i e hfault hbefore
    rw [shown_lookupFault f g now format values s i e hfault hbefore]
    exact ⟨rfl, rfl⟩
  case showFault =>
    intro hlookups i a e hfirst hfault hbefore
    rw [shown_showFault f g now format values s hlookups i a e hfirst hfault hbefore]
    exact ⟨rfl, rfl⟩
  case exact =>
    intro items hitems
    obtain rfl := items_of_shown f g now format values s items hitems
    exact ⟨items_ascending f g now format values s, mem_items f g now format values s⟩

end Shown

end FieldLookup

end Gazetteer
