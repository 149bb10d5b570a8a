import Mathlib.Data.List.Induction
import Mathlib.Logic.Function.Basic
import Gazetteer.Proofs.Cache.Refinement

/-!
# Several handles on one file

A handle reads the file when it is first used, and from then on works on its own copy.  What the
handles do comes in any order, one operation after the other.

A change writes the whole copy of its handle.  So the file holds the copy of the handle that made the
last change: what this handle found when it was first used, with its own changes since.  Changes that
other handles made in the meantime are gone, entries as well as clearings.  If no handle that is
behind sets an entry, then nothing is lost, and the file holds the changes of all handles in order.

    an operation works on the handle's copy, a change also writes it                   (perform_ok)
    a handle's copy has the handle's own changes                                       (copy_after)
    the file holds the copy of the handle that made the last change                 (file_eq_copy)
    without a set by a handle that is behind, the file has all changes             (orderly_after)
    all of it                                                                   (last_copy_stays)
    runs that lose an entry and that bring one back                               (copies_collide)
-/

namespace Gazetteer

/-! ## What an operation does to a handle -/

namespace StoreOp

/-- The operation is there to change what is kept. -/
def changes : StoreOp → Bool
  | set _ _ | clear => true
  | _ => false

/-- What an operation makes of a table. -/
def effect : StoreOp → Table String → Table String
  | set key value, t => t.insert key.flat value
  | clear, _ => Table.empty
  | _, t => t

/-- What operations make of a table, one after the other. -/
def applied (t : Table String) (ops : List StoreOp) : Table String :=
  ops.foldl (fun t op => op.effect t) t

theorem applied_append (t : Table String) (early late : List StoreOp) :
    applied t (early ++ late) = applied (applied t early) late := List.foldl_append ..

theorem effect_of_not_changes {op : StoreOp} (h : op.changes = false) (t : Table String) :
    op.effect t = t := by
  cases op with
  | get key => rfl
  | set key value => cases h
  | clear => cases h
  | size => rfl
  | isEmpty => rfl

/-- An operation on a handle that holds a table leaves the handle with what it makes of the table.
If it is a change, the file holds that too; otherwise the file is as it was. -/
theorem run_ok {op : StoreOp} {d d' : Disk} {t : Table String} {answer : StoreAnswer}
    (hheld : d.held = .ok t) (h : (op.run Disk.store).run.run d = (.ok answer, d')) :
    d'.loaded = some (op.effect t) ∧
      if op.changes then Disk.tableOf d'.slot = .ok (op.effect t) else d'.slot = d.slot := by
  cases op with
  | get key =>
    rw [run, ExceptT.run_bind, StateT.run_bind, Disk.store,
      Disk.run_lifted (Disk.run_find? hheld key)] at h
    cases h
    exact ⟨rfl, rfl⟩
  | size =>
    rw [run, ExceptT.run_bind, StateT.run_bind, Disk.store,
      Disk.run_lifted (Disk.run_size hheld)] at h
    cases h
    exact ⟨rfl, rfl⟩
  | isEmpty =>
    rw [run, Store.isEmpty, bind_assoc, ExceptT.run_bind, StateT.run_bind, Disk.store,
      Disk.run_lifted (Disk.run_size hheld)] at h
    cases h
    exact ⟨rfl, rfl⟩
  | set key value =>
    rw [run, ExceptT.run_bind, StateT.run_bind, Disk.store] at h
    rcases Disk.insert_cases hheld with hok | herror | ⟨_, hcut⟩
    · obtain ⟨slot, hok, htable⟩ := hok key value
      rw [Disk.run_lifted hok] at h
      cases h
      exact ⟨rfl, htable⟩
    · obtain ⟨fault, herror⟩ := herror key value
      rw [Disk.run_lifted_error herror] at h
      cases h
    · obtain ⟨fault, slot, herror, -⟩ := hcut key value
      rw [Disk.run_lifted_error herror] at h
      cases h
  | clear =>
    rw [run, ExceptT.run_bind, StateT.run_bind, Disk.store] at h
    rcases Disk.clear_cases d with ⟨slot, hok, hempty⟩ | ⟨fault, herror⟩
    · rw [Disk.run_lifted hok] at h
      cases h
      refine ⟨rfl, ?_⟩
      simp [changes, effect, Disk.tableOf, hempty]
    · rw [Disk.run_lifted_error herror] at h
      cases h

end StoreOp

/-! ## Handles -/

/-- Handles on one cache file. -/
structure Handles (ι : Type) where
  slot : FileSlot
  /-- What each handle has read. -/
  loaded : ι → Option (Table String)

namespace Handles

variable {ι : Type}

/-- Fresh handles on a file. -/
def opened (slot : FileSlot) : Handles ι := ⟨slot, fun _ => none⟩

/-- One of the handles, and the file. -/
def disk (w : Handles ι) (i : ι) : Disk := ⟨w.loaded i, w.slot⟩

/-! ## Histories

What was done through which handle. -/

/-- The handle that made the last change. -/
def changer? (steps : List (ι × StoreOp)) : Option ι :=
  (steps.filter (·.2.changes)).getLast?.map (·.1)

theorem changer?_snoc (steps : List (ι × StoreOp)) (i : ι) (op : StoreOp) :
    changer? (steps ++ [(i, op)]) = if op.changes then some i else changer? steps := by
  unfold changer?
  rw [List.filter_append]
  cases h : op.changes <;> simp [h]

/-- Another handle has changed the file since this one was first used, and this one has not cleared
it since then. -/
def Behind (i : ι) (steps : List (ι × StoreOp)) : Prop :=
  ∃ front j op back, steps = front ++ (j, op) :: back ∧ j ≠ i ∧ op.changes = true ∧
    (∃ s ∈ front, s.1 = i) ∧ (i, StoreOp.clear) ∉ back

/-- No handle that is behind sets an entry. -/
def Orderly (steps : List (ι × StoreOp)) : Prop :=
  ∀ front i key value back, steps = front ++ (i, .set key value) :: back → ¬ Behind i front

theorem Behind.snoc {i j : ι} {steps : List (ι × StoreOp)} (h : Behind i steps) (op : StoreOp)
    (hclear : (j, op) ≠ (i, .clear)) : Behind i (steps ++ [(j, op)]) := by
  obtain ⟨front, k, change, back, rfl, hk, hchange, hused, hback⟩ := h
  refine ⟨front, k, change, back ++ [(j, op)], by simp, hk, hchange, hused, ?_⟩
  rw [List.mem_append, List.mem_singleton, not_or]
  exact ⟨hback, hclear.symm⟩

/-- A change by another handle leaves a handle that was used behind. -/
theorem behind_of_change {i j : ι} {steps : List (ι × StoreOp)} {op : StoreOp} (hj : j ≠ i)
    (hop : op.changes = true) (hused : ∃ s ∈ steps, s.1 = i) : Behind i (steps ++ [(j, op)]) :=
  ⟨steps, j, op, [], rfl, hj, hop, hused, by simp⟩

theorem Orderly.init {steps late : List (ι × StoreOp)} (h : Orderly (steps ++ late)) :
    Orderly steps := by
  rintro front i key value back rfl
  exact h front i key value (back ++ late) (by simp)

/-- Handles that are used one after the other are never behind. -/
theorem orderly_of_turns {r : ι → ι → Prop} (hr : ∀ i j, r i j → r j i → i = j)
    {steps : List (ι × StoreOp)} (h : steps.Pairwise fun s s' => r s.1 s'.1) : Orderly steps := by
  rintro front i key value back rfl ⟨front, j, op, late, rfl, hj, -, ⟨s, hs, rfl⟩, -⟩
  obtain ⟨hfront, -, hset⟩ := List.pairwise_append.mp h
  have hused := (List.pairwise_append.mp hfront).2.2 s hs (j, op) (by simp)
  have hback := hset (j, op) (by simp) (s.1, .set key value) (by simp)
  exact hj (hr j s.1 hback hused)

/-! ## Runs -/

variable [DecidableEq ι]

/-- An operation through one of the handles. -/
def perform (w : Handles ι) (i : ι) (op : StoreOp) : Except StoreFault StoreAnswer × Handles ι :=
  let (answer, d) := (op.run Disk.store).run.run (w.disk i)
  (answer, ⟨d.slot, Function.update w.loaded i d.loaded⟩)

/-- What operations leave, one after the other. -/
def after (w : Handles ι) (steps : List (ι × StoreOp)) : Handles ι :=
  steps.foldl (fun w s => (w.perform s.1 s.2).2) w

/-- The answers to operations one after the other. -/
def answers (w : Handles ι) : List (ι × StoreOp) → List (Except StoreFault StoreAnswer)
  | [] => []
  | (i, op) :: rest => (w.perform i op).1 :: answers (w.perform i op).2 rest

/-- No operation fails. -/
def Succeeds (w : Handles ι) (steps : List (ι × StoreOp)) : Prop :=
  ∃ good : List StoreAnswer, w.answers steps = good.map .ok

/-- The operations of one handle. -/
def own (i : ι) (steps : List (ι × StoreOp)) : List StoreOp :=
  (steps.filter (·.1 = i)).map (·.2)

theorem after_snoc (w : Handles ι) (steps : List (ι × StoreOp)) (i : ι) (op : StoreOp) :
    w.after (steps ++ [(i, op)]) = ((w.after steps).perform i op).2 := by
  rw [after, List.foldl_append]
  rfl

theorem after_append (w : Handles ι) (early late : List (ι × StoreOp)) :
    w.after (early ++ late) = (w.after early).after late := List.foldl_append ..

theorem answers_append (w : Handles ι) (early late : List (ι × StoreOp)) :
    w.answers (early ++ late) = w.answers early ++ (w.after early).answers late := by
  induction early generalizing w with
  | nil => rfl
  | cons s rest ih =>
    obtain ⟨i, op⟩ := s
    exact congrArg _ (ih (w.perform i op).2)

theorem succeeds_append {w : Handles ι} {early late : List (ι × StoreOp)} :
    w.Succeeds (early ++ late) ↔ w.Succeeds early ∧ (w.after early).Succeeds late := by
  unfold Succeeds
  rw [answers_append]
  constructor
  · rintro ⟨good, hgood⟩
    obtain ⟨good₁, good₂, -, h₁, h₂⟩ := List.map_eq_append_iff.mp hgood.symm
    exact ⟨⟨good₁, h₁.symm⟩, good₂, h₂.symm⟩
  · rintro ⟨⟨good₁, h₁⟩, good₂, h₂⟩
    exact ⟨good₁ ++ good₂, by rw [h₁, h₂, List.map_append]⟩

theorem succeeds_singleton {w : Handles ι} {i : ι} {op : StoreOp} (h : w.Succeeds [(i, op)]) :
    ∃ answer, (w.perform i op).1 = .ok answer := by
  obtain ⟨good, hgood⟩ := h
  cases good with
  | nil => cases hgood
  | cons answer rest => exact ⟨answer, (List.cons.inj hgood).1⟩

/-! ## Operations -/

/-- An operation works on the handle's copy, which is what the file holds if there is none yet.  A
change also writes it. -/
theorem perform_ok {w : Handles ι} {i : ι} {op : StoreOp} {t : Table String}
    (hfile : Disk.tableOf w.slot = .ok t) (h : w.Succeeds [(i, op)]) :
    let made := op.effect ((w.loaded i).getD t)
    (w.perform i op).2.loaded = Function.update w.loaded i (some made) ∧
      Disk.tableOf (w.perform i op).2.slot = .ok (if op.changes then made else t) := by
  intro made
  have hheld : (w.disk i).held = .ok ((w.loaded i).getD t) := by
    unfold disk Disk.held
    cases hloaded : w.loaded i with
    | some copy => rfl
    | none =>
      dsimp only
      rw [hfile]
      rfl
  obtain ⟨answer, hanswer⟩ := succeeds_singleton h
  have hrun : (op.run Disk.store).run.run (w.disk i) =
      (.ok answer, ((op.run Disk.store).run.run (w.disk i)).2) := Prod.ext hanswer rfl
  obtain ⟨hloaded, hslot⟩ := StoreOp.run_ok hheld hrun
  constructor
  · exact congrArg (Function.update w.loaded i) hloaded
  · have hslot' : (w.perform i op).2.slot = ((op.run Disk.store).run.run (w.disk i)).2.slot := rfl
    rw [hslot']
    cases hchanges : op.changes with
    | true =>
      rw [hchanges] at hslot
      exact hslot
    | false =>
      rw [hchanges] at hslot
      have hsame : ((op.run Disk.store).run.run (w.disk i)).2.slot = w.slot := hslot
      rw [hsame]
      exact hfile

/-! ## Copies -/

theorem own_snoc (i j : ι) (steps : List (ι × StoreOp)) (op : StoreOp) :
    own i (steps ++ [(j, op)]) = own i steps ++ if j = i then [op] else [] := by
  unfold own
  rw [List.filter_append, List.map_append]
  by_cases h : j = i <;> simp [h]

/-- A handle that is not used reads nothing. -/
theorem loaded_after {w : Handles ι} {i : ι} {steps : List (ι × StoreOp)}
    (h : ∀ s ∈ steps, s.1 ≠ i) : (w.after steps).loaded i = w.loaded i := by
  induction steps generalizing w with
  | nil => rfl
  | cons s rest ih =>
    have hrest := ih (w := (w.perform s.1 s.2).2) fun s hs => h s (by simp [hs])
    have hne : i ≠ s.1 := (h s (by simp)).symm
    rw [after, List.foldl_cons]
    exact hrest.trans (Function.update_of_ne hne ..)

section Run

variable {w : Handles ι} {t₀ : Table String} {steps : List (ι × StoreOp)}

theorem readable_after (hfile : Disk.tableOf w.slot = .ok t₀) (h : w.Succeeds steps) :
    ∃ t, Disk.tableOf (w.after steps).slot = .ok t := by
  induction steps using List.reverseRecOn with
  | nil => exact ⟨t₀, hfile⟩
  | append_singleton steps s ih =>
    obtain ⟨i, op⟩ := s
    obtain ⟨hsteps, hlast⟩ := succeeds_append.mp h
    obtain ⟨t, ht⟩ := ih hsteps
    rw [after_snoc]
    exact ⟨_, (perform_ok ht hlast).2⟩

/-- A handle's copy has the handle's own changes, whatever others do. -/
theorem copy_after {i : ι} {copy : Table String} (hfile : Disk.tableOf w.slot = .ok t₀)
    (h : w.Succeeds steps) (hcopy : w.loaded i = some copy) :
    (w.after steps).loaded i = some (StoreOp.applied copy (own i steps)) := by
  induction steps using List.reverseRecOn with
  | nil => exact hcopy
  | append_singleton steps s ih =>
    obtain ⟨j, op⟩ := s
    obtain ⟨hsteps, hlast⟩ := succeeds_append.mp h
    obtain ⟨t, ht⟩ := readable_after hfile hsteps
    rw [after_snoc, (perform_ok ht hlast).1, own_snoc]
    by_cases hj : j = i
    · subst hj
      rw [Function.update_self, ih hsteps, if_pos rfl, StoreOp.applied_append]
      rfl
    · rw [Function.update_of_ne (Ne.symm hj), ih hsteps, if_neg hj, List.append_nil]

/-- The file holds the copy of the handle that made the last change. -/
theorem file_eq_copy {i : ι} (hfile : Disk.tableOf w.slot = .ok t₀) (h : w.Succeeds steps)
    (hlast : changer? steps = some i) :
    ∃ t, (w.after steps).loaded i = some t ∧ Disk.tableOf (w.after steps).slot = .ok t := by
  induction steps using List.reverseRecOn with
  | nil => cases hlast
  | append_singleton steps s ih =>
    obtain ⟨j, op⟩ := s
    obtain ⟨hsteps, hop⟩ := succeeds_append.mp h
    obtain ⟨t, ht⟩ := readable_after hfile hsteps
    obtain ⟨hloaded, hslot⟩ := perform_ok ht hop
    rw [changer?_snoc] at hlast
    rw [after_snoc, hloaded, hslot]
    cases hchanges : op.changes with
    | true =>
      rw [hchanges] at hlast
      obtain rfl : j = i := Option.some.inj hlast
      exact ⟨_, Function.update_self .., rfl⟩
    | false =>
      rw [hchanges] at hlast
      obtain ⟨copy, hcopy, hsame⟩ := ih hsteps hlast
      obtain rfl : t = copy := Except.ok.inj (ht.symm.trans hsame)
      refine ⟨t, ?_, rfl⟩
      by_cases hj : j = i
      · -- the last operation leaves its handle's copy as it was
        subst hj
        rw [Function.update_self, hcopy, StoreOp.effect_of_not_changes hchanges]
        rfl
      · rw [Function.update_of_ne (Ne.symm hj), hcopy]

/-- Without a change, the file is as it was. -/
theorem file_unchanged (hfile : Disk.tableOf w.slot = .ok t₀) (h : w.Succeeds steps)
    (hlast : changer? steps = none) : Disk.tableOf (w.after steps).slot = .ok t₀ := by
  induction steps using List.reverseRecOn with
  | nil => exact hfile
  | append_singleton steps s ih =>
    obtain ⟨j, op⟩ := s
    obtain ⟨hsteps, hop⟩ := succeeds_append.mp h
    rw [changer?_snoc] at hlast
    cases hchanges : op.changes with
    | true =>
      rw [hchanges] at hlast
      cases hlast
    | false =>
      rw [hchanges] at hlast
      rw [after_snoc, (perform_ok (ih hsteps hlast) hop).2, hchanges]
      rfl

end Run

/-! ## Handles that are not behind -/

/-- Without a set by a handle that is behind, the file has the changes of all handles, and so has the
copy of every handle that is not behind. -/
theorem orderly_after {slot : FileSlot} {t₀ : Table String} {steps : List (ι × StoreOp)}
    (hfile : Disk.tableOf slot = .ok t₀) (h : (opened slot).Succeeds steps) (horder : Orderly steps) :
    let made := StoreOp.applied t₀ (steps.map (·.2))
    Disk.tableOf ((opened slot).after steps).slot = .ok made ∧
      ∀ i, ¬ Behind i steps → (((opened slot).after steps).loaded i).getD made = made := by
  induction steps using List.reverseRecOn with
  | nil => exact ⟨hfile, fun _ _ => rfl⟩
  | append_singleton steps s ih =>
    obtain ⟨j, op⟩ := s
    obtain ⟨hsteps, hop⟩ := succeeds_append.mp h
    obtain ⟨hbefore, hcopies⟩ := ih hsteps horder.init
    have hmade : StoreOp.applied t₀ ((steps ++ [(j, op)]).map (·.2)) =
        op.effect (StoreOp.applied t₀ (steps.map (·.2))) := by
      rw [List.map_append, StoreOp.applied_append]
      rfl
    rw [hmade, after_snoc]
    generalize StoreOp.applied t₀ (steps.map (·.2)) = made at hbefore hcopies
    obtain ⟨hloaded, hslot⟩ := perform_ok hbefore hop
    rw [hloaded, hslot]
    -- what the last operation works on counts only if it is not a clearing
    have hcopy (hj : ¬ Behind j steps ∨ op = .clear) :
        op.effect ((((opened slot).after steps).loaded j).getD made) = op.effect made := by
      rcases hj with hj | rfl
      · rw [hcopies j hj]
      · rfl
    refine ⟨?_, fun i hi => ?_⟩
    · cases op with
      | set key value => exact congrArg _ (hcopy (.inl (horder steps j key value [] rfl)))
      | clear => rfl
      | get key => rfl
      | size => rfl
      | isEmpty => rfl
    · by_cases hij : i = j
      · subst hij
        rw [Function.update_self, Option.getD_some]
        apply hcopy
        by_cases hclear : op = .clear
        · exact .inr hclear
        · exact .inl fun hbehind => hi (hbehind.snoc op (by simp [hclear]))
      · rw [Function.update_of_ne hij]
        cases hchanges : op.changes with
        | true =>
          have hunused : ∀ s ∈ steps, s.1 ≠ i := fun s hs hsi =>
            hi (behind_of_change (Ne.symm hij) hchanges ⟨s, hs, hsi⟩)
          rw [loaded_after hunused]
          rfl
        | false =>
          rw [StoreOp.effect_of_not_changes hchanges]
          exact hcopies i fun hbehind => hi (hbehind.snoc op (by simp [Ne.symm hij]))

/-! ## What a fresh handle finds -/

/-- The handle that made the last change was used a first time. -/
theorem exists_first_of_changer? {steps : List (ι × StoreOp)} {i : ι}
    (h : changer? steps = some i) :
    ∃ early first late, steps = early ++ (i, first) :: late ∧ ∀ s ∈ early, s.1 ≠ i := by
  obtain ⟨s, hs, rfl⟩ := Option.map_eq_some_iff.mp h
  have hmem : s ∈ steps := (List.mem_filter.mp (List.mem_of_getLast? hs)).1
  cases hfirst : steps.find? (·.1 = s.1) with
  | none =>
    have hnot := List.find?_eq_none.mp hfirst s hmem
    simp at hnot
  | some first =>
    obtain ⟨hid, early, late, hsteps, hearly⟩ := List.find?_eq_some_iff_append.mp hfirst
    obtain ⟨i, op⟩ := first
    obtain rfl : i = s.1 := by simpa using hid
    exact ⟨early, op, late, hsteps, fun s hs => by simpa using hearly s hs⟩

/-- The copy of a handle: what the file held when the handle was first used, with the handle's own
changes since. -/
theorem copy_eq {w : Handles ι} {t₀ : Table String} {early late : List (ι × StoreOp)} {i : ι}
    {first : StoreOp} (hfile : Disk.tableOf w.slot = .ok t₀) (hfresh : w.loaded i = none)
    (hearly : ∀ s ∈ early, s.1 ≠ i) (hok : w.Succeeds (early ++ (i, first) :: late)) :
    ∃ found, Disk.tableOf (w.after early).slot = .ok found ∧
      (w.after (early ++ (i, first) :: late)).loaded i =
        some (StoreOp.applied found (first :: own i late)) := by
  rw [List.append_cons] at hok ⊢
  obtain ⟨hfirst, hlate⟩ := succeeds_append.mp hok
  obtain ⟨hbefore, hop⟩ := succeeds_append.mp hfirst
  obtain ⟨found, hfound⟩ := readable_after hfile hbefore
  obtain ⟨t, ht⟩ := readable_after hfile hfirst
  have hcopy : (w.after (early ++ [(i, first)])).loaded i = some (first.effect found) := by
    rw [after_snoc, (perform_ok hfound hop).1, Function.update_self, loaded_after hearly, hfresh]
    rfl
  refine ⟨found, hfound, ?_⟩
  rw [after_append, copy_after ht hlate hcopy]
  rfl

/-- After operations that all succeed, through handles on a file with the table `t₀`, a fresh handle
finds the copy of the handle that made the last change: what the file held when this handle was first
used, with this handle's own changes since.  If no handle that was behind has set an entry, these are
the changes of all handles in the order in which they came. -/
theorem last_copy_stays (slot : FileSlot) (t₀ : Table String) (steps : List (ι × StoreOp))
    (hfile : (Disk.opened slot).held = .ok t₀) (hok : (opened slot).Succeeds steps) :
    ∃ t, (Disk.opened ((opened slot).after steps).slot).held = .ok t ∧
      (changer? steps = none → t = t₀) ∧
      (∀ i, changer? steps = some i → ∃ early first late found,
        steps = early ++ (i, first) :: late ∧ (∀ s ∈ early, s.1 ≠ i) ∧
        (Disk.opened ((opened slot).after early).slot).held = .ok found ∧
        t = StoreOp.applied found (first :: own i late)) ∧
      (Orderly steps → t = StoreOp.applied t₀ (steps.map (·.2))) := by
  simp only [Disk.held_opened_iff] at hfile ⊢
  obtain ⟨t, ht⟩ := readable_after (w := opened slot) hfile hok
  refine ⟨t, ht, ?unchanged, ?changed, ?orderly⟩
  case unchanged =>
    intro hnone
    exact Except.ok.inj (ht.symm.trans (file_unchanged (w := opened slot) hfile hok hnone))
  case changed =>
    intro i hlast
    obtain ⟨copy, hcopy, hsame⟩ := file_eq_copy (w := opened slot) hfile hok hlast
    obtain rfl : t = copy := Except.ok.inj (ht.symm.trans hsame)
    obtain ⟨early, first, late, rfl, hearly⟩ := exists_first_of_changer? hlast
    obtain ⟨found, hfound, hcopy'⟩ := copy_eq (w := opened slot) hfile rfl hearly hok
    exact ⟨early, first, late, found, rfl, hearly, hfound, Option.some.inj (hcopy.symm.trans hcopy')⟩
  case orderly =>
    intro horder
    exact Except.ok.inj (ht.symm.trans (orderly_after hfile hok horder).1)

/-- Two handles that work one after the other, of which the second clears before it sets. -/
theorem last_copy_stays_turns :
    let a : CacheKey := ⟨"geocode:a", "p"⟩
    let b : CacheKey := ⟨"geocode:b", "p"⟩
    let slot : FileSlot := ⟨"cache/entries.json", "cache", .absent⟩
    let steps : List (Bool × StoreOp) :=
      [(false, .get a), (false, .set a "1"), (true, .clear), (true, .set b "2")]
    (Disk.opened slot).held = .ok Table.empty ∧ (opened slot).Succeeds steps ∧ Orderly steps ∧
      (Disk.opened ((opened slot).after steps).slot).held =
        .ok (StoreOp.applied Table.empty (steps.map (·.2))) := by
  intro a b slot steps
  have hok : (opened slot).Succeeds steps := ⟨[.text none, .done, .done, .done], rfl⟩
  have horder : Orderly steps :=
    orderly_of_turns (r := (· ≤ ·)) (by decide) (by decide)
  obtain ⟨t, ht, -, -, horderly⟩ := last_copy_stays slot Table.empty steps rfl hok
  rw [horderly horder] at ht
  exact ⟨rfl, hok, horder, ht⟩

/-- Two handles that each read the empty file before the other writes it: the entry of one is lost.
And one that read an entry before the other cleared it away: the entry comes back. -/
theorem copies_collide :
    let a : CacheKey := ⟨"geocode:a", "p"⟩
    let b : CacheKey := ⟨"geocode:b", "p"⟩
    let slot : FileSlot := ⟨"cache/entries.json", "cache", .absent⟩
    let lost : List (Bool × StoreOp) := [(false, .get a), (true, .set b "2"), (false, .set a "1")]
    let revived : List (Bool × StoreOp) := [(false, .set a "1"), (true, .clear), (false, .set b "2")]
    (opened slot).Succeeds lost ∧
      ((Disk.find? b).run.run (Disk.opened ((opened slot).after lost).slot)).1 = .ok none ∧
      (StoreOp.applied Table.empty (lost.map (·.2))).find? b.flat = some "2" ∧
    (opened slot).Succeeds revived ∧
      ((Disk.find? a).run.run (Disk.opened ((opened slot).after revived).slot)).1 = .ok (some "1") ∧
      (StoreOp.applied Table.empty (revived.map (·.2))).find? a.flat = none := by
  intro a b slot lost revived
  have hlost : (Disk.opened ((opened slot).after lost).slot).held =
      .ok (Table.empty.insert a.flat "1") :=
    (Disk.held_opened_iff _ _).mpr (Disk.tableOf_textOf rfl rfl)
  have hrevived : (Disk.opened ((opened slot).after revived).slot).held =
      .ok ((Table.empty.insert a.flat "1").insert b.flat "2") :=
    (Disk.held_opened_iff _ _).mpr (Disk.tableOf_textOf rfl rfl)
  have hnone : (Table.empty.insert a.flat "1").find? b.flat = none := by decide
  have hsome : ((Table.empty.insert a.flat "1").insert b.flat "2").find? a.flat = some "1" := by
    decide
  refine ⟨⟨[.text none, .done, .done], rfl⟩, ?_, by decide, ⟨[.done, .done, .done], rfl⟩, ?_,
    by decide⟩
  · rw [Disk.run_find? hlost, hnone]
  · rw [Disk.run_find? hrevived, hsome]

end Handles

end Gazetteer
