import Gazetteer.Proofs.Cache.Listing

/-!
# A cache file that is no table, and a fresh start

While the file holds a text that is no object of texts, nothing but clearing works: every other
operation fails and leaves the handle and the file as they were, so no table is ever written over
the text.  Clearing does not read the file.  Whatever state the handle was in and whatever the file
held, after it there is no file, and the handle behaves as an empty memory that lasts.

    a fresh handle on such a file fails at every step and stays fresh         (answers_unreadable)
    after a clear, the answers are those of an empty memory                        (clear_recovers)
-/

namespace Gazetteer

/-! ## Sessions with a cache -/

/-- A store that can also list its entries and be opened anew. -/
structure Cache (σ : Type) extends Store σ where
  list : StoreM σ (List (CacheKey × Instant))
  reopen : StateM σ Unit

/-- The cache file. -/
def Disk.cache : Cache Disk where
  toStore := Disk.store
  list := Disk.lifted Disk.entries
  reopen := modify fun d => Disk.opened d.slot

/-- A memory that lasts: opened anew it is the same. -/
def Memory.lasting : Cache Memory where
  toStore := Memory.store
  list := return (← get).listed
  reopen := return

inductive CacheStep where
  | store (o : StoreOp)
  | list
  | reopen
deriving DecidableEq, Repr

inductive CacheAnswer where
  | store (answer : StoreAnswer)
  | listed (entries : List (CacheKey × Instant))
  | reopened
deriving DecidableEq, Repr

namespace CacheStep

variable {σ : Type}

def run (cache : Cache σ) : CacheStep → StoreM σ CacheAnswer
  | store o => return .store (← o.run cache.toStore)
  | list => return .listed (← cache.list)
  | reopen => do
    cache.reopen
    return .reopened

/-- The answers to steps one after the other. -/
def answers (cache : Cache σ) : List CacheStep → StateM σ (List (Except StoreFault CacheAnswer))
  | [] => return []
  | step :: rest => do
    let answer ← (step.run cache).run
    return answer :: (← answers cache rest)

theorem answers_cons {cache : Cache σ} {step : CacheStep} {s s' : σ}
    {answer : Except StoreFault CacheAnswer} (h : (step.run cache).run.run s = (answer, s'))
    (rest : List CacheStep) :
    (answers cache (step :: rest)).run s =
      (answer :: ((answers cache rest).run s').1, ((answers cache rest).run s').2) := by
  rw [answers, StateT.run_bind, h]
  rfl

/-! ## A file that cannot be read -/

/-- The answers of a cache that nothing can be read from. -/
def refusal (fault : StoreFault) : CacheStep → Except StoreFault CacheAnswer
  | reopen => .ok .reopened
  | _ => .error fault

theorem run_unreadable {slot : FileSlot} {fault : FileFault}
    (h : (Disk.opened slot).held = .error fault) (step : CacheStep) (hstep : step ≠ .store .clear) :
    (step.run Disk.cache).run.run (Disk.opened slot) =
      (step.refusal (.file fault), Disk.opened slot) := by
  have hload {α : Type} (k : Table String → DiskM α) :
      (Disk.lifted (Disk.load >>= k)).run.run (Disk.opened slot) =
        (.error (.file fault), Disk.opened slot) :=
    Disk.run_lifted_error (run_bind_error k (Disk.run_load_error h))
  cases step with
  | list => exact run_bind_error _ (hload _)
  | reopen => rfl
  | store o =>
    apply run_bind_error
    cases o with
    | get key => exact run_bind_error _ (hload _)
    | set key value =>
      apply run_bind_error
      exact Disk.run_lifted_error (run_bind_error _ (Disk.run_stage_error h key value))
    | clear => exact absurd rfl hstep
    | size => exact run_bind_error _ (hload _)
    | isEmpty => exact run_bind_error _ (run_bind_error _ (hload _))

theorem answers_unreadable {slot : FileSlot} {fault : FileFault}
    (h : (Disk.opened slot).held = .error fault) (steps : List CacheStep)
    (hsteps : .store .clear ∉ steps) :
    (answers Disk.cache steps).run (Disk.opened slot) =
      (steps.map (refusal (.file fault)), Disk.opened slot) := by
  induction steps with
  | nil => rfl
  | cons step rest ih =>
    rw [List.mem_cons, not_or] at hsteps
    rw [answers_cons (run_unreadable h step (Ne.symm hsteps.1)), ih hsteps.2]
    rfl

/-! ## A fresh start -/

/-- The key of the step, if it has one, is plain. -/
def Plain : CacheStep → Prop
  | store o => o.Plain
  | _ => True

/-- Mirrored states answer alike and stay mirrored. -/
theorem run_mirrors {d : Disk} {m : Memory} (h : d.Mirrors m) (step : CacheStep)
    (hstep : step.Plain) :
    ∃ answer d' m', (step.run Disk.cache).run.run d = (.ok answer, d') ∧
      (step.run Memory.lasting).run.run m = (.ok answer, m') ∧ d'.Mirrors m' := by
  cases step with
  | store o =>
    obtain ⟨answer, d', m', hd, hm, h'⟩ := Disk.run_mirrors h o hstep
    exact ⟨.store answer, d', m', run_bind_ok hd, run_bind_ok hm, h'⟩
  | list =>
    obtain ⟨d', hd, h'⟩ := Disk.entries_mirrors h
    exact ⟨.listed m.listed, d', m, run_bind_ok (Disk.run_lifted hd), rfl, h'⟩
  | reopen => exact ⟨.reopened, Disk.opened d.slot, m, rfl, rfl, Disk.mirrors_opened h⟩

theorem answers_mirrors (steps : List CacheStep) (hsteps : ∀ step ∈ steps, step.Plain) {d : Disk}
    {m : Memory} (h : d.Mirrors m) :
    ∃ good : List CacheAnswer, ((answers Disk.cache steps).run d).1 = good.map .ok ∧
      ((answers Memory.lasting steps).run m).1 = good.map .ok := by
  induction steps generalizing d m with
  | nil => exact ⟨[], rfl, rfl⟩
  | cons step rest ih =>
    obtain ⟨answer, d', m', hd, hm, h'⟩ := run_mirrors h step (hsteps step (by simp))
    obtain ⟨good, hgood, hgood'⟩ := ih (fun step hmem => hsteps step (by simp [hmem])) h'
    refine ⟨answer :: good, ?_, ?_⟩
    · rw [answers_cons hd, hgood]
      rfl
    · rw [answers_cons hm, hgood']
      rfl

end CacheStep

namespace Disk

/-- Clearing succeeds if and only if there is no file or it can be removed, whatever it holds. -/
theorem clear_succeeds_iff (d : Disk) : (∃ d', clear.run.run d = (.ok (), d')) ↔
    (d.slot.occupied = true → ∃ slot, d.slot.remove = .ok slot) := by
  obtain ⟨loaded, path, parent, state⟩ := d
  cases state with
  | noDirectory | blocked | closed | absent => exact iff_of_true ⟨_, rfl⟩ fun h => nomatch h
  | file text => exact iff_of_true ⟨_, rfl⟩ fun _ => ⟨_, rfl⟩
  | restricted text access =>
    obtain ⟨writable, removable⟩ := access
    cases removable with
    | true => exact iff_of_true ⟨_, rfl⟩ fun _ => ⟨_, rfl⟩
    | false => exact iff_of_false (fun ⟨_, h⟩ => nomatch h) fun h => nomatch (h rfl)
  | unsteady file writes =>
    cases file with
    | none => exact iff_of_true ⟨_, rfl⟩ fun h => nomatch h
    | some contents => exact iff_of_true ⟨_, rfl⟩ fun _ => ⟨_, rfl⟩
  | directory => exact iff_of_false (fun ⟨_, h⟩ => nomatch h) fun h => nomatch (h rfl)

/-- After a clear that succeeded there is no file, and the handle holds an empty table. -/
theorem of_clear {d d' : Disk} (h : clear.run.run d = (.ok (), d')) :
    d'.slot.occupied = false ∧ d'.loaded = some Table.empty := by
  rcases clear_cases d with ⟨slot, hok, habsent⟩ | ⟨fault, herror⟩
  · rw [hok] at h
    cases h
    exact ⟨habsent, rfl⟩
  · rw [herror] at h
    cases h

theorem mirrors_of_clear {d d' : Disk} (h : clear.run.run d = (.ok (), d'))
    (hwritable : d'.slot.Writable) : d'.Mirrors Memory.empty := by
  obtain ⟨habsent, hloaded⟩ := of_clear h
  apply mirrors_empty
  exact ⟨hwritable, by simp [tableOf, habsent], .inr hloaded⟩

/-- A file with a text that is no object of texts refuses every step but a clear, and stays as it
is, and so does the handle.  Clearing needs only that the file can be removed; after it there is no
file, and as long as files can be made there, every session gives good answers only, those of an
empty memory that lasts. -/
theorem clear_recovers :
    (∀ (slot : FileSlot) (text : String), slot.read = .ok text → ¬ Json.HoldsTexts text →
      ∀ steps : List CacheStep, .store .clear ∉ steps →
        (CacheStep.answers cache steps).run (opened slot) =
          (steps.map (CacheStep.refusal (.file ⟨.cache, .unparsable, slot.path⟩)), opened slot)) ∧
    (∀ d : Disk, (∃ d', clear.run.run d = (.ok (), d')) ↔
      (d.slot.occupied = true → ∃ slot, d.slot.remove = .ok slot)) ∧
    ∀ d d' : Disk, clear.run.run d = (.ok (), d') → d'.slot.occupied = false ∧
      (d'.slot.Writable → ∀ steps : List CacheStep, (∀ step ∈ steps, step.Plain) →
        ∃ good : List CacheAnswer, ((CacheStep.answers cache steps).run d').1 = good.map .ok ∧
          ((CacheStep.answers Memory.lasting steps).run Memory.empty).1 = good.map .ok) := by
  refine ⟨?unreadable, clear_succeeds_iff, ?cleared⟩
  case unreadable =>
    intro slot text hread htext steps hsteps
    apply CacheStep.answers_unreadable _ steps hsteps
    simp [held, opened, tableOf_not_texts hread htext, Except.mapError, FileFault.of]
  case cleared =>
    intro d d' h
    refine ⟨(of_clear h).1, fun hwritable steps hsteps => ?_⟩
    exact CacheStep.answers_mirrors steps hsteps (mirrors_of_clear h hwritable)

/-- A file that holds a number among its texts, and what comes of it when it is cleared. -/
theorem clear_recovers_number :
    let text := "\x7b\"p|geocode:a\": \"1\", \"p|geocode:b\": 2\x7d"
    let slot : FileSlot := ⟨"cache/entries.json", "cache", .file text⟩
    let gone : FileSlot := ⟨"cache/entries.json", "cache", .absent⟩
    let key : CacheKey := ⟨"geocode:a", "p"⟩
    let steps : List CacheStep := [.store (.get key), .store (.set key "1"), .reopen,
      .store .isEmpty, .list]
    (slot.read = .ok text ∧ ¬ Json.HoldsTexts text ∧ .store .clear ∉ steps ∧
      (CacheStep.answers cache steps).run (opened slot) =
        (steps.map (CacheStep.refusal (.file ⟨.cache, .unparsable, slot.path⟩)), opened slot)) ∧
    clear.run.run (opened slot) = (.ok (), ⟨some Table.empty, gone⟩) ∧ gone.Writable ∧
    (∀ step ∈ steps, step.Plain) ∧
    ∃ good : List CacheAnswer,
      ((CacheStep.answers cache steps).run ⟨some Table.empty, gone⟩).1 = good.map .ok ∧
      ((CacheStep.answers Memory.lasting steps).run Memory.empty).1 = good.map .ok := by
  intro text slot gone key steps
  have htext : ¬ Json.HoldsTexts text := by
    rw [← Json.texts?_eq_none_iff, ← Option.isNone_iff_eq_none]
    decide +kernel
  have hclear : .store .clear ∉ steps := by decide
  have hplain : ∀ step ∈ steps, step.Plain := by
    intro step hstep
    simp only [steps, List.mem_cons, List.not_mem_nil, or_false] at hstep
    rcases hstep with rfl | rfl | rfl | rfl | rfl
    all_goals simp [CacheStep.Plain, StoreOp.Plain, CacheKey.Plain, key]
  obtain ⟨hunreadable, -, hcleared⟩ := clear_recovers
  have hgone : clear.run.run (opened slot) = (.ok (), ⟨some Table.empty, gone⟩) := rfl
  exact ⟨⟨rfl, htext, hclear, hunreadable slot text rfl htext steps hclear⟩, hgone, trivial, hplain,
    (hcleared _ _ hgone).2 trivial steps hplain⟩

end Disk

end Gazetteer
