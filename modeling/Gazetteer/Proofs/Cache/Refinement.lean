import Mathlib.Data.List.Nodup
import Gazetteer.Proofs.Cache.File
import Gazetteer.Proofs.Cache.Key

/-!
# The cache file behaves as memory

A handle mirrors a memory if it holds the memory's entries under their flat keys.  Mirrored states
answer every operation alike and stay mirrored, and so they do when the file is opened anew.  By
induction over the steps, a session on a file that is not there yet gives the answers of an empty
memory, wherever the file is opened anew.

    d.Mirrors m → d answers as m does, and the states after it are mirrored     (run_mirrors)
    answers of a session = answers of memory, all of them good                  (session_eq_memory)
-/

namespace Gazetteer

/-! ## Operations and sessions -/

/-- An operation of a store. -/
inductive StoreOp where
  | get (key : CacheKey)
  | set (key : CacheKey) (value : String)
  | clear
  | size
  | isEmpty
deriving DecidableEq, Repr

/-- What a store answers. -/
inductive StoreAnswer where
  | text (value : Option String)
  | done
  | count (n : Nat)
  | flag (b : Bool)
deriving DecidableEq, Repr

namespace StoreOp

variable {σ : Type}

def run (store : Store σ) : StoreOp → StoreM σ StoreAnswer
  | get key => return .text (← store.get key)
  | set key value => do
    store.set key value
    return .done
  | clear => do
    store.clear
    return .done
  | size => return .count (← store.size)
  | isEmpty => return .flag (← store.isEmpty)

/-- The key of the operation, if it has one, is plain. -/
def Plain : StoreOp → Prop
  | get key => key.Plain
  | set key _ => key.Plain
  | _ => True

/-- The answers to operations one after the other. -/
def answers (store : Store σ) : List StoreOp → StateM σ (List (Except StoreFault StoreAnswer))
  | [] => return []
  | op :: rest => do
    let answer ← (op.run store).run
    return answer :: (← answers store rest)

end StoreOp

/-- A step of a session on the cache file: an operation, or a fresh handle in place of the old. -/
inductive SessionStep where
  | op (o : StoreOp)
  | reopen
deriving DecidableEq, Repr

namespace SessionStep

def op? : SessionStep → Option StoreOp
  | op o => some o
  | reopen => none

/-- The answers of a session. -/
def answers : List SessionStep → StateM Disk (List (Except StoreFault StoreAnswer))
  | [] => return []
  | op o :: rest => do
    let answer ← (o.run Disk.store).run
    return answer :: (← answers rest)
  | reopen :: rest => do
    modify fun d => Disk.opened d.slot
    answers rest

end SessionStep

/-! ## Memory and table -/

/-- A look-up in entries with different keys finds the entry. -/
theorem lookup_eq_some_of_nodup {α β : Type} [DecidableEq α] (l : List (α × β))
    (h : (l.map (·.1)).Nodup) (a : α) (b : β) : l.lookup a = some b ↔ (a, b) ∈ l := by
  induction l with
  | nil => simp
  | cons e rest ih =>
    obtain ⟨k, v⟩ := e
    rw [List.map_cons, List.nodup_cons] at h
    rw [List.lookup_cons]
    by_cases hk : a = k
    · subst hk
      have hnot : (a, b) ∉ rest := fun hm => h.1 (List.mem_map.mpr ⟨_, hm, rfl⟩)
      simp [hnot, eq_comm]
    · have hb : (a == k) = false := by simpa using hk
      rw [hb, ih h.2]
      simp [hk]

namespace Disk

/-- The handle holds the memory's entries under their flat keys. -/
def Mirrors (d : Disk) (m : Memory) : Prop :=
  ∃ t : Table String, d.Holds t ∧ t.entries.Perm (m.entries.map fun e => (e.1.flat, e.2)) ∧
    ∀ e ∈ m.entries, e.1.Plain

theorem mirrors_find? {t : Table String} {m : Memory}
    (hperm : t.entries.Perm (m.entries.map fun e => (e.1.flat, e.2)))
    (hplain : ∀ e ∈ m.entries, e.1.Plain) (key : CacheKey) (hkey : key.Plain) :
    t.find? key.flat = m.find? key := by
  have hnodup : (m.entries.map (·.1)).Nodup := by
    have hflat := (hperm.map (·.1)).nodup_iff.mp t.keys_nodup
    rw [List.map_map] at hflat
    have : (m.entries.map (·.1)).map CacheKey.flat =
        m.entries.map ((·.1) ∘ fun e => (e.1.flat, e.2)) := by
      rw [List.map_map]
      rfl
    rw [← this] at hflat
    exact List.Nodup.of_map _ hflat
  apply Option.ext
  intro value
  rw [Table.find?_eq_some_iff, hperm.mem_iff, Memory.find?,
    lookup_eq_some_of_nodup _ hnodup, List.mem_map]
  constructor
  · rintro ⟨e, he, heq⟩
    simp only [Prod.mk.injEq] at heq
    have := (CacheKey.flat_inj (hplain e he) hkey).mp heq.1
    rw [← this, ← heq.2]
    exact he
  · intro he
    exact ⟨_, he, rfl⟩

/-! ## Operations on mirrored states -/

theorem mirrors_empty {d : Disk} (h : d.Holds Table.empty) : d.Mirrors Memory.empty :=
  ⟨Table.empty, h, .refl _, by simp [Memory.empty]⟩

theorem mirrors_opened {d : Disk} {m : Memory} (h : d.Mirrors m) : (opened d.slot).Mirrors m := by
  obtain ⟨t, ht, hperm, hplain⟩ := h
  exact ⟨t, holds_opened ht, hperm, hplain⟩

theorem run_lifted {α : Type} {step : DiskM α} {d d' : Disk} {a : α}
    (h : step.run.run d = (.ok a, d')) : (lifted step).run.run d = (.ok a, d') := by
  show (fun p : Except FileFault α × Disk => (p.1.mapError StoreFault.file, p.2)) <$>
    step.run.run d = _
  rw [h]
  rfl

theorem run_lifted_error {α : Type} {step : DiskM α} {d d' : Disk} {fault : FileFault}
    (h : step.run.run d = (.error fault, d')) :
    (lifted step).run.run d = (.error (.file fault), d') := by
  show (fun p : Except FileFault α × Disk => (p.1.mapError StoreFault.file, p.2)) <$>
    step.run.run d = _
  rw [h]
  rfl

theorem get_mirrors {d : Disk} {m : Memory} (h : d.Mirrors m) (key : CacheKey) (hkey : key.Plain) :
    ∃ d', (store.get key).run.run d = (.ok (m.find? key), d') ∧ d'.Mirrors m := by
  obtain ⟨t, ht, hperm, hplain⟩ := h
  rw [← mirrors_find? hperm hplain key hkey]
  exact ⟨_, run_lifted (run_find? ht.held key), t, holds_loaded ht, hperm, hplain⟩

theorem size_mirrors {d : Disk} {m : Memory} (h : d.Mirrors m) :
    ∃ d', store.size.run.run d = (.ok m.size, d') ∧ d'.Mirrors m := by
  obtain ⟨t, ht, hperm, hplain⟩ := h
  have hsize : t.size = m.size := by
    have := hperm.length_eq
    rwa [List.length_map] at this
  rw [← hsize]
  exact ⟨_, run_lifted (run_size ht.held), t, holds_loaded ht, hperm, hplain⟩

theorem set_mirrors {d : Disk} {m : Memory} (h : d.Mirrors m) (key : CacheKey) (hkey : key.Plain)
    (value : String) :
    ∃ d', (store.set key value).run.run d = (.ok (), d') ∧ d'.Mirrors (m.insert key value) := by
  obtain ⟨t, ht, hperm, hplain⟩ := h
  obtain ⟨d', hrun, hholds⟩ := run_insert ht key value
  refine ⟨d', run_lifted hrun, _, hholds, ?_, ?_⟩
  · have hfilter : (m.entries.map fun e => (e.1.flat, e.2)).filter (fun e => e.1 != key.flat) =
        (m.entries.filter fun e => e.1 != key).map fun e => (e.1.flat, e.2) := by
      rw [List.filter_map]
      congr 1
      apply List.filter_congr
      intro e he
      have hflat := CacheKey.flat_inj (hplain e he) hkey
      by_cases heq : e.1 = key
      · simp [heq]
      · rw [bne_iff_ne.mpr heq]
        exact bne_iff_ne.mpr fun hf => heq (hflat.mp hf)
    have hplace := Table.place_perm key.flat value t.entries t.ascending
    have hrest := (hperm.filter fun e => e.1 != key.flat).cons (key.flat, value)
    rw [hfilter] at hrest
    exact hplace.trans hrest
  · intro e he
    rcases List.mem_cons.mp he with rfl | he
    · exact hkey
    · exact hplain e (List.mem_filter.mp he).1

theorem clear_mirrors {d : Disk} {m : Memory} (h : d.Mirrors m) :
    ∃ d', store.clear.run.run d = (.ok (), d') ∧ d'.Mirrors Memory.empty := by
  obtain ⟨t, ht, -, -⟩ := h
  obtain ⟨d', hrun, hholds⟩ := run_clear ht
  exact ⟨d', run_lifted hrun, mirrors_empty hholds⟩

/-- Mirrored states answer alike and stay mirrored. -/
theorem run_mirrors {d : Disk} {m : Memory} (h : d.Mirrors m) (op : StoreOp) (hop : op.Plain) :
    ∃ answer d' m', (op.run store).run.run d = (.ok answer, d') ∧
      (op.run Memory.store).run.run m = (.ok answer, m') ∧ d'.Mirrors m' := by
  cases op with
  | get key =>
    obtain ⟨d', hrun, hm⟩ := get_mirrors h key hop
    refine ⟨.text (m.find? key), d', m, ?_, rfl, hm⟩
    rw [StoreOp.run, ExceptT.run_bind, StateT.run_bind, hrun]
    rfl
  | set key value =>
    obtain ⟨d', hrun, hm⟩ := set_mirrors h key hop value
    refine ⟨.done, d', m.insert key value, ?_, rfl, hm⟩
    rw [StoreOp.run, ExceptT.run_bind, StateT.run_bind, hrun]
    rfl
  | clear =>
    obtain ⟨d', hrun, hm⟩ := clear_mirrors h
    refine ⟨.done, d', Memory.empty, ?_, rfl, hm⟩
    rw [StoreOp.run, ExceptT.run_bind, StateT.run_bind, hrun]
    rfl
  | size =>
    obtain ⟨d', hrun, hm⟩ := size_mirrors h
    refine ⟨.count m.size, d', m, ?_, rfl, hm⟩
    rw [StoreOp.run, ExceptT.run_bind, StateT.run_bind, hrun]
    rfl
  | isEmpty =>
    obtain ⟨d', hrun, hm⟩ := size_mirrors h
    refine ⟨.flag (m.size == 0), d', m, ?_, rfl, hm⟩
    have hempty : store.isEmpty.run.run d = (.ok (m.size == 0), d') := by
      rw [Store.isEmpty, ExceptT.run_bind, StateT.run_bind, hrun]
      rfl
    rw [StoreOp.run, ExceptT.run_bind, StateT.run_bind, hempty]
    rfl

end Disk

/-! ## Sessions -/

/-- A session from a state that mirrors a memory gives the memory's answers. -/
theorem SessionStep.answers_mirrors (steps : List SessionStep)
    (hsteps : ∀ o, SessionStep.op o ∈ steps → o.Plain) (d : Disk) (m : Memory) (h : d.Mirrors m) :
    ∃ good : List StoreAnswer, ((answers steps).run d).1 = good.map .ok ∧
      ((StoreOp.answers Memory.store (steps.filterMap op?)).run m).1 = good.map .ok := by
  induction steps generalizing d m with
  | nil => exact ⟨[], rfl, rfl⟩
  | cons step rest ih =>
    have hrest : ∀ o, SessionStep.op o ∈ rest → o.Plain := fun o ho => hsteps o (by simp [ho])
    cases step with
    | op o =>
      obtain ⟨answer, d', m', hd, hm, h'⟩ := Disk.run_mirrors h o (hsteps o (by simp))
      obtain ⟨good, hgood, hgood'⟩ := ih hrest d' m' h'
      refine ⟨answer :: good, ?_, ?_⟩
      · rw [answers, StateT.run_bind, hd]
        show _ :: ((answers rest).run d').1 = _
        rw [hgood]
        rfl
      · rw [List.filterMap_cons, op?]
        simp only
        rw [StoreOp.answers, StateT.run_bind, hm]
        show _ :: ((StoreOp.answers Memory.store (rest.filterMap op?)).run m').1 = _
        rw [hgood']
        rfl
    | reopen => exact ih hrest (Disk.opened d.slot) m (Disk.mirrors_opened h)

/-- The cache file behaves as memory, and lasts: every session on a file that is not there yet gives
only good answers, those of an empty memory that knows nothing of fresh handles. -/
theorem session_eq_memory (slot : FileSlot) (steps : List SessionStep)
    (hslot : slot.state = .absent ∨ slot.state = .noDirectory)
    (hsteps : ∀ o, SessionStep.op o ∈ steps → o.Plain) :
    ∃ good : List StoreAnswer,
      ((SessionStep.answers steps).run (Disk.opened slot)).1 = good.map .ok ∧
      ((StoreOp.answers Memory.store (steps.filterMap SessionStep.op?)).run Memory.empty).1 =
        good.map .ok :=
  SessionStep.answers_mirrors steps hsteps _ _ (Disk.mirrors_empty (Disk.holds_absent slot hslot))

/-- A session with a text full of marks, on a file whose directory is missing. -/
theorem session_eq_memory_reopened :
    let slot : FileSlot := ⟨"cache/entries.json", "cache", .noDirectory⟩
    let key : CacheKey := ⟨"geocode:a|b", "p"⟩
    let steps : List SessionStep := [.op (.set key "\"\\\n\x01"), .reopen, .op (.get key),
      .op .clear, .reopen, .op .isEmpty]
    (slot.state = .absent ∨ slot.state = .noDirectory) ∧
      (∀ o, SessionStep.op o ∈ steps → o.Plain) ∧
      ∃ good : List StoreAnswer,
        ((SessionStep.answers steps).run (Disk.opened slot)).1 = good.map .ok ∧
        ((StoreOp.answers Memory.store (steps.filterMap SessionStep.op?)).run Memory.empty).1 =
          good.map .ok := by
  refine ⟨.inr rfl, ?plain, session_eq_memory _ _ (.inr rfl) ?plain⟩
  intro o ho
  simp only [List.mem_cons, SessionStep.op.injEq, reduceCtorEq, List.not_mem_nil, false_or,
    or_false] at ho
  rcases ho with rfl | rfl | rfl | rfl
  all_goals simp [StoreOp.Plain, CacheKey.Plain]

end Gazetteer
