import Gazetteer.Cache.Disk
import Gazetteer.Proofs.Json.Enclosed
import Gazetteer.Proofs.Steps

/-!
# What a handle on the cache file holds

A handle answers from the table that it holds: the one that it has read, or else the one that it
would read, if that succeeds.  A handle `Holds` a table for good if moreover its file reads as that
table and can be written.  Each operation on such a handle succeeds, and the handle then holds the
table that the operation leaves.  A fresh handle on the same file holds it too.

    the table of a file with the text textOf t is t                             (tableOf_textOf)
    d.load answers with d.held, and a fault leaves d as it is                   (run_load)
    d.Holds t → insert key value succeeds and leaves t.insert key.flat value    (run_insert)
-/

namespace Gazetteer

/-- The file is open to everything, or can be made so. -/
def FileSlot.Writable (s : FileSlot) : Prop :=
  match s.state with
  | .noDirectory | .absent | .file _ => True
  | _ => False

/-- What a write of a text leaves that ended early: a file whose text, if it has one, is the
beginning of that text without the rest. -/
structure FileSlot.CutOff (s : FileSlot) (text : String) : Prop where
  occupied : s.occupied = true
  beginning : ∀ held, s.read = .ok held → ∃ rest, rest ≠ [] ∧ held.toList ++ rest = text.toList

namespace Disk

/-- The table that the handle answers from, or why it cannot. -/
def held (d : Disk) : Except FileFault (Table String) :=
  match d.loaded with
  | some table => .ok table
  | none => (tableOf d.slot).mapError (FileFault.of .cache d.slot)

structure Holds (d : Disk) (t : Table String) : Prop where
  writable : d.slot.Writable
  file : tableOf d.slot = .ok t
  loaded : d.loaded = none ∨ d.loaded = some t

theorem Holds.held {d : Disk} {t : Table String} (h : d.Holds t) : d.held = .ok t := by
  unfold Disk.held
  rcases h.loaded with hl | hl
  · rw [hl, h.file]
    rfl
  · rw [hl]

theorem held_opened_iff (slot : FileSlot) (t : Table String) :
    (opened slot).held = .ok t ↔ tableOf slot = .ok t := by
  simp only [Disk.held, opened]
  cases tableOf slot <;> simp [Except.mapError]

/-- A table is read back from a file with its text. -/
theorem tableOf_textOf {slot : FileSlot} {t : Table String} (hoccupied : slot.occupied = true)
    (hread : slot.read = .ok (textOf t)) : tableOf slot = .ok t := by
  have htext : (Json.Tree.ofText? (textOf t)).bind Json.Tree.texts? = some t := by
    rw [textOf, Json.ofText?_indentedTexts, Option.bind_some, Json.texts?_textsTree]
  simp [tableOf, hoccupied, hread, htext, bind, Except.bind]

/-- A text that is no object of texts is not read as a table. -/
theorem tableOf_not_texts {slot : FileSlot} {text : String} (hread : slot.read = .ok text)
    (h : ¬ Json.HoldsTexts text) : tableOf slot = .error .unparsable := by
  have hoccupied : slot.occupied = true := by
    unfold FileSlot.read at hread
    unfold FileSlot.occupied
    split at hread <;> simp_all
  have hnone := (Json.texts?_eq_none_iff text).mpr h
  simp [tableOf, hoccupied, hread, hnone, bind, Except.bind]

theorem holds_absent (slot : FileSlot) (h : slot.state = .absent ∨ slot.state = .noDirectory) :
    (opened slot).Holds Table.empty := by
  refine ⟨?_, ?_, .inl rfl⟩
  · rcases h with h | h <;> simp [FileSlot.Writable, opened, h]
  · rcases h with h | h <;> simp [tableOf, opened, FileSlot.occupied, h]

/-- A fresh handle holds what the file's other handle holds. -/
theorem holds_opened {d : Disk} {t : Table String} (h : d.Holds t) : (opened d.slot).Holds t :=
  ⟨h.writable, h.file, .inl rfl⟩

theorem holds_loaded {d : Disk} {t : Table String} (h : d.Holds t) :
    Holds { d with loaded := some t } t :=
  ⟨h.writable, h.file, .inr rfl⟩

/-! ## Reading -/

theorem run_load (d : Disk) :
    load.run.run d =
      match d.held with
      | .ok t => (.ok t, { d with loaded := some t })
      | .error fault => (.error fault, d) := by
  obtain ⟨loaded, slot⟩ := d
  cases loaded with
  | some t => rfl
  | none =>
    have hload : load.run.run ⟨none, slot⟩ = ((check (tableOf slot) >>= fun table => do
        modify ({ · with loaded := some table })
        return table : DiskM (Table String)).run.run ⟨none, slot⟩) := rfl
    rw [hload]
    cases h : tableOf slot with
    | ok t =>
      simp only [held, h]
      rfl
    | error problem =>
      simp only [held, h]
      rfl

theorem run_load_ok {d : Disk} {t : Table String} (h : d.held = .ok t) :
    load.run.run d = (.ok t, { d with loaded := some t }) := by
  rw [run_load, h]

theorem run_load_error {d : Disk} {fault : FileFault} (h : d.held = .error fault) :
    load.run.run d = (.error fault, d) := by
  rw [run_load, h]

theorem run_find? {d : Disk} {t : Table String} (h : d.held = .ok t) (key : CacheKey) :
    (find? key).run.run d = (.ok (t.find? key.flat), { d with loaded := some t }) := by
  rw [find?, run_bind_ok (run_load_ok h)]
  rfl

theorem run_size {d : Disk} {t : Table String} (h : d.held = .ok t) :
    size.run.run d = (.ok t.size, { d with loaded := some t }) := by
  rw [size, run_bind_ok (run_load_ok h)]
  rfl

theorem run_entries {d : Disk} {t : Table String} (h : d.held = .ok t) :
    entries.run.run d =
      (.ok ((times t).mergeSort fun a b => a.2.le b.2), { d with loaded := some t }) := by
  rw [entries, run_bind_ok (run_load_ok h)]
  rfl

/-! ## Changes -/

theorem run_stage {d : Disk} {t : Table String} (h : d.held = .ok t) (key : CacheKey)
    (value : String) :
    (stage key value).run.run d =
      (.ok (t.insert key.flat value), { d with loaded := some (t.insert key.flat value) }) := by
  rw [stage, run_bind_ok (run_load_ok h)]
  rfl

theorem run_stage_error {d : Disk} {fault : FileFault} (h : d.held = .error fault)
    (key : CacheKey) (value : String) : (stage key value).run.run d = (.error fault, d) :=
  run_bind_error _ (run_load_error h)

theorem textOf_ne_nil (t : Table String) : (textOf t).toList ≠ [] := by
  rw [textOf, String.toList_ofList]
  unfold Json.indentedTexts
  split <;> simp

/-- A table's text that was cut off is not read as a table. -/
theorem tableOf_cutOff {slot : FileSlot} {t : Table String} (h : slot.CutOff (textOf t))
    {held : String} (hread : slot.read = .ok held) : tableOf slot = .error .unparsable := by
  obtain ⟨rest, hrest, htext⟩ := h.beginning held hread
  rw [textOf, String.toList_ofList] at htext
  apply tableOf_not_texts hread
  rw [← String.ofList_toList (s := held)]
  exact Json.not_holdsTexts_cut htext hrest

/-- A write that ends early cuts off a table's text. -/
theorem cutOff_cut (path parent : String) (file : Option FileContents) (n : Nat)
    (writes : List WriteEnd) (t : Table String) :
    (FileSlot.spoiled ⟨path, parent, .unsteady file (.cut n :: writes)⟩ (textOf t)).CutOff
      (textOf t) := by
  refine ⟨rfl, fun held hheld => ?_⟩
  cases hheld
  refine ⟨(textOf t).toList.dropLast.drop n ++ [(textOf t).toList.getLast (textOf_ne_nil t)],
    by simp, ?_⟩
  rw [String.toList_ofList, ← List.append_assoc, List.take_append_drop,
    List.dropLast_append_getLast]

/-- What becomes of a table that is written back depends on the file only.  The file takes every
table, or it takes none and stays as it is, or each is cut off in it. -/
theorem writeBack_cases (slot : FileSlot) :
    (∀ loaded t, ∃ slot', (writeBack t).run.run ⟨loaded, slot⟩ = (.ok (), ⟨loaded, slot'⟩) ∧
      tableOf slot' = .ok t) ∨
    (∀ loaded t, ∃ fault,
      (writeBack t).run.run ⟨loaded, slot⟩ = (.error fault, ⟨loaded, slot⟩)) ∨
    ∃ problem, ∀ loaded t, ∃ fault slot',
      (writeBack t).run.run ⟨loaded, slot⟩ = (.error fault, ⟨loaded, slot'⟩) ∧
      slot'.CutOff (textOf t) ∧ tableOf slot' = .error problem := by
  obtain ⟨path, parent, state⟩ := slot
  cases state with
  | noDirectory => exact .inl fun _ _ => ⟨_, rfl, tableOf_textOf rfl rfl⟩
  | blocked => exact .inr (.inl fun _ _ => ⟨_, rfl⟩)
  | closed => exact .inr (.inl fun _ _ => ⟨_, rfl⟩)
  | absent => exact .inl fun _ _ => ⟨_, rfl, tableOf_textOf rfl rfl⟩
  | file text => exact .inl fun _ _ => ⟨_, rfl, tableOf_textOf rfl rfl⟩
  | restricted text access =>
    obtain ⟨writable, removable⟩ := access
    cases writable with
    | true => exact .inl fun _ _ => ⟨_, rfl, tableOf_textOf rfl rfl⟩
    | false => exact .inr (.inl fun _ _ => ⟨_, rfl⟩)
  | unsteady file writes =>
    cases writes with
    | nil => exact .inl fun _ _ => ⟨_, rfl, tableOf_textOf rfl rfl⟩
    | cons first writes =>
      cases first with
      | whole => exact .inl fun _ _ => ⟨_, rfl, tableOf_textOf rfl rfl⟩
      | cut n =>
        refine .inr (.inr ⟨.unparsable, fun _ t => ⟨_, _, rfl, ?_⟩⟩)
        have hcut := cutOff_cut path parent file n writes t
        exact ⟨hcut, tableOf_cutOff hcut rfl⟩
      | torn =>
        exact .inr (.inr ⟨.unreadable, fun _ _ => ⟨_, _, rfl, ⟨rfl, nofun⟩, rfl⟩⟩)
  | directory => exact .inr (.inl fun _ _ => ⟨_, rfl⟩)

/-- The handle takes an entry in any case, and the file takes it whatever it is or not at all, if it
is not cut off. -/
theorem insert_cases {d : Disk} {t : Table String} (h : d.held = .ok t) :
    (∀ key value, ∃ slot, (insert key value).run.run d =
      (.ok (), ⟨some (t.insert key.flat value), slot⟩) ∧
        tableOf slot = .ok (t.insert key.flat value)) ∨
    (∀ key value, ∃ fault, (insert key value).run.run d =
      (.error fault, ⟨some (t.insert key.flat value), d.slot⟩)) ∨
    ∃ problem, ∀ key value, ∃ fault slot, (insert key value).run.run d =
      (.error fault, ⟨some (t.insert key.flat value), slot⟩) ∧
        slot.CutOff (textOf (t.insert key.flat value)) ∧ tableOf slot = .error problem := by
  have hinsert (key : CacheKey) (value : String) : (insert key value).run.run d =
      (writeBack (t.insert key.flat value)).run.run ⟨some (t.insert key.flat value), d.slot⟩ :=
    run_bind_ok (run_stage h key value)
  rcases writeBack_cases d.slot with hok | herror | ⟨problem, hcut⟩
  · left
    intro key value
    rw [hinsert]
    exact hok _ _
  · right
    left
    intro key value
    rw [hinsert]
    exact herror _ _
  · right
    right
    refine ⟨problem, fun key value => ?_⟩
    rw [hinsert]
    exact hcut _ _

/-- The handle has the entry even if the file does not take it. -/
theorem insert_loaded {d : Disk} {t : Table String} (h : d.held = .ok t) (key : CacheKey)
    (value : String) :
    ((insert key value).run.run d).2.loaded = some (t.insert key.flat value) := by
  rcases insert_cases h with hok | herror | ⟨_, hcut⟩
  · obtain ⟨slot, hok, -⟩ := hok key value
    rw [hok]
  · obtain ⟨fault, herror⟩ := herror key value
    rw [herror]
  · obtain ⟨fault, slot, herror, -⟩ := hcut key value
    rw [herror]

/-- Clearing empties the table first, so a removal that fails leaves it empty. -/
theorem clear_cases (d : Disk) :
    (∃ slot, clear.run.run d = (.ok (), ⟨some Table.empty, slot⟩) ∧ slot.occupied = false) ∨
      ∃ fault, clear.run.run d = (.error fault, ⟨some Table.empty, d.slot⟩) := by
  obtain ⟨loaded, path, parent, state⟩ := d
  cases state with
  | noDirectory => exact .inl ⟨_, rfl, rfl⟩
  | blocked => exact .inl ⟨_, rfl, rfl⟩
  | closed => exact .inl ⟨_, rfl, rfl⟩
  | absent => exact .inl ⟨_, rfl, rfl⟩
  | file text => exact .inl ⟨_, rfl, rfl⟩
  | restricted text access =>
    obtain ⟨writable, removable⟩ := access
    cases removable with
    | true => exact .inl ⟨_, rfl, rfl⟩
    | false => exact .inr ⟨_, rfl⟩
  | unsteady file writes =>
    cases file with
    | none => exact .inl ⟨_, rfl, rfl⟩
    | some contents => exact .inl ⟨_, rfl, rfl⟩
  | directory => exact .inr ⟨_, rfl⟩

theorem run_writeBack (d : Disk) (t : Table String) (h : d.slot.Writable) :
    (writeBack t).run.run d =
      (.ok (), { d with slot := { d.slot with state := .file (textOf t) } }) := by
  obtain ⟨loaded, path, parent, state⟩ := d
  cases state with
  | blocked => exact h.elim
  | closed => exact h.elim
  | restricted text access => exact h.elim
  | unsteady file writes => exact h.elim
  | directory => exact h.elim
  | noDirectory => rfl
  | absent => rfl
  | file text => rfl

theorem run_insert {d : Disk} {t : Table String} (h : d.Holds t) (key : CacheKey)
    (value : String) :
    ∃ d', (insert key value).run.run d = (.ok (), d') ∧ d'.Holds (t.insert key.flat value) := by
  refine ⟨_, (run_bind_ok (run_stage h.held key value)).trans (run_writeBack _ _ h.writable), ?_⟩
  exact ⟨by simp [FileSlot.Writable], tableOf_textOf rfl rfl, .inr rfl⟩

theorem run_clear {d : Disk} {t : Table String} (h : d.Holds t) :
    ∃ d', clear.run.run d = (.ok (), d') ∧ d'.Holds Table.empty := by
  obtain ⟨loaded, path, parent, state⟩ := d
  cases state with
  | blocked => exact h.writable.elim
  | closed => exact h.writable.elim
  | restricted text access => exact h.writable.elim
  | unsteady file writes => exact h.writable.elim
  | directory => exact h.writable.elim
  | noDirectory => exact ⟨_, rfl, by simp [FileSlot.Writable], rfl, .inr rfl⟩
  | absent => exact ⟨_, rfl, by simp [FileSlot.Writable], rfl, .inr rfl⟩
  | file text => exact ⟨_, rfl, by simp [FileSlot.Writable], rfl, .inr rfl⟩

end Disk

end Gazetteer
