import Gazetteer.Proofs.Cache.File

/-!
# What a failure leaves behind

An operation on the cache file changes the handle's table first and the file afterwards, and what
has been done when it fails is not taken back.  Only if the handle could not even read the file,
everything is as it was.  After any other failure to set an entry the handle answers with the entry,
and after a failure to remove the file as if there were none.  A file that could not be opened to
be written is as it was; one that was opened has lost what it held, and a handle that is opened on
it then can read nothing.

    d.AnswersFrom t: the handle answers everything from t
    a failed set: nothing changed, or d answers with the entry, the file as it was or cut off
    a failed clear: d answers from the empty table, the file as it was
                                                                             (failed_step_leaves)
-/

namespace Gazetteer.Disk

/-- The handle answers everything from a table. -/
structure AnswersFrom (d : Disk) (t : Table String) : Prop where
  find? : ∀ key, ((find? key).run.run d).1 = .ok (t.find? key.flat)
  size : (size.run.run d).1 = .ok t.size
  entries : (entries.run.run d).1 = .ok ((times t).mergeSort fun a b => a.2.le b.2)

theorem answersFrom_held {d : Disk} {t : Table String} (h : d.held = .ok t) : d.AnswersFrom t where
  find? key := congrArg (·.1) (run_find? h key)
  size := congrArg (·.1) (run_size h)
  entries := congrArg (·.1) (run_entries h)

/-- What a write of a table that failed leaves of a file: the file as it was, or the table's text
without its end, or bytes that are no text.  In the latter cases nothing can be read from it. -/
def Leaves (before after : FileSlot) (t : Table String) : Prop :=
  after = before ∨ after.CutOff (textOf t) ∧ ∃ fault, (load.run.run (opened after)).1 = .error fault

theorem leaves_cut {before after : FileSlot} {t : Table String} (hcut : after.CutOff (textOf t))
    {problem : FileProblem} (htable : tableOf after = .error problem) : Leaves before after t := by
  have hheld : (opened after).held = .error (FileFault.of .cache after problem) := by
    simp only [held, opened, htable]
    rfl
  exact .inr ⟨hcut, _, congrArg (·.1) (run_load_error hheld)⟩

/-- A failed change to an entry: the handle cannot read its file, and is as it was; or it answers
with the entry from now on. -/
theorem insert_failed (d d' : Disk) (key : CacheKey) (value : String) (fault : FileFault)
    (h : (insert key value).run.run d = (.error fault, d')) :
    (d.held = .error fault ∧ d' = d) ∨
      ∃ t, d.held = .ok t ∧ d'.loaded = some (t.insert key.flat value) ∧
        Leaves d.slot d'.slot (t.insert key.flat value) := by
  cases hheld : d.held with
  | error fault' =>
    rw [insert, run_bind_error _ (run_stage_error hheld key value)] at h
    injection h with hfault hd
    injection hfault with hfault
    exact .inl ⟨congrArg _ hfault, hd.symm⟩
  | ok t =>
    refine .inr ⟨t, rfl, ?_⟩
    rcases insert_cases hheld with hok | herror | ⟨problem, hcut⟩
    · obtain ⟨slot, hok, -⟩ := hok key value
      rw [hok] at h
      cases h
    · obtain ⟨fault', herror⟩ := herror key value
      rw [herror] at h
      injection h with _ hd
      subst hd
      exact ⟨rfl, .inl rfl⟩
    · obtain ⟨fault', slot, herror, hcut, htable⟩ := hcut key value
      rw [herror] at h
      injection h with _ hd
      subst hd
      exact ⟨rfl, leaves_cut hcut htable⟩

theorem clear_failed (d d' : Disk) (fault : FileFault)
    (h : clear.run.run d = (.error fault, d')) : d' = { d with loaded := some Table.empty } := by
  rcases clear_cases d with ⟨slot, hok, -⟩ | ⟨fault', herror⟩
  · rw [hok] at h
    cases h
  · rw [herror] at h
    injection h with _ hd
    exact hd.symm

/-- When a set fails because the handle's table could not be read, it leaves handle and file as they
were.  After any other failure the handle answers as if the change had been made.  A failed set
leaves the file as it was or cuts off what it wrote there, and a failed clear leaves it as it
was. -/
theorem failed_step_leaves (d : Disk) :
    (∀ key value fault d', (insert key value).run.run d = (.error fault, d') →
      ((load.run.run d).1 = .error fault ∧ d' = d) ∨
        ∃ t, d.AnswersFrom t ∧ d'.AnswersFrom (t.insert key.flat value) ∧
          Leaves d.slot d'.slot (t.insert key.flat value)) ∧
    (∀ fault d', clear.run.run d = (.error fault, d') →
      d'.slot = d.slot ∧ d'.AnswersFrom Table.empty) := by
  constructor
  · intro key value fault d' h
    rcases insert_failed d d' key value fault h with ⟨hheld, rfl⟩ | ⟨t, hheld, hloaded, hleaves⟩
    · refine .inl ⟨?_, rfl⟩
      rw [run_load_error hheld]
    · have hheld' : d'.held = .ok (t.insert key.flat value) := by rw [held, hloaded]
      exact .inr ⟨t, answersFrom_held hheld, answersFrom_held hheld', hleaves⟩
  · intro fault d' h
    obtain rfl := clear_failed d d' fault h
    exact ⟨rfl, answersFrom_held rfl⟩

/-- A cache file with one entry, which can be neither written nor removed, and the same on a disk
without room. -/
theorem failed_step_leaves_one :
    let t : Table String := Table.empty.insert "p|geocode:a" "1"
    let restricted := opened ⟨"cache/entries.json", "cache", .restricted (textOf t) ⟨false, false⟩⟩
    let full :=
      opened ⟨"cache/entries.json", "cache", .unsteady (some (.text (textOf t))) [.cut 5]⟩
    let key : CacheKey := ⟨"geocode:b", "p"⟩
    (∃ d', (insert key "2").run.run restricted =
        (.error ⟨.cache, .unwritable, "cache/entries.json"⟩, d') ∧
      ∃ t, restricted.AnswersFrom t ∧ d'.AnswersFrom (t.insert key.flat "2") ∧
        Leaves restricted.slot d'.slot (t.insert key.flat "2")) ∧
    (∃ d', (insert key "2").run.run full =
        (.error ⟨.cache, .unwritable, "cache/entries.json"⟩, d') ∧
      ∃ t, full.AnswersFrom t ∧ d'.AnswersFrom (t.insert key.flat "2") ∧
        Leaves full.slot d'.slot (t.insert key.flat "2")) ∧
    ∃ d', clear.run.run restricted = (.error ⟨.cache, .unremovable, "cache/entries.json"⟩, d') ∧
      d'.slot = restricted.slot ∧ d'.AnswersFrom Table.empty := by
  intro t restricted full key
  have hrestricted : restricted.held = .ok t :=
    (held_opened_iff _ _).mpr (tableOf_textOf rfl rfl)
  have hfull : full.held = .ok t := (held_opened_iff _ _).mpr (tableOf_textOf rfl rfl)
  have hinsert : (insert key "2").run.run restricted =
      (.error ⟨.cache, .unwritable, "cache/entries.json"⟩,
        { restricted with loaded := some (t.insert key.flat "2") }) := by
    rw [insert, run_bind_ok (run_stage hrestricted key "2")]
    rfl
  have hinsert' : (insert key "2").run.run full =
      (.error ⟨.cache, .unwritable, "cache/entries.json"⟩,
        ⟨some (t.insert key.flat "2"), full.slot.spoiled (textOf (t.insert key.flat "2"))⟩) := by
    rw [insert, run_bind_ok (run_stage hfull key "2")]
    rfl
  refine ⟨⟨_, hinsert, ?_⟩, ⟨_, hinsert', ?_⟩, _, rfl, (failed_step_leaves restricted).2 _ _ rfl⟩
  · obtain ⟨herror, -⟩ | hleaves := (failed_step_leaves restricted).1 key "2" _ _ hinsert
    · rw [run_load_ok hrestricted] at herror
      cases herror
    · exact hleaves
  · obtain ⟨herror, -⟩ | hleaves := (failed_step_leaves full).1 key "2" _ _ hinsert'
    · rw [run_load_ok hfull] at herror
      cases herror
    · exact hleaves

/-- Changes that failed show: an entry that was not there is found, in a directory that could not be
made, and one that was there is found no more, though its file could not be removed.  On a disk
without room a file with an entry is empty after a change that failed. -/
theorem failed_changes_show :
    let key : CacheKey := ⟨"geocode:a", "p"⟩
    let t := Table.empty.insert key.flat "1"
    let blocked := opened ⟨"cache/entries.json", "cache", .blocked⟩
    let kept : Disk := ⟨some t, ⟨"cache/entries.json", "cache", .directory⟩⟩
    let full :=
      opened ⟨"cache/entries.json", "cache", .unsteady (some (.text (textOf t))) [.cut 0]⟩
    (∃ fault d', (insert key "1").run.run blocked = (.error fault, d') ∧
      ((find? key).run.run blocked).1 = .ok none ∧ (size.run.run blocked).1 = .ok 0 ∧
      ((find? key).run.run d').1 = .ok (some "1") ∧ (size.run.run d').1 = .ok 1) ∧
    (∃ fault d', clear.run.run kept = (.error fault, d') ∧
      ((find? key).run.run kept).1 = .ok (some "1") ∧ (size.run.run kept).1 = .ok 1 ∧
      ((find? key).run.run d').1 = .ok none ∧ (size.run.run d').1 = .ok 0) ∧
    ∃ fault d', (insert ⟨"geocode:b", "p"⟩ "2").run.run full = (.error fault, d') ∧
      full.slot.read = .ok (textOf t) ∧ d'.slot.read = .ok "" := by
  intro key t blocked kept full
  have hfound : t.find? key.flat = some "1" := by
    rw [Table.find?_insert, if_pos rfl]
  have hfull : full.held = .ok t := (held_opened_iff _ _).mpr (tableOf_textOf rfl rfl)
  have hinsert : (insert ⟨"geocode:b", "p"⟩ "2").run.run full =
      (.error ⟨.cache, .unwritable, "cache/entries.json"⟩,
        ⟨some (t.insert "p|geocode:b" "2"),
          ⟨"cache/entries.json", "cache", .unsteady (some (.text "")) []⟩⟩) := by
    rw [insert, run_bind_ok (run_stage hfull ⟨"geocode:b", "p"⟩ "2")]
    rfl
  refine ⟨⟨_, _, rfl, rfl, rfl, ?_, rfl⟩, ⟨_, _, rfl, ?_, rfl, rfl, rfl⟩, _, _, hinsert, rfl, rfl⟩
  · exact congrArg Except.ok hfound
  · exact congrArg Except.ok hfound

end Gazetteer.Disk
