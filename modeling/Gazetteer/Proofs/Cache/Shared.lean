import Mathlib.Data.List.Induction
import Mathlib.Logic.Function.Basic
import Gazetteer.Proofs.Cache.File

/-!
# One handle, many writers

Several calls of `insert` on one handle take turns.  The handle is locked while a call puts its
entry into the table and takes the table with it, and open again when the call writes what it took
into the file.  So between these two steps, any number of steps of the other calls may come.

The handle's table has all entries then.  The file has those of the calls that began before the call
that was the last to write, and its own, but not those of calls that began later and wrote earlier.

    one turn keeps what is known of the table and of every call                     (turn_reached)
    so does a run                                                                    (run_reached)
    what the table and the file are when all calls have returned                 (last_write_wins)
    two calls, after which the file lacks an entry                              (last_write_loses)
-/

namespace Gazetteer

/-- How far a call of `insert` has come. -/
inductive Progress where
  | waiting
  /-- The table is changed; the call holds what it will write. -/
  | holding (table : Table String)
  | returned (result : Except FileFault Unit)

/-- Calls on one handle. -/
structure Race (calls : List (CacheKey × String)) where
  disk : Disk
  progress : Fin calls.length → Progress

namespace Race

variable {calls : List (CacheKey × String)}

/-- No call has begun. -/
def start (calls : List (CacheKey × String)) (d : Disk) : Race calls := ⟨d, fun _ => .waiting⟩

/-- The next step of a call.  A call that has returned takes none. -/
def turn (race : Race calls) (i : Fin calls.length) : Race calls :=
  match race.progress i with
  | .waiting =>
    match (Disk.stage calls[i].1 calls[i].2).run.run race.disk with
    | (.ok table, disk) => ⟨disk, Function.update race.progress i (.holding table)⟩
    | (.error fault, disk) => ⟨disk, Function.update race.progress i (.returned (.error fault))⟩
  | .holding table =>
    let (result, disk) := (Disk.writeBack table).run.run race.disk
    ⟨disk, Function.update race.progress i (.returned result)⟩
  | .returned _ => race

/-- The calls take turns. -/
def run (race : Race calls) (schedule : List (Fin calls.length)) : Race calls :=
  schedule.foldl turn race

/-- Every call takes its two steps. -/
def Complete (schedule : List (Fin calls.length)) : Prop := ∀ i, schedule.count i = 2

instance (schedule : List (Fin calls.length)) : Decidable (Complete schedule) :=
  inferInstanceAs (Decidable (∀ _, _))

/-- A table with the entries of some calls, one after the other. -/
def inserted (t : Table String) (order : List (Fin calls.length)) : Table String :=
  order.foldl (fun t i => t.insert calls[i].1.flat calls[i].2) t

theorem inserted_append (t : Table String) (order : List (Fin calls.length))
    (i : Fin calls.length) :
    inserted t (order ++ [i]) = (inserted t order).insert calls[i].1.flat calls[i].2 := by
  rw [inserted, List.foldl_append]
  rfl

/-- The key of every call is there. -/
theorem find?_inserted (t : Table String) (order : List (Fin calls.length))
    (i : Fin calls.length) (h : i ∈ order) :
    ((inserted t order).find? calls[i].1.flat).isSome := by
  induction order using List.reverseRecOn with
  | nil => cases h
  | append_singleton order j ih =>
    rw [inserted_append, Table.find?_insert]
    split
    · rfl
    · next hne =>
      rcases List.mem_append.mp h with h | h
      · exact ih h
      · rw [List.mem_singleton.mp h] at hne
        exact absurd rfl hne

/-! ## The order of the calls

A schedule without repetitions lists the calls as they began. -/

theorem eraseDups_snoc_new {schedule : List (Fin calls.length)} {i : Fin calls.length}
    (h : i ∉ schedule) : (schedule ++ [i]).eraseDups = schedule.eraseDups ++ [i] := by
  rw [List.eraseDups_append]
  have hnew : [i].removeAll schedule = [i] := by simp [List.removeAll, h]
  rw [hnew]
  rfl

theorem eraseDups_snoc_old {schedule : List (Fin calls.length)} {i : Fin calls.length}
    (h : i ∈ schedule) : (schedule ++ [i]).eraseDups = schedule.eraseDups := by
  rw [List.eraseDups_append]
  have hold : [i].removeAll schedule = [] := by simp [List.removeAll, h]
  rw [hold]
  simp

/-! ## Turns -/

theorem turn_waiting {race : Race calls} {i : Fin calls.length} (h : race.progress i = .waiting)
    {t : Table String} (hheld : race.disk.held = .ok t) :
    race.turn i = ⟨{ race.disk with loaded := some (t.insert calls[i].1.flat calls[i].2) },
      Function.update race.progress i (.holding (t.insert calls[i].1.flat calls[i].2))⟩ := by
  rw [turn, h, Disk.run_stage hheld]

theorem turn_waiting_error {race : Race calls} {i : Fin calls.length}
    (h : race.progress i = .waiting) {fault : FileFault} (hheld : race.disk.held = .error fault) :
    race.turn i = ⟨race.disk, Function.update race.progress i (.returned (.error fault))⟩ := by
  rw [turn, h, Disk.run_stage_error hheld]

theorem turn_holding {race : Race calls} {i : Fin calls.length} {table : Table String}
    (h : race.progress i = .holding table) {result : Except FileFault Unit} {d : Disk}
    (hwrite : (Disk.writeBack table).run.run race.disk = (result, d)) :
    race.turn i = ⟨d, Function.update race.progress i (.returned result)⟩ := by
  rw [turn, h]
  dsimp only
  rw [hwrite]

theorem turn_returned {race : Race calls} {i : Fin calls.length} {result : Except FileFault Unit}
    (h : race.progress i = .returned result) : race.turn i = race := by
  rw [turn, h]

/-- A turn of one call is none of another. -/
theorem turn_other (race : Race calls) {i j : Fin calls.length} (hij : j ≠ i) :
    (race.turn i).progress j = race.progress j := by
  cases hprogress : race.progress i with
  | waiting =>
    cases hheld : race.disk.held with
    | ok t =>
      rw [turn_waiting hprogress hheld]
      exact Function.update_of_ne hij ..
    | error fault =>
      rw [turn_waiting_error hprogress hheld]
      exact Function.update_of_ne hij ..
  | holding table =>
    rw [turn_holding hprogress rfl]
    exact Function.update_of_ne hij ..
  | returned result => rw [turn_returned hprogress]

/-- No call has returned with a fault. -/
def NoFault (race : Race calls) : Prop := ∀ i fault, race.progress i ≠ .returned (.error fault)

/-- The second turn of a call without a fault writes what the call took. -/
theorem turn_written {race : Race calls} {i : Fin calls.length} {table : Table String}
    (h : race.progress i = .holding table) (hfault : (race.turn i).NoFault) :
    ∃ slot, race.turn i =
        ⟨{ race.disk with slot }, Function.update race.progress i (.returned (.ok ()))⟩ ∧
      Disk.tableOf slot = .ok table := by
  rcases Disk.writeBack_cases race.disk.slot with hok | herror | ⟨_, hcut⟩
  · obtain ⟨slot, hok, htable⟩ := hok race.disk.loaded table
    exact ⟨slot, turn_holding h hok, htable⟩
  · obtain ⟨fault, herror⟩ := herror race.disk.loaded table
    rw [turn_holding h herror] at hfault
    exact absurd (Function.update_self ..) (hfault i fault)
  · obtain ⟨fault, slot, herror, -⟩ := hcut race.disk.loaded table
    rw [turn_holding h herror] at hfault
    exact absurd (Function.update_self ..) (hfault i fault)

/-- What has returned stays returned, so there has been no fault if there is none in the end. -/
theorem noFault_of_turn {race : Race calls} {i : Fin calls.length} (h : (race.turn i).NoFault) :
    race.NoFault := by
  intro j fault hj
  apply h j fault
  by_cases hij : j = i
  · subst hij
    rwa [turn_returned hj]
  · rwa [turn_other race hij]

theorem noFault_of_run {race : Race calls} {schedule : List (Fin calls.length)}
    (h : (race.run schedule).NoFault) : race.NoFault := by
  induction schedule generalizing race with
  | nil => exact h
  | cons i rest ih => exact noFault_of_turn (ih h)

/-! ## What is known after some turns -/

/-- What a call may be doing, on a handle that held the table `t`. -/
def Stands (t : Table String) (schedule : List (Fin calls.length)) (i : Fin calls.length) :
    Progress → Prop
  | .waiting => schedule.count i = 0
  | .holding table => schedule.count i = 1 ∧ ∃ early late,
      schedule.eraseDups = early ++ i :: late ∧ table = inserted t (early ++ [i])
  | .returned _ => 2 ≤ schedule.count i

/-- What is known of the handle, which held the table `t`, and of the calls. -/
structure Reached (t : Table String) (schedule : List (Fin calls.length)) (race : Race calls) :
    Prop where
  held : race.disk.held = .ok (inserted t schedule.eraseDups)
  loaded : schedule ≠ [] → race.disk.loaded = some (inserted t schedule.eraseDups)
  stands : ∀ i, Stands t schedule i (race.progress i)

theorem start_reached {t : Table String} {d : Disk} (h : d.held = .ok t) :
    Reached t [] (start calls d) where
  held := h
  loaded hne := absurd rfl hne
  stands _ := rfl

theorem count_snoc_self (schedule : List (Fin calls.length)) (i : Fin calls.length) :
    (schedule ++ [i]).count i = schedule.count i + 1 := by
  rw [List.count_append, List.count_singleton_self]

/-- After the turn of another call, a call may be doing what it was. -/
theorem Stands.snoc {t : Table String} {schedule : List (Fin calls.length)}
    {i j : Fin calls.length} (hij : j ≠ i) {progress : Progress}
    (h : Stands t schedule j progress) : Stands t (schedule ++ [i]) j progress := by
  have hcount : (schedule ++ [i]).count j = schedule.count j := by
    rw [List.count_append, List.count_singleton]
    simp [hij.symm]
  cases progress with
  | waiting => exact hcount.trans h
  | returned result => exact Nat.le_trans h (Nat.le_of_eq hcount.symm)
  | holding table =>
    obtain ⟨hone, early, late, horder, htable⟩ := h
    refine ⟨hcount.trans hone, ?_⟩
    by_cases hi : i ∈ schedule
    · exact ⟨early, late, (eraseDups_snoc_old hi).trans horder, htable⟩
    · refine ⟨early, late ++ [i], ?_, htable⟩
      rw [eraseDups_snoc_new hi, horder, List.append_assoc, List.cons_append]

section Turn

variable {t : Table String} {schedule : List (Fin calls.length)} {race : Race calls}

/-- Of a turn, what the handle has and what the call is doing needs to be looked at. -/
theorem Reached.snoc (h : Reached t schedule race) (i : Fin calls.length)
    (hloaded : (race.turn i).disk.loaded = some (inserted t (schedule ++ [i]).eraseDups))
    (hstands : Stands t (schedule ++ [i]) i ((race.turn i).progress i)) :
    Reached t (schedule ++ [i]) (race.turn i) where
  held := by rw [Disk.held, hloaded]
  loaded _ := hloaded
  stands j := by
    by_cases hji : j = i
    · subst hji
      exact hstands
    · rw [turn_other race hji]
      exact (h.stands j).snoc hji

theorem turn_reached (h : Reached t schedule race) (i : Fin calls.length)
    (hfault : (race.turn i).NoFault) : Reached t (schedule ++ [i]) (race.turn i) := by
  have hcount := count_snoc_self schedule i
  have hstands := h.stands i
  cases hprogress : race.progress i with
  | waiting =>
    rw [hprogress] at hstands
    have horder := eraseDups_snoc_new (List.count_eq_zero.mp hstands)
    have hturn := turn_waiting hprogress h.held
    rw [← inserted_append, ← horder] at hturn
    apply h.snoc i
    · rw [hturn]
    · rw [hturn]
      dsimp only
      rw [Function.update_self]
      refine ⟨by rw [hcount, hstands], schedule.eraseDups, [], horder, ?_⟩
      rw [horder]
  | holding table =>
    rw [hprogress] at hstands
    have hone : schedule.count i = 1 := hstands.1
    have hold : i ∈ schedule := by
      rw [← List.count_pos_iff]
      omega
    obtain ⟨slot, hturn, -⟩ := turn_written hprogress hfault
    apply h.snoc i
    · rw [hturn, eraseDups_snoc_old hold]
      exact h.loaded (List.ne_nil_of_mem hold)
    · rw [hturn]
      dsimp only
      rw [Function.update_self]
      show 2 ≤ _
      omega
  | returned result =>
    rw [hprogress] at hstands
    have htwo : 2 ≤ schedule.count i := hstands
    have hold : i ∈ schedule := by
      rw [← List.count_pos_iff]
      omega
    apply h.snoc i
    · rw [turn_returned hprogress, eraseDups_snoc_old hold]
      exact h.loaded (List.ne_nil_of_mem hold)
    · rw [turn_returned hprogress, hprogress]
      show 2 ≤ _
      omega

/-- After one turn, a call holds the table with its entry and those of the calls before it. -/
theorem Reached.holding (h : Reached t schedule race) {i : Fin calls.length}
    (hone : schedule.count i = 1) :
    ∃ early late, schedule.eraseDups = early ++ i :: late ∧
      race.progress i = .holding (inserted t (early ++ [i])) := by
  have hstands := h.stands i
  cases hprogress : race.progress i with
  | waiting =>
    rw [hprogress] at hstands
    have hzero : schedule.count i = 0 := hstands
    omega
  | returned result =>
    rw [hprogress] at hstands
    have htwo : 2 ≤ schedule.count i := hstands
    omega
  | holding table =>
    rw [hprogress] at hstands
    obtain ⟨-, early, late, horder, rfl⟩ := hstands
    exact ⟨early, late, horder, rfl⟩

end Turn

/-! ## Runs -/

theorem run_snoc (race : Race calls) (schedule : List (Fin calls.length)) (i : Fin calls.length) :
    race.run (schedule ++ [i]) = (race.run schedule).turn i := by
  rw [run, List.foldl_append]
  rfl

theorem run_reached {t : Table String} {d : Disk} (hheld : d.held = .ok t)
    (schedule : List (Fin calls.length)) (hfault : ((start calls d).run schedule).NoFault) :
    Reached t schedule ((start calls d).run schedule) := by
  induction schedule using List.reverseRecOn with
  | nil => exact start_reached hheld
  | append_singleton schedule i ih =>
    rw [run_snoc] at hfault ⊢
    exact turn_reached (ih (noFault_of_turn hfault)) i hfault

/-- The first turn shows whether the handle holds a table. -/
theorem held_of_noFault {d : Disk} {i : Fin calls.length} {rest : List (Fin calls.length)}
    (hfault : ((start calls d).run (i :: rest)).NoFault) : ∃ t, d.held = .ok t := by
  cases hheld : d.held with
  | ok t => exact ⟨t, rfl⟩
  | error fault =>
    have hrest : (((start calls d).turn i).run rest).NoFault := hfault
    have hfirst := noFault_of_run hrest
    rw [turn_waiting_error rfl hheld] at hfirst
    exact absurd (Function.update_self ..) (hfirst i fault)

/-- Calls that all succeed leave all their entries in the handle's table, in the order in which they
began.  The file, which a fresh handle reads, has those up to the one that was the last to write. -/
theorem last_write_wins (d : Disk) (schedule : List (Fin calls.length)) (last : Fin calls.length)
    (hcomplete : Complete schedule) (hlast : schedule.getLast? = some last)
    (hok : ∀ i, ((start calls d).run schedule).progress i = .returned (.ok ())) :
    let d' := ((start calls d).run schedule).disk
    ∃ t early late, d.held = .ok t ∧ schedule.eraseDups = early ++ last :: late ∧
      d'.held = .ok (inserted t (early ++ last :: late)) ∧
      (∀ c ∈ calls, ((inserted t (early ++ last :: late)).find? c.1.flat).isSome) ∧
      (Disk.opened d'.slot).held = .ok (inserted t (early ++ [last])) := by
  obtain ⟨before, rfl⟩ := List.getLast?_eq_some_iff.mp hlast
  have hfault : ((start calls d).run (before ++ [last])).NoFault := by
    intro i fault hi
    rw [hok i] at hi
    cases hi
  obtain ⟨t, ht⟩ : ∃ t, d.held = .ok t := by
    cases before with
    | nil => exact held_of_noFault hfault
    | cons i rest => exact held_of_noFault hfault
  have hreached := run_reached ht _ hfault
  rw [run_snoc] at hfault
  have hbefore := run_reached ht before (noFault_of_turn hfault)
  -- the last turn is the second of its call, which therefore writes what it took
  have hcount := count_snoc_self before last
  rw [hcomplete last] at hcount
  have hone : before.count last = 1 := by omega
  obtain ⟨early, late, horder, hholding⟩ := hbefore.holding hone
  obtain ⟨slot, hturn, htable⟩ := turn_written hholding hfault
  have hold : last ∈ before := by
    rw [← List.count_pos_iff]
    omega
  have horder' := (eraseDups_snoc_old hold).trans horder
  have hheld := hreached.held
  rw [horder'] at hheld
  refine ⟨t, early, late, ht, horder', hheld, fun c hc => ?_, ?_⟩
  · obtain ⟨i, hi, rfl⟩ := List.getElem_of_mem hc
    apply find?_inserted t _ ⟨i, hi⟩
    rw [← horder', List.mem_eraseDups, ← List.count_pos_iff, hcomplete ⟨i, hi⟩]
    exact Nat.two_pos
  · rw [run_snoc, hturn]
    dsimp only [Disk.held, Disk.opened]
    rw [htable]
    rfl

/-- Two calls, of which the second begins later and is the last to write. -/
theorem last_write_wins_two :
    let calls : List (CacheKey × String) := [(⟨"geocode:a", "p"⟩, "1"), (⟨"geocode:b", "p"⟩, "2")]
    let d := Disk.opened ⟨"cache/entries.json", "cache", .absent⟩
    let a : Fin calls.length := ⟨0, by decide⟩
    let b : Fin calls.length := ⟨1, by decide⟩
    let schedule := [a, b, a, b]
    let d' := ((start calls d).run schedule).disk
    Complete schedule ∧ schedule.getLast? = some b ∧
      (∀ i, ((start calls d).run schedule).progress i = .returned (.ok ())) ∧
      ∃ t, d.held = .ok t ∧ d'.held = .ok (inserted t schedule.eraseDups) ∧
        (Disk.opened d'.slot).held = .ok (inserted t schedule.eraseDups) := by
  intro calls d a b schedule d'
  have hcomplete : Complete schedule := by decide
  have hok : ∀ i, ((start calls d).run schedule).progress i = .returned (.ok ()) := by
    intro i
    match i with
    | ⟨0, _⟩ => rfl
    | ⟨1, _⟩ => rfl
  obtain ⟨t, early, late, ht, horder, htable, -, hfile⟩ :=
    last_write_wins d schedule b hcomplete rfl hok
  have hbegun : schedule.eraseDups = [a, b] := by decide
  rw [hbegun] at horder
  have hlate : late = [] := by
    have hlength := congrArg List.length horder
    simp only [List.length_append, List.length_cons, List.length_nil] at hlength
    cases early with
    | nil =>
      have hab : a = b := (List.cons.inj horder).1
      exact absurd hab (by decide)
    | cons i rest =>
      rw [List.length_cons] at hlength
      exact List.length_eq_zero_iff.mp (by omega)
  subst hlate
  rw [← horder, ← hbegun] at htable hfile
  exact ⟨hcomplete, rfl, hok, t, ht, htable, hfile⟩

/-- Two calls, of which the first is the last to write.  Both succeed, the handle has both entries,
and the file lacks the second. -/
theorem last_write_loses :
    let first : CacheKey := ⟨"geocode:a", "p"⟩
    let second : CacheKey := ⟨"geocode:b", "p"⟩
    let calls : List (CacheKey × String) := [(first, "1"), (second, "2")]
    let d := Disk.opened ⟨"cache/entries.json", "cache", .absent⟩
    let a : Fin calls.length := ⟨0, by decide⟩
    let b : Fin calls.length := ⟨1, by decide⟩
    let schedule := [a, b, b, a]
    let d' := ((start calls d).run schedule).disk
    Complete schedule ∧
      (∀ i, ((start calls d).run schedule).progress i = .returned (.ok ())) ∧
      ((Disk.find? second).run.run d').1 = .ok (some "2") ∧
      ((Disk.find? second).run.run (Disk.opened d'.slot)).1 = .ok none := by
  intro first second calls d a b schedule d'
  have hok : ∀ i, ((start calls d).run schedule).progress i = .returned (.ok ()) := by
    intro i
    match i with
    | ⟨0, _⟩ => rfl
    | ⟨1, _⟩ => rfl
  have htable : d'.held = .ok ((Table.empty.insert first.flat "1").insert second.flat "2") := rfl
  have hfile : (Disk.opened d'.slot).held = .ok (Table.empty.insert first.flat "1") := by
    have hread : Disk.tableOf d'.slot = .ok (Table.empty.insert first.flat "1") :=
      Disk.tableOf_textOf rfl rfl
    rw [Disk.held, Disk.opened, hread]
    rfl
  have hne : second.flat ≠ first.flat := by decide
  refine ⟨by decide, hok, ?_, ?_⟩
  · rw [Disk.run_find? htable, Table.find?_insert, if_pos rfl]
  · rw [Disk.run_find? hfile, Table.find?_insert, if_neg hne]
    rfl

end Race

end Gazetteer
