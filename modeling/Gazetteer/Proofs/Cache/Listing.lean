import Gazetteer.Proofs.Cache.Refinement

/-!
# The list of entries

The cache file lists its entries in the order of their times, entries of one time in the order of
their flat keys.  Sorting by time is stable, and a table is in the order of its flat keys already.
A memory lists its entries in the same order, and since no two entries have the same key there is
only one such list: mirrored states give the same.

    l in order of R → l.mergeSort le in order of le, ties in order of R           (mergeSort_stable)
    d.Mirrors m → d lists m.listed                                              (entries_mirrors)
-/

namespace Gazetteer

/-! ## Order -/

namespace Instant

theorem le_trans {a b c : Instant} (hab : a.le b) (hbc : b.le c) : a.le c := by
  simp only [le, Bool.or_eq_true, decide_eq_true_eq, Bool.and_eq_true, beq_iff_eq] at *
  omega

theorem le_total (a b : Instant) : a.le b || b.le a := by
  simp only [le, Bool.or_eq_true, decide_eq_true_eq, Bool.and_eq_true, beq_iff_eq]
  omega

end Instant

/-- Sorting keeps the order of elements that are equally placed. -/
theorem mergeSort_stable {α : Type} (le : α → α → Bool) {R : α → α → Prop}
    (htrans : ∀ a b c, le a b → le b c → le a c) (htotal : ∀ a b, le a b || le b a) {l : List α}
    (h : l.Pairwise R) : (l.mergeSort le).Pairwise fun a b => le a b ∧ (le b a → R a b) := by
  induction l with
  | nil => simp
  | cons a rest ih =>
    obtain ⟨ha, hrest⟩ := List.pairwise_cons.mp h
    obtain ⟨before, after, hsort, hsort', hbefore⟩ := List.mergeSort_cons htrans htotal a rest
    have hle := List.pairwise_mergeSort htrans htotal (a :: rest)
    have hall := ih hrest
    have hmem (b : α) : b ∈ rest ↔ b ∈ before ++ after := by rw [← hsort', List.mem_mergeSort]
    rw [hsort] at hle ⊢
    rw [hsort'] at hall
    obtain ⟨hpairs, hpairs', hacross⟩ := List.pairwise_append.mp hall
    refine List.pairwise_append.mpr ⟨hpairs, List.pairwise_cons.mpr ⟨?first, hpairs'⟩, ?across⟩
    case first =>
      intro b hb
      have hle' := (List.pairwise_cons.mp (List.pairwise_append.mp hle).2.1).1 b hb
      exact ⟨hle', fun _ => ha b ((hmem b).mpr (List.mem_append_right _ hb))⟩
    case across =>
      intro b hb c hc
      rcases List.mem_cons.mp hc with rfl | hc
      · have hnot : le c b = false := by simpa using hbefore b hb
        have hor := htotal b c
        rw [hnot, Bool.or_false] at hor
        exact ⟨hor, fun hcb => by rw [hnot] at hcb; cases hcb⟩
      · exact hacross b hb c hc

/-! ## Lists of a memory -/

/-- Older, or of the same time and with a flat key that does not come later. -/
def listedBefore (a b : CacheKey × Instant) : Bool :=
  a.2.le b.2 && (!b.2.le a.2 || !decide (b.1.flat < a.1.flat))

/-- The keys of the entries with their times, in order.  Texts that are no entries are left out. -/
def Memory.listed (m : Memory) : List (CacheKey × Instant) :=
  (m.entries.filterMap fun (key, text) =>
    (CacheEntry.ofText? text).map fun e => (key, e.storedAt)).mergeSort listedBefore

theorem listedBefore_iff (a b : CacheKey × Instant) :
    listedBefore a b ↔ a.2.le b.2 ∧ (b.2.le a.2 → ¬ b.1.flat < a.1.flat) := by
  unfold listedBefore
  cases b.2.le a.2 <;> simp

theorem listedBefore_trans (a b c : CacheKey × Instant) (hab : listedBefore a b)
    (hbc : listedBefore b c) : listedBefore a c := by
  rw [listedBefore_iff] at *
  refine ⟨Instant.le_trans hab.1 hbc.1, fun hca hlt => ?_⟩
  have hba := hab.2 (Instant.le_trans hbc.1 hca)
  have hcb := hbc.2 (Instant.le_trans hca hab.1)
  exact (String.le_trans (String.not_lt.mp hba) (String.not_lt.mp hcb)) hlt

theorem listedBefore_total (a b : CacheKey × Instant) : listedBefore a b || listedBefore b a := by
  rw [Bool.or_eq_true, listedBefore_iff, listedBefore_iff]
  have htime := Instant.le_total a.2 b.2
  rw [Bool.or_eq_true] at htime
  have hkey : ¬ b.1.flat < a.1.flat ∨ ¬ a.1.flat < b.1.flat := by
    by_cases h : b.1.flat < a.1.flat
    · exact .inr (String.lt_asymm h)
    · exact .inl h
  tauto

/-! ## Lists of the cache file -/

namespace Disk

/-- What is listed for an entry of a table. -/
def timeOf? (e : String × String) : Option (CacheKey × Instant) := do
  return (← CacheKey.ofFlat? e.1, (← CacheEntry.ofText? e.2).storedAt)

theorem times_eq (t : Table String) : times t = t.entries.filterMap timeOf? := rfl

theorem flat_of_timeOf? {e : String × String} {a : CacheKey × Instant} (h : timeOf? e = some a) :
    a.1.flat = e.1 := by
  obtain ⟨key, hkey, h⟩ := Option.bind_eq_some_iff.mp h
  obtain ⟨entry, -, h⟩ := Option.bind_eq_some_iff.mp h
  cases h
  exact (CacheKey.flat_of_ofFlat? hkey).1

theorem timeOf?_flat (key : CacheKey) (hkey : key.Plain) (text : String) :
    timeOf? (key.flat, text) = (CacheEntry.ofText? text).map fun e => (key, e.storedAt) := by
  rw [timeOf?, CacheKey.ofFlat?_flat key hkey]
  cases CacheEntry.ofText? text <;> rfl

theorem times_ascending (t : Table String) :
    (times t).Pairwise fun a b => a.1.flat < b.1.flat := by
  rw [times_eq, List.pairwise_filterMap]
  apply t.ascending.imp
  intro e e' hlt a ha b hb
  rwa [flat_of_timeOf? ha, flat_of_timeOf? hb]

/-- Entries with one flat key are listed as one. -/
theorem times_inj (t : Table String) {a b : CacheKey × Instant} (ha : a ∈ times t)
    (hb : b ∈ times t) (h : a.1.flat = b.1.flat) : a = b := by
  rw [times_eq] at ha hb
  obtain ⟨⟨k, v⟩, he, hae⟩ := List.mem_filterMap.mp ha
  obtain ⟨⟨k', v'⟩, he', hbe⟩ := List.mem_filterMap.mp hb
  have hk : k = k' := by
    have hflat := flat_of_timeOf? hae
    rw [h, flat_of_timeOf? hbe] at hflat
    exact hflat.symm
  subst hk
  have hv : some v = some v' := by
    rw [← (t.find?_eq_some_iff).mpr he, (t.find?_eq_some_iff).mpr he']
  cases hv
  exact Option.some.inj (hae.symm.trans hbe)

/-- The file's list is in the order of times, with the keys of one time in their order. -/
theorem ordered_times (t : Table String) :
    ((times t).mergeSort fun a b => a.2.le b.2).Pairwise fun a b =>
      a.2.le b.2 ∧ (b.2.le a.2 → a.1.flat < b.1.flat) :=
  mergeSort_stable (fun a b : CacheKey × Instant => a.2.le b.2) (fun _ _ _ => Instant.le_trans)
    (fun a b => Instant.le_total a.2 b.2) (times_ascending t)

/-- This is the order of `listedBefore`. -/
theorem sorted_times (t : Table String) :
    ((times t).mergeSort fun a b => a.2.le b.2).Pairwise fun a b => listedBefore a b :=
  (ordered_times t).imp fun h =>
    (listedBefore_iff _ _).mpr ⟨h.1, fun hba => String.lt_asymm (h.2 hba)⟩

/-- A table with a memory's entries lists what the memory lists. -/
theorem sorted_times_eq {t : Table String} {m : Memory}
    (hperm : t.entries.Perm (m.entries.map fun e => (e.1.flat, e.2)))
    (hplain : ∀ e ∈ m.entries, e.1.Plain) :
    ((times t).mergeSort fun a b => a.2.le b.2) = m.listed := by
  have hentries : (times t).Perm (m.entries.filterMap fun (key, text) =>
      (CacheEntry.ofText? text).map fun e => (key, e.storedAt)) := by
    apply (hperm.filterMap timeOf?).trans
    rw [List.filterMap_map]
    apply List.Perm.of_eq
    apply List.filterMap_congr
    intro e he
    exact timeOf?_flat e.1 (hplain e he) e.2
  have hsorted := (List.mergeSort_perm (times t) fun a b => a.2.le b.2)
  have hlisted : ((times t).mergeSort fun a b => a.2.le b.2).Perm m.listed :=
    hsorted.trans (hentries.trans (List.mergeSort_perm _ _).symm)
  apply hlisted.eq_of_pairwise _ (sorted_times t)
    (List.pairwise_mergeSort listedBefore_trans listedBefore_total _)
  -- Elements that come neither before nor after each other have one flat key.
  intro a b ha hb hab hba
  rw [listedBefore_iff] at hab hba
  have ha' := hsorted.mem_iff.mp ha
  have hb' := hsorted.mem_iff.mp (hlisted.mem_iff.mpr hb)
  apply times_inj t ha' hb'
  exact String.le_antisymm (String.not_lt.mp (hab.2 hba.1)) (String.not_lt.mp (hba.2 hab.1))

/-- Mirrored states list the same. -/
theorem entries_mirrors {d : Disk} {m : Memory} (h : d.Mirrors m) :
    ∃ d', entries.run.run d = (.ok m.listed, d') ∧ d'.Mirrors m := by
  obtain ⟨t, ht, hperm, hplain⟩ := h
  refine ⟨_, ?_, t, holds_loaded ht, hperm, hplain⟩
  rw [run_entries ht.held, sorted_times_eq hperm hplain]

end Disk

end Gazetteer
