import Gazetteer.Table

/-!
# Tables and lists of entries

Up to order, an insertion adds an entry in place of those with its key.  So a table is made again
from its entries, in whatever order they come.

    (place key value l).Perm ((key, value) :: l.filter (·.1 != key))             (place_perm)
    l.Perm t.entries → ofList l = t                                             (ofList_perm)
-/

namespace Gazetteer.Table

variable {α : Type}

/-- An entry goes in its place, over one with the same key. -/
theorem place_perm (key : String) (value : α) (l : List (String × α))
    (h : l.Pairwise fun a b => a.1 < b.1) :
    (place key value l).Perm ((key, value) :: l.filter fun e => e.1 != key) := by
  induction l with
  | nil => exact .refl _
  | cons e rest ih =>
    obtain ⟨k, v⟩ := e
    obtain ⟨hk, hrest⟩ := List.pairwise_cons.mp h
    have hkeep (hlt : ∀ e ∈ rest, key < e.1) : rest.filter (fun e => e.1 != key) = rest := by
      apply List.filter_eq_self.mpr
      intro e he
      have hne : e.1 ≠ key := fun heq => String.lt_irrefl key (heq ▸ hlt e he)
      simpa using hne
    rw [place, List.filter_cons]
    by_cases hlt : key < k
    · have hne : k ≠ key := fun heq => String.lt_irrefl key (heq ▸ hlt)
      have hrestkeep := hkeep fun e he => String.lt_trans hlt (hk e he)
      rw [if_pos hlt, if_pos (by simpa using hne), hrestkeep]
    · rw [if_neg hlt]
      by_cases heq : key = k
      · subst heq
        rw [if_pos rfl, if_neg (by simp), hkeep hk]
      · rw [if_neg heq, if_pos (by simpa using Ne.symm heq)]
        exact ((ih hrest).cons _).trans (.swap _ _ _)

theorem keys_nodup (t : Table α) : (t.entries.map (·.1)).Nodup := by
  apply List.Pairwise.map _ _ t.ascending
  intro a b hlt heq
  rw [heq] at hlt
  exact String.lt_irrefl _ hlt

/-- Entries with new keys are added. -/
theorem foldl_insert_perm (t : Table α) (l : List (String × α))
    (h : ((t.entries ++ l).map (·.1)).Nodup) :
    (l.foldl (fun t e => t.insert e.1 e.2) t).entries.Perm (t.entries ++ l) := by
  induction l generalizing t with
  | nil => simp
  | cons e rest ih =>
    have hnew : ∀ a ∈ t.entries, a.1 ≠ e.1 := by
      intro a ha
      rw [List.map_append, List.nodup_append] at h
      exact h.2.2 a.1 (List.mem_map_of_mem ha) e.1 (by simp)
    have hkept : t.entries.filter (fun a => a.1 != e.1) = t.entries :=
      List.filter_eq_self.mpr fun a ha => by simpa using hnew a ha
    have hplace : (t.insert e.1 e.2).entries.Perm (e :: t.entries) := by
      have hperm := place_perm e.1 e.2 t.entries t.ascending
      rwa [hkept] at hperm
    have hmoved : ((t.insert e.1 e.2).entries ++ rest).Perm (t.entries ++ e :: rest) :=
      (hplace.append_right rest).trans List.perm_middle.symm
    exact (ih _ ((hmoved.map _).nodup_iff.mpr h)).trans hmoved

/-- The order of the entries that a table is made from does not matter. -/
theorem ofList_perm {t : Table α} {l : List (String × α)} (h : l.Perm t.entries) :
    ofList l = t := by
  have hnodup : (((empty : Table α).entries ++ l).map (·.1)).Nodup :=
    (h.map (·.1)).nodup_iff.mpr t.keys_nodup
  have hperm : (ofList l).entries.Perm t.entries := (foldl_insert_perm empty l hnodup).trans h
  apply Table.ext
  apply hperm.eq_of_pairwise _ (ofList l).ascending t.ascending
  intro a b _ _ hab hba
  exact absurd hba (String.lt_asymm hab)

/-- A table is made again from its entries. -/
theorem ofList_entries (t : Table α) : ofList t.entries = t := ofList_perm (.refl _)

end Gazetteer.Table
