/-!
# Tables

Entries under text keys, one per key, in ascending order of the keys (code point by code point).
Reading and writing are one law each:

    (t.insert k v).find? k' = if k' = k then some v else t.find? k'      (find?_insert)
    t.find? k = some v ↔ (k, v) ∈ t.entries                              (find?_eq_some_iff)
-/

namespace Gazetteer

structure Table (α : Type) where
  entries : List (String × α)
  ascending : entries.Pairwise fun a b => a.1 < b.1

namespace Table

variable {α : Type}

/-- Puts an entry in its place, over one with the same key. -/
def place (key : String) (value : α) : List (String × α) → List (String × α)
  | [] => [(key, value)]
  | (k, v) :: rest =>
    if key < k then (key, value) :: (k, v) :: rest
    else if key = k then (key, value) :: rest
    else (k, v) :: place key value rest

theorem mem_place {key : String} {value : α} {l : List (String × α)} {e : String × α}
    (h : e ∈ place key value l) : e = (key, value) ∨ e ∈ l := by
  induction l with
  | nil => simpa [place] using h
  | cons p rest ih =>
    obtain ⟨k, v⟩ := p
    simp only [place] at h
    split at h
    · simpa using h
    · split at h
      · rcases List.mem_cons.mp h with h | h
        · exact .inl h
        · exact .inr (List.mem_cons_of_mem _ h)
      · rcases List.mem_cons.mp h with h | h
        · exact .inr (by simp [h])
        · exact (ih h).imp id (List.mem_cons_of_mem _)

theorem place_ascending {key : String} {value : α} {l : List (String × α)}
    (h : l.Pairwise fun a b => a.1 < b.1) :
    (place key value l).Pairwise fun a b => a.1 < b.1 := by
  induction l with
  | nil => simp [place]
  | cons p rest ih =>
    obtain ⟨k, v⟩ := p
    obtain ⟨hk, hrest⟩ := List.pairwise_cons.mp h
    simp only [place]
    split
    · next hlt =>
      refine List.pairwise_cons.mpr ⟨fun e he => ?_, h⟩
      rcases List.mem_cons.mp he with rfl | he
      · exact hlt
      · exact String.lt_trans hlt (hk e he)
    · next hnlt =>
      split
      · next heq => subst heq; exact List.pairwise_cons.mpr ⟨hk, hrest⟩
      · next hne =>
        refine List.pairwise_cons.mpr ⟨fun e he => ?_, ih hrest⟩
        rcases mem_place he with rfl | he
        · exact Classical.byContradiction fun hc =>
            hne (String.le_antisymm (String.not_lt.mp hc) (String.not_lt.mp hnlt))
        · exact hk e he

instance : Inhabited (Table α) := ⟨⟨[], .nil⟩⟩

def empty : Table α := ⟨[], .nil⟩

/-- Writes an entry, over one with the same key. -/
def insert (t : Table α) (key : String) (value : α) : Table α :=
  ⟨place key value t.entries, place_ascending t.ascending⟩

/-- Later entries over earlier ones. -/
def ofList (l : List (String × α)) : Table α := l.foldl (fun t e => t.insert e.1 e.2) empty

def find? (t : Table α) (key : String) : Option α := t.entries.lookup key

def keys (t : Table α) : List String := t.entries.map (·.1)

def size (t : Table α) : Nat := t.entries.length

/-! ## Laws -/

@[ext] theorem ext {s t : Table α} (h : s.entries = t.entries) : s = t := by
  cases s; cases t; cases h; rfl

@[simp] theorem find?_empty (key : String) : (empty : Table α).find? key = none := rfl

theorem lookup_entry (key k : String) (v : α) (rest : List (String × α)) :
    ((k, v) :: rest).lookup key = if key = k then some v else rest.lookup key := by
  rw [List.lookup_cons]
  split <;> simp_all

theorem lookup_place (key key' : String) (value : α) (l : List (String × α)) :
    (place key value l).lookup key' = if key' = key then some value else l.lookup key' := by
  induction l with
  | nil => simp [place, lookup_entry]
  | cons p rest ih =>
    obtain ⟨k, v⟩ := p
    simp only [place]
    grind [lookup_entry]

theorem find?_insert (t : Table α) (key key' : String) (value : α) :
    (t.insert key value).find? key' = if key' = key then some value else t.find? key' :=
  lookup_place key key' value t.entries

theorem lookup_eq_some_iff {l : List (String × α)} (h : l.Pairwise fun a b => a.1 < b.1)
    {key : String} {value : α} : l.lookup key = some value ↔ (key, value) ∈ l := by
  induction l with
  | nil => simp
  | cons p rest ih =>
    obtain ⟨k, v⟩ := p
    obtain ⟨hk, hrest⟩ := List.pairwise_cons.mp h
    by_cases hkey : key = k
    · subst hkey
      have hnot : (key, value) ∉ rest := fun hm => String.lt_irrefl key (hk (key, value) hm)
      simp [hnot, eq_comm]
    · rw [lookup_entry, if_neg hkey, ih hrest]
      simp [hkey]

theorem find?_eq_some_iff (t : Table α) {key : String} {value : α} :
    t.find? key = some value ↔ (key, value) ∈ t.entries :=
  lookup_eq_some_iff t.ascending

end Table

end Gazetteer
