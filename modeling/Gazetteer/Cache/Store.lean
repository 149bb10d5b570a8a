import Gazetteer.Cache.Entry
import Gazetteer.FileSlot

/-!
# Stores

A `Store σ` keeps texts under cache keys; its state is a part of `σ`.  Every operation may fail.
`Memory` is the store that lives as long as the program.
-/

namespace Gazetteer

/-- Why a store operation failed. -/
inductive StoreFault where
  | file (fault : FileFault)
  | refused (reason : String)
deriving DecidableEq, Repr

def StoreFault.message : StoreFault → String
  | file fault => fault.message
  | refused reason => reason

/-- Store operations keep their changes of the state when they fail. -/
abbrev StoreM (σ : Type) := ExceptT StoreFault (StateM σ)

structure Store (σ : Type) where
  get : CacheKey → StoreM σ (Option String)
  set : CacheKey → String → StoreM σ Unit
  clear : StoreM σ Unit
  size : StoreM σ Nat

/-- Whether a store keeps nothing. -/
def Store.isEmpty {σ : Type} (store : Store σ) : StoreM σ Bool := return (← store.size) == 0

/-! ## Memory -/

/-- Texts under keys, one per key. -/
structure Memory where
  entries : List (CacheKey × String)
deriving DecidableEq, Repr

namespace Memory

def empty : Memory := ⟨[]⟩

def find? (m : Memory) (key : CacheKey) : Option String := m.entries.lookup key

/-- Writes a text, over one under the same key. -/
def insert (m : Memory) (key : CacheKey) (value : String) : Memory :=
  ⟨(key, value) :: m.entries.filter fun e => e.1 != key⟩

def size (m : Memory) : Nat := m.entries.length

@[simp] theorem find?_empty (key : CacheKey) : empty.find? key = none := rfl

theorem find?_insert (m : Memory) (key key' : CacheKey) (value : String) :
    (m.insert key value).find? key' = if key' = key then some value else m.find? key' := by
  obtain ⟨entries⟩ := m
  simp only [find?, insert, List.lookup_cons]
  by_cases h : key' = key
  · simp [h]
  · have hb : (key' == key) = false := by simpa using h
    simp only [hb, if_neg h]
    induction entries with
    | nil => rfl
    | cons e rest ih =>
      obtain ⟨k, v⟩ := e
      by_cases hk : k = key
      · have hne : (key' == k) = false := by rw [hk]; exact hb
        simp [List.lookup_cons, hk, hb, ih]
      · simp [hk, List.lookup_cons, ih]

/-- The store in memory never fails. -/
def store : Store Memory where
  get key := return (← get).find? key
  set key value := modify (·.insert key value)
  clear := set empty
  size := return (← get).size

end Memory

end Gazetteer
