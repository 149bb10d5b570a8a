import Gazetteer.Cache.Store
import Gazetteer.Table

/-!
# The cache file

Entries as one JSON object of texts in a file, with their flat keys in ascending order.  A handle
reads the file when it is first asked for something, answers from its own table from then on, and
writes the whole table back whenever it changes.

A write consists of two steps, `stage` and `writeBack`; between them another holder of the handle
may come in.
-/

namespace Gazetteer

/-- A handle on the cache file, and the file. -/
structure Disk where
  /-- What the handle has read; none before the first access. -/
  loaded : Option (Table String)
  slot : FileSlot

/-- Steps on the cache file.  Changes are kept when a step fails. -/
abbrev DiskM := ExceptT FileFault (StateM Disk)

namespace Disk

/-- A fresh handle on a file. -/
def opened (slot : FileSlot) : Disk := ⟨none, slot⟩

/-- The table that a file holds; empty if there is none. -/
def tableOf (slot : FileSlot) : Except FileProblem (Table String) :=
  if slot.occupied then do
    match (Json.Tree.ofText? (← slot.read)).bind Json.Tree.texts? with
    | some table => .ok table
    | none => .error .unparsable
  else .ok Table.empty

/-- The text of a table. -/
def textOf (table : Table String) : String := String.ofList (Json.indentedTexts table.entries)

/-- Makes a step's problem a fault of this file. -/
def check {α : Type} (result : Except FileProblem α) : DiskM α := do
  let slot := (← get).slot
  match result with
  | .ok a => return a
  | .error problem => throw (FileFault.of .cache slot problem)

/-- The handle's table, read from the file if need be. -/
def load : DiskM (Table String) := do
  match (← get).loaded with
  | some table => return table
  | none =>
    let table ← check (tableOf (← get).slot)
    modify ({ · with loaded := some table })
    return table

def find? (key : CacheKey) : DiskM (Option String) := return (← load).find? key.flat

/-- The first step of a write: the handle's table with the entry. -/
def stage (key : CacheKey) (value : String) : DiskM (Table String) := do
  let table := (← load).insert key.flat value
  modify ({ · with loaded := some table })
  return table

/-- The second step of a write: the table goes into the file, and into its directory first. -/
def writeBack (table : Table String) : DiskM Unit := do
  let slot ← check (← get).slot.makeParent
  modify ({ · with slot })
  match slot.write (textOf table) with
  | .ok slot => modify ({ · with slot })
  | .error problem =>
    modify ({ · with slot := slot.spoiled (textOf table) })
    throw (FileFault.of .cache slot problem)

def insert (key : CacheKey) (value : String) : DiskM Unit := do writeBack (← stage key value)

/-- Forgets all entries and removes the file without reading it. -/
def clear : DiskM Unit := do
  modify ({ · with loaded := some Table.empty })
  let slot := (← get).slot
  if slot.occupied then
    let slot ← check slot.remove
    modify ({ · with slot })

def size : DiskM Nat := return (← load).size

/-- The keys of a table with the times of their entries, in the order of the table.  What is no key
or no entry is left out. -/
def times (table : Table String) : List (CacheKey × Instant) :=
  table.entries.filterMap fun (flat, value) => do
    return (← CacheKey.ofFlat? flat, (← CacheEntry.ofText? value).storedAt)

/-- The keys with the times of their entries, oldest first. -/
def entries : DiskM (List (CacheKey × Instant)) :=
  return (times (← load)).mergeSort fun a b => a.2.le b.2

/-- A step as a store operation. -/
def lifted {α : Type} (step : DiskM α) : StoreM Disk α := ExceptT.adapt .file step

def store : Store Disk where
  get key := lifted (find? key)
  set key value := lifted (insert key value)
  clear := lifted clear
  size := lifted size

end Disk

end Gazetteer
