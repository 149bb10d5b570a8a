import Gazetteer.Toml.Basic

/-!
# Tables from statements

The statements of a document define its tables bit by bit.  What may still be added to a table
depends on what first defined it: a header, a header of a table inside it, or a dotted key.  Nothing
is defined twice.
-/

namespace Gazetteer.Toml

/-- What first defined a table. -/
inductive Origin where
  /-- A header of its own, or an element of a list of tables. -/
  | header
  /-- The header of a table inside it. -/
  | implied
  /-- A dotted key. -/
  | dotted
deriving DecidableEq, Repr

inductive Node where
  | value (v : Value)
  | table (origin : Origin) (members : List (String × Node))
  | tables (elements : List (List (String × Node)))
deriving Inhabited

abbrev Members := List (String × Node)

namespace Members

/-- Writes a member, over one with the same key. -/
def put (m : Members) (key : String) (node : Node) : Members :=
  match m with
  | [] => [(key, node)]
  | (k, n) :: rest => if k = key then (key, node) :: rest else (k, n) :: put rest key node

/-- Changes the table at a path, given with its origin.  Tables that are not there yet come to be
with the origin `fresh`; a path goes on in the last of a list of tables.  Along dotted keys no
table with a header is entered. -/
def edit (fresh : Origin) (change : Origin → Members → Option Members) :
    List String → Origin → Members → Option Members
  | [], origin, m => change origin m
  | key :: path, _, m =>
    match m.lookup key with
    | none => do return m.put key (.table fresh (← edit fresh change path fresh []))
    | some (.table origin sub) =>
      if fresh = .dotted ∧ origin = .header then none
      else do return m.put key (.table origin (← edit fresh change path origin sub))
    | some (.tables elements) =>
      match elements.reverse with
      | last :: before => do
        let last ← edit fresh change path .header last
        return m.put key (.tables (last :: before).reverse)
      | [] => none
    | some (.value _) => none

/-- Adds a value under a dotted key. -/
def addValue (path : List String) (key : String) (v : Value) : Origin → Members → Option Members :=
  edit .dotted (fun origin m =>
    if (origin = .dotted ↔ path = []) ∨ (m.lookup key).isSome then none
    else some (m.put key (.value v))) path

/-- Opens the table of a header. -/
def openTable (path : List String) (key : String) : Members → Option Members :=
  edit .implied (fun _ m =>
    match m.lookup key with
    | none => some (m.put key (.table .header []))
    | some (.table .implied sub) => some (m.put key (.table .header sub))
    | some _ => none) path .header

/-- Opens one more element of a list of tables. -/
def openElement (path : List String) (key : String) : Members → Option Members :=
  edit .implied (fun _ m =>
    match m.lookup key with
    | none => some (m.put key (.tables [[]]))
    | some (.tables elements) => some (m.put key (.tables (elements ++ [[]])))
    | some _ => none) path .header

end Members

mutual

/-- The value of a finished part. -/
def Node.toValue : Node → Value
  | .value v => v
  | .table _ members => .table (memberValues members)
  | .tables elements => .array (elementValues elements)

def memberValues : Members → List (String × Value)
  | [] => []
  | (key, node) :: rest => (key, node.toValue) :: memberValues rest

def elementValues : List Members → List Value
  | [] => []
  | m :: rest => .table (memberValues m) :: elementValues rest

end

/-! ## Statements -/

/-- A dotted key: the tables it goes through and its last part. -/
structure Key where
  path : List String
  last : String

inductive Statement where
  | assign (key : Key) (v : Value)
  | header (key : Key)
  | element (key : Key)

/-- What has been defined, and the path of the table that is being defined. -/
structure Draft where
  root : Members
  current : List String

def Draft.empty : Draft := ⟨[], []⟩

def Draft.add (d : Draft) : Statement → Option Draft
  | .assign key v => do
    let root ← Members.edit .implied (Members.addValue key.path key.last v) d.current .header d.root
    return { d with root }
  | .header key => do
    return ⟨← Members.openTable key.path key.last d.root, key.path ++ [key.last]⟩
  | .element key => do
    return ⟨← Members.openElement key.path key.last d.root, key.path ++ [key.last]⟩

/-- The members of an inline table. -/
def inlineMembers (assignments : List (Key × Value)) : Option (List (String × Value)) := do
  let add := fun (m : Members) ((key, v) : Key × Value) =>
    Members.addValue key.path key.last v .header m
  let root ← assignments.foldlM add []
  return memberValues root

end Gazetteer.Toml
