import Gazetteer.Json.Numeral
import Gazetteer.Table

/-!
# JSON documents before their values are known

A `Tree` is the syntax of a document: numbers as written, strings with their escapes, members in
order with repetitions.  What a part of a document means is asked for part by part:

    Tree.text?      the text of a string; surrogate escapes must come in pairs
    Tree.double?    the double of a number
    Tree.value?     the value of the whole, at most 127 levels deep
    Tree.fields?    the parts of a record, as an object or as an array
    Tree.members?   the parts of a record, as an object only

So a part nobody asks for may hold numbers beyond the doubles or half a surrogate pair.
-/

namespace Gazetteer.Json

/-- A character of a string literal, or an escape by a 16-bit code. -/
inductive Piece where
  | char (c : Char)
  | code (n : Nat)
deriving DecidableEq, Repr

inductive Tree where
  | null
  | bool (b : Bool)
  | number (n : Numeral)
  | text (pieces : List Piece)
  | array (items : List Tree)
  | object (members : List (List Piece × Tree))
deriving Inhabited

/-! ## Strings -/

def isHighSurrogate (n : Nat) : Bool := 0xD800 ≤ n && n < 0xDC00

def isLowSurrogate (n : Nat) : Bool := 0xDC00 ≤ n && n < 0xE000

/-- The characters of a string literal. -/
def Piece.chars? : List Piece → Option (List Char)
  | [] => some []
  | .char c :: rest => (chars? rest).map (c :: ·)
  | .code high :: .code low :: rest =>
    if isHighSurrogate high then
      if isLowSurrogate low then
        (chars? rest).map (Char.ofNat (0x10000 + (high - 0xD800) * 0x400 + (low - 0xDC00)) :: ·)
      else none
    else if isLowSurrogate high then none
    else (chars? (.code low :: rest)).map (Char.ofNat high :: ·)
  | .code n :: rest =>
    if isHighSurrogate n || isLowSurrogate n then none else (chars? rest).map (Char.ofNat n :: ·)

def Piece.text? (pieces : List Piece) : Option String := (chars? pieces).map String.ofList

namespace Tree

def text? : Tree → Option String
  | text pieces => Piece.text? pieces
  | _ => none

def double? : Tree → Option Binary64
  | number n => n.double?
  | _ => none

/-! ## Values -/

/-- How deep arrays and objects may lie in each other. -/
def maxDepth : Nat := 127

mutual

/-- The value of a tree with at most `depth` levels. -/
def valueWithin? (depth : Nat) : Tree → Option Value
  | null => some .null
  | bool b => some (.bool b)
  | number n => n.value?
  | text pieces => (Piece.text? pieces).map .text
  | array items =>
    match depth with
    | 0 => none
    | depth + 1 => (itemsWithin? depth items).map .array
  | object members =>
    match depth with
    | 0 => none
    | depth + 1 => (membersWithin? depth members).map fun l => .object (Table.ofList l).entries

def itemsWithin? (depth : Nat) : List Tree → Option (List Value)
  | [] => some []
  | t :: rest => do return (← valueWithin? depth t) :: (← itemsWithin? depth rest)

def membersWithin? (depth : Nat) : List (List Piece × Tree) → Option (List (String × Value))
  | [] => some []
  | (key, t) :: rest => do
    return (← Piece.text? key, ← valueWithin? depth t) :: (← membersWithin? depth rest)

end

/-- The value of a document.  Members are in the order of their keys; of members with one key the
last counts. -/
def value? (t : Tree) : Option Value := t.valueWithin? maxDepth

/-! ## Records -/

/-- Members with decoded keys. -/
def keyed? (members : List (List Piece × Tree)) : Option (List (String × Tree)) :=
  members.mapM fun (key, t) => (Piece.text? key).map (·, t)

/-- The one member under a key; none if there are two. -/
def single? (key : String) (members : List (String × Tree)) : Option (Option Tree) :=
  match members.filter (·.1 == key) with
  | [] => some none
  | [(_, t)] => some (some t)
  | _ => none

/-- The parts of a record with the given fields from an object, where fields may be missing and
other members are passed over. -/
def members? (names : List String) : Tree → Option (List (Option Tree))
  | object members => do names.mapM (single? · (← keyed? members))
  | _ => none

/-- The parts of a record with the given fields: from an object, or from an array of exactly these
fields in this order. -/
def fields? (names : List String) : Tree → Option (List (Option Tree))
  | object members => (object members).members? names
  | array items => if items.length = names.length then some (items.map some) else none
  | _ => none

/-- A field that must be there. -/
def required {α : Type} (read : Tree → Option α) (field : Option Tree) : Option α := field.bind read

/-- A field that may be missing or null. -/
def optional {α : Type} (read : Tree → Option α) : Option Tree → Option (Option α)
  | none => some none
  | some null => some none
  | some t => (read t).map some

/-- An array of equal parts. -/
def list? {α : Type} (read : Tree → Option α) : Tree → Option (List α)
  | array items => items.mapM read
  | _ => none

/-- An object of texts; of members with one key the last counts. -/
def texts? : Tree → Option (Table String)
  | object members => do
    return Table.ofList (← (← keyed? members).mapM fun (key, t) => t.text?.map (key, ·))
  | _ => none

end Tree

end Gazetteer.Json
