import Gazetteer.Json.Tree

/-!
# JSON documents

`Tree.ofText?` reads one value with nothing but blanks around it, by the strict grammar: no
superfluous zeros or signs, no trailing commas, no raw control characters in strings.  Blanks are
space, tab, line feed and carriage return.
-/

namespace Gazetteer.Json

def isGap (c : Char) : Bool := c = ' ' || c = '\t' || c = '\n' || c = '\r'

def skipGaps (s : List Char) : List Char := s.dropWhile isGap

/-! ## Strings -/

/-- The value of a hexadecimal digit. -/
def hexValue? (c : Char) : Option Nat :=
  if '0' ≤ c ∧ c ≤ '9' then some (c.toNat - '0'.toNat)
  else if 'a' ≤ c ∧ c ≤ 'f' then some (c.toNat - 'a'.toNat + 10)
  else if 'A' ≤ c ∧ c ≤ 'F' then some (c.toNat - 'A'.toNat + 10)
  else none

def hexCode? (a b c d : Char) : Option Nat := do
  return (← hexValue? a) * 4096 + (← hexValue? b) * 256 + (← hexValue? c) * 16 + (← hexValue? d)

/-- The character of an escape by one letter. -/
def escaped? : Char → Option Char
  | '"' => some '"'
  | '\\' => some '\\'
  | '/' => some '/'
  | 'b' => some '\x08'
  | 'f' => some '\x0c'
  | 'n' => some '\n'
  | 'r' => some '\r'
  | 't' => some '\t'
  | _ => none

/-- A string literal after its opening quote, and what follows it. -/
def readPieces? : List Char → Option (List Piece × List Char)
  | [] => none
  | '"' :: s => some ([], s)
  | '\\' :: 'u' :: a :: b :: c :: d :: s => do
    let n ← hexCode? a b c d
    let (pieces, rest) ← readPieces? s
    return (.code n :: pieces, rest)
  | '\\' :: e :: s => do
    let c ← escaped? e
    let (pieces, rest) ← readPieces? s
    return (.char c :: pieces, rest)
  | c :: s =>
    if c = '\\' ∨ c.toNat < 0x20 then none
    else (readPieces? s).map fun (pieces, rest) => (.char c :: pieces, rest)

/-! ## Values -/

mutual

/-- A value at the front of a text, after blanks, and what follows it. -/
def readTree? : Nat → List Char → Option (Tree × List Char)
  | 0, _ => none
  | fuel + 1, s =>
    match skipGaps s with
    | 'n' :: 'u' :: 'l' :: 'l' :: s => some (.null, s)
    | 't' :: 'r' :: 'u' :: 'e' :: s => some (.bool true, s)
    | 'f' :: 'a' :: 'l' :: 's' :: 'e' :: s => some (.bool false, s)
    | '"' :: s => (readPieces? s).map fun (pieces, rest) => (.text pieces, rest)
    | '[' :: s =>
      match skipGaps s with
      | ']' :: rest => some (.array [], rest)
      | s => (readItems? fuel s).map fun (items, rest) => (.array items, rest)
    | '\x7b' :: s =>
      match skipGaps s with
      | '\x7d' :: rest => some (.object [], rest)
      | s => (readMembers? fuel s).map fun (members, rest) => (.object members, rest)
    | s => (Numeral.read? s).map fun (n, rest) => (.number n, rest)

/-- The items of an array up to its closing bracket, at least one. -/
def readItems? : Nat → List Char → Option (List Tree × List Char)
  | 0, _ => none
  | fuel + 1, s => do
    let (t, s) ← readTree? fuel s
    match skipGaps s with
    | ',' :: s => do
      let (items, rest) ← readItems? fuel s
      return (t :: items, rest)
    | ']' :: s => return ([t], s)
    | _ => none

/-- The members of an object up to its closing brace, at least one. -/
def readMembers? : Nat → List Char → Option (List (List Piece × Tree) × List Char)
  | 0, _ => none
  | fuel + 1, s =>
    match skipGaps s with
    | '"' :: s => do
      let (key, s) ← readPieces? s
      match skipGaps s with
      | ':' :: s =>
        let (t, s) ← readTree? fuel s
        match skipGaps s with
        | ',' :: s => do
          let (members, rest) ← readMembers? fuel s
          return ((key, t) :: members, rest)
        | '\x7d' :: s => return ([(key, t)], s)
        | _ => none
      | _ => none
    | _ => none

end

/-- Reads a document.  Each step of the reader but every second one takes a character, so the fuel
suffices. -/
def Tree.ofText? (text : String) : Option Tree :=
  let s := text.toList
  match readTree? (2 * s.length + 2) s with
  | some (t, rest) => if skipGaps rest = [] then some t else none
  | none => none

/-- The value of a document. -/
def Value.ofText? (text : String) : Option Value := (Tree.ofText? text).bind Tree.value?

end Gazetteer.Json
