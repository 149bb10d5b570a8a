import Gazetteer.Toml.Assembly
import Gazetteer.Toml.Scalar

/-!
# Reading TOML documents

`Toml.read?` gives the members of a document's root table.
-/

namespace Gazetteer.Toml

/-! ## Between values -/

/-- Passes over blanks, line ends and comments; the flag says whether a comment is open. -/
def skipTrivia? (inComment : Bool) : List Char → Option (List Char)
  | [] => some []
  | '\n' :: s => skipTrivia? false s
  | '\r' :: '\n' :: s => skipTrivia? false s
  | c :: s =>
    if inComment then (if isPrintable c then skipTrivia? true s else none)
    else if c = '#' then skipTrivia? true s
    else if isSpace c then skipTrivia? false s
    else some (c :: s)

/-- The end of a line, after blanks and maybe a comment. -/
def readLineEnd? (s : List Char) : Option (List Char) :=
  let rest := match skipSpaces s with
    | '#' :: s => s.dropWhile isPrintable
    | s => s
  match rest with
  | [] => some []
  | s => readNewline? s

/-! ## Keys -/

def readSimpleKey? (s : List Char) : Option (String × List Char) :=
  match s with
  | '"' :: s => (readBasic? s).map fun (chars, rest) => (String.ofList chars, rest)
  | '\'' :: s => (readLiteral? s).map fun (chars, rest) => (String.ofList chars, rest)
  | s =>
    let name := s.takeWhile isBare
    if name = [] then none else some (String.ofList name, s.dropWhile isBare)

/-- The parts of a dotted key, with blanks around them. -/
def readKeyParts? : Nat → List Char → Option (List String × List Char)
  | 0, _ => none
  | fuel + 1, s => do
    let (name, s) ← readSimpleKey? (skipSpaces s)
    match skipSpaces s with
    | '.' :: s => do
      let (names, s) ← readKeyParts? fuel s
      return (name :: names, s)
    | s => return ([name], s)

/-- How many parts a key may have, and how deep arrays and inline tables may lie in each other. -/
def nestingLimit : Nat := 79

def readKey? (s : List Char) : Option (Key × List Char) := do
  let (names, s) ← readKeyParts? (nestingLimit + 1) s
  if nestingLimit < names.length then none
  else
    let last ← names.getLast?
    return (⟨names.dropLast, last⟩, s)

/-! ## Values -/

mutual

/-- A value with at most `depth` levels. -/
def readValue? : Nat → Nat → List Char → Option (Value × List Char)
  | 0, _, _ => none
  | fuel + 1, depth, s =>
    match s, depth with
    | '[' :: s, depth + 1 => (readItems? fuel depth s).map fun (items, s) => (.array items, s)
    | '\x7b' :: s, depth + 1 => do
      let (assignments, s) ← readAssignments? fuel depth s
      return (.table (← inlineMembers assignments), s)
    | s, _ => readScalar? s

/-- The items of an array up to its closing bracket; a comma may stand after the last. -/
def readItems? : Nat → Nat → List Char → Option (List Value × List Char)
  | 0, _, _ => none
  | fuel + 1, depth, s => do
    match ← skipTrivia? false s with
    | ']' :: s => return ([], s)
    | s =>
      let (v, s) ← readValue? fuel depth s
      match ← skipTrivia? false s with
      | ',' :: s => do
        let (rest, s) ← readItems? fuel depth s
        return (v :: rest, s)
      | ']' :: s => return ([v], s)
      | _ => none

/-- The assignments of an inline table up to its closing brace. -/
def readAssignments? : Nat → Nat → List Char → Option (List (Key × Value) × List Char)
  | 0, _, _ => none
  | fuel + 1, depth, s => do
    match skipSpaces s with
    | '\x7d' :: s => return ([], s)
    | s =>
      let (key, s) ← readKey? s
      match s with
      | '=' :: s =>
        let (v, s) ← readValue? fuel depth (skipSpaces s)
        match skipSpaces s with
        | ',' :: s =>
          let (rest, s) ← readAssignments? fuel depth s
          if rest.isEmpty then none else return ((key, v) :: rest, s)
        | '\x7d' :: s => return ([(key, v)], s)
        | _ => none
      | _ => none

end

/-! ## Statements -/

/-- A statement, up to the end of its line. -/
def readStatement? (s : List Char) : Option (Statement × List Char) := do
  match s with
  | '[' :: '[' :: s =>
    match ← readKey? s with
    | (key, ']' :: ']' :: s) => return (.element key, ← readLineEnd? s)
    | _ => none
  | '[' :: s =>
    match ← readKey? s with
    | (key, ']' :: s) => return (.header key, ← readLineEnd? s)
    | _ => none
  | s =>
    match ← readKey? s with
    | (key, '=' :: s) =>
      let (v, s) ← readValue? (2 * s.length + 2) nestingLimit (skipSpaces s)
      return (.assign key v, ← readLineEnd? s)
    | _ => none

/-- All statements; every one takes a character, so the fuel suffices. -/
def readStatements? : Nat → List Char → Option (List Statement)
  | 0, _ => none
  | fuel + 1, s => do
    match ← skipTrivia? false s with
    | [] => return []
    | s =>
      let (statement, s) ← readStatement? s
      return statement :: (← readStatements? fuel s)

/-- Reads a document.  A byte order mark in front is passed over. -/
def read? (text : String) : Option (List (String × Value)) := do
  let s := match text.toList with
    | '\uFEFF' :: s => s
    | s => s
  let statements ← readStatements? (s.length + 1) s
  let draft ← statements.foldlM Draft.add Draft.empty
  return memberValues draft.root

end Gazetteer.Toml
