import Gazetteer.Number.Layout

/-!
# JSON values and their text

`Value.chars` writes a value without blanks between its tokens, objects in the order of their
members.  Doubles are written by `Layout.json`; NaN and the infinities, which JSON has no text for,
are written `null`.
-/

namespace Gazetteer.Json

inductive Value where
  | null
  | bool (b : Bool)
  /-- A whole number at or above 0. -/
  | natural (n : Nat)
  /-- The whole number `-n`. -/
  | negative (n : Nat)
  | double (x : Binary64)
  | text (s : String)
  | array (items : List Value)
  | object (members : List (String × Value))
deriving Inhabited

/-! ## String literals -/

/-- A lowercase hexadecimal digit. -/
def hexDigit (n : Nat) : Char := Nat.digitChar (n % 16)

/-- A character inside a string literal. -/
def escapeChar (c : Char) : List Char :=
  if c = '"' then ['\\', '"']
  else if c = '\\' then ['\\', '\\']
  else if c = '\n' then ['\\', 'n']
  else if c = '\r' then ['\\', 'r']
  else if c = '\t' then ['\\', 't']
  else if c = '\x08' then ['\\', 'b']
  else if c = '\x0c' then ['\\', 'f']
  else if c.toNat < 0x20 then ['\\', 'u', '0', '0', hexDigit (c.toNat / 16), hexDigit c.toNat]
  else [c]

/-- A text as a string literal. -/
def quoted (s : String) : List Char := '"' :: s.toList.flatMap escapeChar ++ ['"']

/-! ## Values -/

/-- A double as a number, if it is one. -/
def doubleChars (x : Binary64) : List Char :=
  if x.isFinite then x.chars .json else ['n', 'u', 'l', 'l']

namespace Value

mutual

/-- The text of a value. -/
def chars : Value → List Char
  | null => ['n', 'u', 'l', 'l']
  | bool b => if b then ['t', 'r', 'u', 'e'] else ['f', 'a', 'l', 's', 'e']
  | natural n => Nat.toDigits 10 n
  | negative n => '-' :: Nat.toDigits 10 n
  | double x => doubleChars x
  | text s => quoted s
  | array items => '[' :: itemsChars items ++ [']']
  | object members => '\x7b' :: membersChars members ++ ['\x7d']

/-- Values with commas between them. -/
def itemsChars : List Value → List Char
  | [] => []
  | [v] => chars v
  | v :: rest => chars v ++ ',' :: itemsChars rest

/-- Members with commas between them. -/
def membersChars : List (String × Value) → List Char
  | [] => []
  | [(k, v)] => quoted k ++ ':' :: chars v
  | (k, v) :: rest => quoted k ++ ':' :: chars v ++ ',' :: membersChars rest

end

/-- The text of a value. -/
def compact (v : Value) : String := String.ofList v.chars

end Value

/-- A table of texts as an object over several lines, indented by two spaces. -/
def indentedTexts (entries : List (String × String)) : List Char :=
  if entries.isEmpty then ['\x7b', '\x7d']
  else
    let line := fun (e : String × String) => ' ' :: ' ' :: quoted e.1 ++ ':' :: ' ' :: quoted e.2
    ['\x7b', '\n'] ++ [',', '\n'].intercalate (entries.map line) ++ ['\n', '\x7d']

end Gazetteer.Json
