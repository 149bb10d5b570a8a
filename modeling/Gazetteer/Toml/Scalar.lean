import Gazetteer.Instant.Basic
import Gazetteer.Json.Document
import Gazetteer.Number.Decimal
import Gazetteer.Toml.Basic

/-!
# Reading TOML strings, numbers and dates

Readers take a value from the front of a text and return it with what follows.  They take as much as
they can; what may follow a value is decided by whoever reads it.
-/

namespace Gazetteer.Toml

def isSpace (c : Char) : Bool := c = ' ' || c = '\t'

def skipSpaces (s : List Char) : List Char := s.dropWhile isSpace

/-- The end of a line: a line feed, maybe after a carriage return. -/
def readNewline? : List Char → Option (List Char)
  | '\n' :: s => some s
  | '\r' :: '\n' :: s => some s
  | _ => none

/-! ## Strings -/

/-- The character of an escape by one letter. -/
def escaped? : Char → Option Char
  | '"' => some '"'
  | '\\' => some '\\'
  | 'b' => some '\x08'
  | 'f' => some '\x0c'
  | 'n' => some '\n'
  | 'r' => some '\r'
  | 't' => some '\t'
  | _ => none

/-- The character of an escape by hexadecimal digits; surrogates are none. -/
def coded? (digits : List Char) : Option Char := do
  let n := (← digits.mapM Json.hexValue?).foldl (fun n d => 16 * n + d) 0
  if n.isValidChar then some (Char.ofNat n) else none

/-- A character before the others of a string. -/
def before (c : Char) (r : Option (List Char × List Char)) : Option (List Char × List Char) :=
  r.map fun (chars, rest) => (c :: chars, rest)

/-- A basic string after its opening quote. -/
def readBasic? : List Char → Option (List Char × List Char)
  | [] => none
  | '"' :: s => some ([], s)
  | '\\' :: 'u' :: a :: b :: c :: d :: s => do before (← coded? [a, b, c, d]) (readBasic? s)
  | '\\' :: 'U' :: a :: b :: c :: d :: e :: f :: g :: h :: s => do
    before (← coded? [a, b, c, d, e, f, g, h]) (readBasic? s)
  | '\\' :: e :: s => do before (← escaped? e) (readBasic? s)
  | c :: s => if isPrintable c && c ≠ '\\' then before c (readBasic? s) else none

/-- A literal string after its opening tick. -/
def readLiteral? : List Char → Option (List Char × List Char)
  | [] => none
  | '\'' :: s => some ([], s)
  | c :: s => if isPrintable c then before c (readLiteral? s) else none

/-- Up to two marks that stand before the closing three of them; the closing ones have been read
from the front. -/
def closing (mark : Char) (s : List Char) : List Char × List Char :=
  match s with
  | a :: b :: rest =>
    if a = mark ∧ b = mark then ([a, b], rest)
    else if a = mark then ([a], b :: rest)
    else ([], s)
  | [a] => if a = mark then ([a], []) else ([], s)
  | [] => ([], [])

/-- A basic string over several lines after its opening.  After a backslash at the end of a line
blanks and line ends are passed over (`folding`). -/
def readBasicLines? (folding : Bool) : List Char → Option (List Char × List Char)
  | [] => none
  | '\n' :: s => if folding then readBasicLines? true s else before '\n' (readBasicLines? false s)
  | '\r' :: '\n' :: s =>
    if folding then readBasicLines? true s else before '\n' (readBasicLines? false s)
  | '"' :: '"' :: '"' :: s => some (closing '"' s)
  | '\\' :: s =>
    if (readNewline? (skipSpaces s)).isSome then readBasicLines? true s
    else match s with
      | 'u' :: a :: b :: c :: d :: s => do before (← coded? [a, b, c, d]) (readBasicLines? false s)
      | 'U' :: a :: b :: c :: d :: e :: f :: g :: h :: s => do
        before (← coded? [a, b, c, d, e, f, g, h]) (readBasicLines? false s)
      | e :: s => do before (← escaped? e) (readBasicLines? false s)
      | [] => none
  | c :: s =>
    if folding && isSpace c then readBasicLines? true s
    else if isPrintable c then before c (readBasicLines? false s)
    else none

/-- A literal string over several lines after its opening. -/
def readLiteralLines? : List Char → Option (List Char × List Char)
  | [] => none
  | '\n' :: s => before '\n' (readLiteralLines? s)
  | '\r' :: '\n' :: s => before '\n' (readLiteralLines? s)
  | '\'' :: '\'' :: '\'' :: s => some (closing '\'' s)
  | c :: s => if isPrintable c then before c (readLiteralLines? s) else none

/-- Any string. -/
def readText? : List Char → Option (List Char × List Char)
  | '"' :: '"' :: '"' :: s => readBasicLines? false ((readNewline? s).getD s)
  | '\'' :: '\'' :: '\'' :: s => readLiteralLines? ((readNewline? s).getD s)
  | '"' :: s => readBasic? s
  | '\'' :: s => readLiteral? s
  | _ => none

/-! ## Numbers -/

/-- Digits with single underscores between them, taken without these. -/
def readGrouped? (isDigit : Char → Bool) : List Char → Option (List Char × List Char)
  | [] => none
  | c :: s =>
    if isDigit c then
      match s with
      | '_' :: s => before c (readGrouped? isDigit s)
      | d :: s => if isDigit d then before c (readGrouped? isDigit (d :: s)) else some ([c], d :: s)
      | [] => some ([c], [])
    else none

/-- An optional sign. -/
def readSign : List Char → List Char × List Char
  | '+' :: s => (['+'], s)
  | '-' :: s => (['-'], s)
  | s => ([], s)

/-- Decimal digits without a superfluous zero in front. -/
def readWhole? : List Char → Option (List Char × List Char)
  | '0' :: s => some (['0'], s)
  | s => readGrouped? Char.isDigit s

/-- The exponent of a number, or nothing. -/
def readExponent? (s : List Char) : Option (List Char × List Char) :=
  match s with
  | e :: t =>
    if e = 'e' ∨ e = 'E' then
      let (sign, t) := readSign t
      (readGrouped? Char.isDigit t).map fun (digits, rest) => (e :: sign ++ digits, rest)
    else some ([], s)
  | [] => some ([], [])

/-- A number in another base than ten, after its mark. -/
def readBased? (base : Nat) (s : List Char) : Option (Value × List Char) := do
  let isDigit := fun c => (Json.hexValue? c).any (· < base)
  let (digits, rest) ← readGrouped? isDigit s
  let n := digits.foldl (fun n c => base * n + (Json.hexValue? c).getD 0) 0
  if n < Nat.pow 2 63 then some (.integer n, rest) else none

/-- A decimal number.  Whole numbers have 64 bits, others lie below infinity. -/
def readDecimal? (s : List Char) : Option (Value × List Char) := do
  let (sign, s) := readSign s
  let (whole, s) ← readWhole? s
  let (fraction, s) ← match s with
    | '.' :: t => (readGrouped? Char.isDigit t).map fun (digits, rest) => ('.' :: digits, rest)
    | s => some ([], s)
  let (exponent, s) ← readExponent? s
  let n := digitsValue whole
  if fraction = [] ∧ exponent = [] then
    if sign = ['-'] then
      if n ≤ Nat.pow 2 63 then some (.integer (-n), s) else none
    else if n < Nat.pow 2 63 then some (.integer n, s)
    else none
  else
    let literal := sign ++ whole ++ fraction ++ exponent
    match Binary64.ofChars? literal with
    | some (.infinite false) => none
    | _ => some (.float (String.ofList literal), s)

def readNumber? (s : List Char) : Option (Value × List Char) :=
  match s with
  | '0' :: 'x' :: s => readBased? 16 s
  | '0' :: 'o' :: s => readBased? 8 s
  | '0' :: 'b' :: s => readBased? 2 s
  | s =>
    match readSign s with
    | (sign, 'i' :: 'n' :: 'f' :: s) => some (.float (String.ofList (sign ++ ['i', 'n', 'f'])), s)
    | (sign, 'n' :: 'a' :: 'n' :: s) => some (.float (String.ofList (sign ++ ['n', 'a', 'n'])), s)
    | _ => readDecimal? s

/-! ## Dates and times -/

/-- Two digits of a number below `limit`. -/
def readTwo? (limit : Nat) : List Char → Option (Nat × List Char)
  | a :: b :: s =>
    let n := digitsValue [a, b]
    if a.isDigit ∧ b.isDigit ∧ n < limit then some (n, s) else none
  | _ => none

/-- A clock time, with seconds up to 60 and maybe a fraction; what follows. -/
def skipTime? (s : List Char) : Option (List Char) := do
  match ← readTwo? 24 s with
  | (_, ':' :: s) =>
    match ← readTwo? 60 s with
    | (_, ':' :: s) =>
      let (_, s) ← readTwo? 61 s
      match s with
      | '.' :: d :: t => return if d.isDigit then t.dropWhile Char.isDigit else s
      | s => return s
    | _ => none
  | _ => none

/-- A zone, or nothing; what follows. -/
def skipZone? (s : List Char) : Option (List Char) :=
  match s with
  | 'Z' :: t => some t
  | 'z' :: t => some t
  | '+' :: t => skipOffset t
  | '-' :: t => skipOffset t
  | s => some s
where
  skipOffset (t : List Char) : Option (List Char) := do
    match ← readTwo? 24 t with
    | (_, ':' :: t) => return (← readTwo? 60 t).2
    | _ => none

/-- A calendar date; what follows. -/
def skipDate? : List Char → Option (List Char)
  | a :: b :: c :: d :: '-' :: s => do
    if [a, b, c, d].all Char.isDigit then
      match ← readTwo? 13 s with
      | (month, '-' :: s) =>
        let (day, s) ← readTwo? 32 s
        if 1 ≤ day ∧ day ≤ daysInMonth (digitsValue [a, b, c, d]) month then some s else none
      | _ => none
    else none
  | _ => none

/-- A date, a time, or both with a zone; what follows. -/
def skipMoment? (s : List Char) : Option (List Char) :=
  match skipDate? s with
  | some rest =>
    match rest with
    | t :: time =>
      if t = 'T' ∨ t = 't' ∨ t = ' ' then
        match skipTime? time with
        | some rest => skipZone? rest
        | none => some rest
      else some rest
    | [] => some []
  | none => skipTime? s

def readMoment? (s : List Char) : Option (Value × List Char) :=
  (skipMoment? s).map fun rest => (.date (String.ofList (s.take (s.length - rest.length))), rest)

/-! ## Scalars -/

/-- A value that holds no others. -/
def readScalar? (s : List Char) : Option (Value × List Char) :=
  match s with
  | 't' :: 'r' :: 'u' :: 'e' :: s => some (.bool true, s)
  | 'f' :: 'a' :: 'l' :: 's' :: 'e' :: s => some (.bool false, s)
  | c :: _ =>
    if c = '"' ∨ c = '\'' then
      (readText? s).map fun (chars, rest) => (.text (String.ofList chars), rest)
    else
      match readMoment? s with
      | some r => some r
      | none => readNumber? s
  | [] => none

end Gazetteer.Toml
