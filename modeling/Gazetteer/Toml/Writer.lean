import Gazetteer.Toml.Basic

/-!
# Writing TOML

A text is written in the first of the four kinds of strings that shows it without escapes, in the
order: basic, literal, basic over several lines, literal over several lines.  If there is none, it
is written with escapes, over several lines if it has a line feed.
-/

namespace Gazetteer.Toml

/-! ## What a text holds -/

def hasLineFeed (s : List Char) : Bool := s.contains '\n'

/-- Control characters other than tab and line feed. -/
def hasControl (s : List Char) : Bool := s.any fun c => c ≠ '\n' && !isPrintable c

/-- The longest run of a character. -/
def longestRun (mark : Char) (s : List Char) : Nat :=
  (s.foldl (fun (best, run) c =>
    let run := if c = mark then run + 1 else 0
    (max best run, run)) (0, 0)).1

/-- Nothing in the text needs an escape in a basic string. -/
def isClean (s : List Char) : Bool :=
  !hasLineFeed s && !hasControl s && !s.contains '"' && !s.contains '\\'

/-! ## Strings -/

def upperHexDigit (n : Nat) : Char := (Nat.digitChar (n % 16)).toUpper

/-- A character inside a basic string on one line. -/
def escapeChar (c : Char) : List Char :=
  if c = '"' then ['\\', '"']
  else if c = '\\' then ['\\', '\\']
  else if c = '\n' then ['\\', 'n']
  else if c = '\r' then ['\\', 'r']
  else if c = '\t' then ['\\', 't']
  else if c = '\x08' then ['\\', 'b']
  else if c = '\x0c' then ['\\', 'f']
  else if c.toNat < 0x20 || c.toNat = 0x7F then
    ['\\', 'u', '0', '0', upperHexDigit (c.toNat / 16), upperHexDigit c.toNat]
  else [c]

/-- The characters of a basic string over several lines, after `quotes` quotes in a row: line feeds
stand as they are, and of three quotes in a row the third is escaped. -/
def escapeLines (quotes : Nat) : List Char → List Char
  | [] => []
  | c :: s =>
    if c = '\n' then c :: escapeLines 0 s
    else if c = '"' ∧ quotes < 2 then c :: escapeLines (quotes + 1) s
    else escapeChar c ++ escapeLines 0 s

/-- A line feed after the opening quotes, where it does not count. -/
def opening (s : List Char) : List Char := if hasLineFeed s then ['\n'] else []

def threeQuotes : List Char := ['"', '"', '"']

def threeTicks : List Char := ['\'', '\'', '\'']

def basicChars (s : List Char) : List Char := '"' :: s.flatMap escapeChar ++ ['"']

def literalChars (s : List Char) : List Char := '\'' :: s ++ ['\'']

def basicLinesChars (s : List Char) : List Char :=
  threeQuotes ++ opening s ++ escapeLines 0 s ++ threeQuotes

def literalLinesChars (s : List Char) : List Char := threeTicks ++ opening s ++ s ++ threeTicks

/-- A text as a string. -/
def textChars (s : List Char) : List Char :=
  if isClean s then basicChars s
  else if !hasControl s && !s.contains '\'' && !hasLineFeed s then literalChars s
  else if !hasControl s && !s.contains '\\' && longestRun '"' s ≤ 2 then basicLinesChars s
  else if !hasControl s && longestRun '\'' s ≤ 2 then literalLinesChars s
  else if hasLineFeed s then basicLinesChars s
  else basicChars s

/-- A key, with quotes only if it needs them. -/
def keyChars (s : List Char) : List Char :=
  if !s.isEmpty && s.all isBare then s
  else if isClean s then basicChars s
  else if !hasControl s && !s.contains '\'' && !hasLineFeed s then literalChars s
  else basicChars s

/-! ## Lines -/

/-- Texts in an array: on one line up to one of them, otherwise one on a line. -/
def arrayChars (texts : List String) : List Char :=
  match texts.map fun s => textChars s.toList with
  | [] => ['[', ']']
  | [s] => '[' :: s ++ [']']
  | several =>
    '[' :: '\n' :: several.flatMap (fun s => [' ', ' ', ' ', ' '] ++ s ++ [',', '\n']) ++ [']']

/-- A line that gives a key a value. -/
def lineChars (key : String) (value : List Char) : List Char :=
  key.toList ++ ' ' :: '=' :: ' ' :: value ++ ['\n']

/-- A line that opens a table inside a table with a bare key. -/
def headerChars (outer inner : String) : List Char :=
  '[' :: outer.toList ++ '.' :: keyChars inner.toList ++ [']', '\n']

end Gazetteer.Toml
