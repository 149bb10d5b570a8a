/-!
# Blank characters, trimming and splitting

Blank means the Unicode property White_Space, which goes beyond `Char.isWhitespace`.
-/

namespace Gazetteer.Text

/-- The characters with the Unicode property White_Space. -/
def isBlank (c : Char) : Bool :=
  let n := c.toNat
  (9 ≤ n && n ≤ 13) || n == 0x20 || n == 0x85 || n == 0xA0 || n == 0x1680
    || (0x2000 ≤ n && n ≤ 0x200A) || n == 0x2028 || n == 0x2029 || n == 0x202F || n == 0x205F || n == 0x3000

/-- Without blanks in front. -/
def trimStart (s : List Char) : List Char := s.dropWhile isBlank

/-- Without blanks at either end. -/
def trimChars (s : List Char) : List Char := (trimStart (trimStart s).reverse).reverse

/-- Without blanks at either end. -/
def trim (s : String) : String := String.ofList (trimChars s.toList)

/-- The parts of a text between separators: one more than there are separators. -/
def splitAt (sep : Char) : List Char → List (List Char)
  | [] => [[]]
  | c :: s =>
    if c = sep then [] :: splitAt sep s
    else match splitAt sep s with
      | part :: rest => (c :: part) :: rest
      | [] => [[c]]

/-- What stands before and after the first separator. -/
def splitOnce (sep : Char) : List Char → Option (List Char × List Char)
  | [] => none
  | c :: s => if c = sep then some ([], s) else (splitOnce sep s).map fun (a, b) => (c :: a, b)

/-- `word` without what follows it in `s`, if `s` starts with it. -/
def stripFront (word : List Char) (s : List Char) : Option (List Char) :=
  match word, s with
  | [], s => some s
  | _ :: _, [] => none
  | w :: word, c :: s => if w = c then stripFront word s else none

end Gazetteer.Text
