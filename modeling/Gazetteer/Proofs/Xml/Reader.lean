import Gazetteer.Text.Blank
import Gazetteer.Xml

/-!
# A plain reader of XML

Reads a document character by character.  Elements must be balanced; values stand in double quotes
and no key is given twice; text and values may hold the five named entities and nothing else that
begins with `&`; sections of data that follow each other, and text between them, are one piece.
Blank text between elements is passed over.  Characters are taken as they are, line ends included.

    <a k="1 &lt; 2">      mode `tag` from the `<`, then `text`
    <![CDATA[x]]>         mode `mark` from the `!`, then `section` until `]]>`
-/

namespace Gazetteer.Xml

/-- An element with its character data and the elements in it. -/
inductive Node where
  | element (name : String) (attributes : List (String × String)) (data : String)
    (children : List Node)
deriving Inhabited

def isSpace (c : Char) : Bool := c = ' ' || c = '\t' || c = '\n' || c = '\r'

/-- The characters of names. -/
def isNameChar (c : Char) : Bool := c.isAlphanum || c = '-' || c = '_' || c = ':' || c = '.'

/-- Text with its entities replaced. -/
def unescape? : List Char → Option (List Char)
  | [] => some []
  | '&' :: 'l' :: 't' :: ';' :: s => (unescape? s).map ('<' :: ·)
  | '&' :: 'g' :: 't' :: ';' :: s => (unescape? s).map ('>' :: ·)
  | '&' :: 'a' :: 'm' :: 'p' :: ';' :: s => (unescape? s).map ('&' :: ·)
  | '&' :: 'a' :: 'p' :: 'o' :: 's' :: ';' :: s => (unescape? s).map ('\'' :: ·)
  | '&' :: 'q' :: 'u' :: 'o' :: 't' :: ';' :: s => (unescape? s).map ('"' :: ·)
  | c :: s => if c = '&' ∨ c = '<' then none else (unescape? s).map (c :: ·)

/-! ## Tags -/

/-- The key in what stands before a value: blanks, the key, an equals sign. -/
def key? (lead : List Char) : Option String :=
  let s := lead.dropWhile isSpace
  let key := s.takeWhile isNameChar
  if lead.head?.any isSpace ∧ key ≠ [] ∧
      (s.dropWhile isNameChar).filter (!isSpace ·) = ['='] then some (String.ofList key)
  else none

/-- Attributes from what the quotes of a tag separate. -/
def attributes? : List (List Char) → Option (List (String × String))
  | [] => none
  | [tail] => if tail.all isSpace then some [] else none
  | lead :: value :: rest => do
    return (← key? lead, String.ofList (← unescape? value)) :: (← attributes? rest)

/-- An element that has been opened. -/
structure Frame where
  name : String
  attributes : List (String × String)
  /-- All its character data so far. -/
  data : List Char := []
  /-- The same without blank text. -/
  solid : List Char := []
  children : List Node := []

namespace Frame

def addText (f : Frame) (s : List Char) : Frame :=
  { f with data := f.data ++ s, solid := if s.all isSpace then f.solid else f.solid ++ s }

def addSection (f : Frame) (s : List Char) : Frame :=
  { f with data := f.data ++ s, solid := f.solid ++ s }

def addChild (f : Frame) (n : Node) : Frame := { f with children := f.children ++ [n] }

/-- The element, when it is closed.  Between elements blank text does not count. -/
def node (f : Frame) : Node :=
  .element f.name f.attributes (String.ofList (if f.children.isEmpty then f.data else f.solid))
    f.children

/-- The element that a tag opens: a name and attributes under different keys. -/
def ofTag? (body : List Char) : Option Frame := do
  let name := body.takeWhile isNameChar
  let attributes ← attributes? (Text.splitAt '"' (body.dropWhile isNameChar))
  if name ≠ [] ∧ (attributes.map (·.1)).Nodup then
    return { name := String.ofList name, attributes }
  else none

end Frame

/-! ## The reader -/

/-- What the reader is inside, with the characters seen since it began, last one first. -/
inductive Mode where
  | text (seen : List Char)
  | tag (quoted : Bool) (seen : List Char)
  /-- After `<!`, with what must follow. -/
  | mark (expected : List Char)
  | section (seen : List Char)

structure Reader where
  /-- The innermost open element. -/
  frame : Frame
  outer : List Frame
  mode : Mode

namespace Reader

/-- The end of a tag: a declaration, a closing tag, or one that opens an element. -/
def endTag? (r : Reader) : List Char → Option Reader
  | '?' :: body =>
    if body.getLast? = some '?' then some { r with mode := .text [] } else none
  | '/' :: name =>
    match r.outer with
    | [] => none
    | f :: outer =>
      if name = r.frame.name.toList then some ⟨f.addChild r.frame.node, outer, .text []⟩ else none
  | body =>
    if body.getLast? = some '/' then
      (Frame.ofTag? body.dropLast).map fun f => ⟨r.frame.addChild f.node, r.outer, .text []⟩
    else (Frame.ofTag? body).map fun f => ⟨f, r.frame :: r.outer, .text []⟩

def step (r : Reader) (c : Char) : Option Reader :=
  match r.mode with
  | .text seen =>
    if c = '<' then do
      return { r with frame := r.frame.addText (← unescape? seen.reverse), mode := .tag false [] }
    else some { r with mode := .text (c :: seen) }
  | .tag quoted seen =>
    if c = '<' then none
    else if c = '"' then some { r with mode := .tag (!quoted) (c :: seen) }
    else if c = '>' ∧ !quoted then r.endTag? seen.reverse
    else if c = '!' ∧ seen = [] then some { r with mode := .mark "[CDATA[".toList }
    else some { r with mode := .tag quoted (c :: seen) }
  | .mark [] => none
  | .mark (e :: rest) =>
    if c ≠ e then none
    else if rest = [] then some { r with mode := .section [] }
    else some { r with mode := .mark rest }
  | .section seen =>
    match c, seen with
    | '>', ']' :: ']' :: seen =>
      some { r with frame := r.frame.addSection seen.reverse, mode := .text [] }
    | c, seen => some { r with mode := .section (c :: seen) }

def read (r : Reader) (s : List Char) : Option Reader := s.foldlM step r

/-- Before a document, with a nameless element around it. -/
def start : Reader := ⟨{ name := "", attributes := [] }, [], .text []⟩

/-- The root element after a document, with nothing but blanks around it. -/
def root? (r : Reader) : Option Node :=
  match r.mode, r.outer, r.frame.children with
  | .text seen, [], [root] => if seen.all isSpace ∧ r.frame.solid = [] then some root else none
  | _, _, _ => none

end Reader

/-- Reads a document. -/
def Node.ofText? (text : String) : Option Node := (Reader.start.read text.toList).bind Reader.root?

end Gazetteer.Xml
