/-!
# XML documents

Trees of elements and their text.  An element holds either elements, each on a line of its own and
indented by four spaces, or data in one piece on the line of its tags.  Data stands there escaped or
in CDATA sections; the mark that ends a section is divided between two of them.
-/

namespace Gazetteer.Xml

inductive Element where
  /-- A tag without content. -/
  | empty (name : String) (attributes : List (String × String))
  /-- Escaped character data. -/
  | text (name : String) (data : String)
  /-- Character data in sections. -/
  | sections (name : String) (data : String)
  | parent (name : String) (attributes : List (String × String)) (children : List Element)
deriving Inhabited

/-! ## Data -/

/-- A character of escaped data. -/
def escapeChar (c : Char) : List Char :=
  if c = '<' then "&lt;".toList
  else if c = '>' then "&gt;".toList
  else if c = '&' then "&amp;".toList
  else if c = '\'' then "&apos;".toList
  else if c = '"' then "&quot;".toList
  else [c]

def escape (s : String) : String := String.ofList (s.toList.flatMap escapeChar)

/-- Data with the end mark `]]>` divided: a section ends after its second bracket and a new one
starts. -/
def divide : List Char → List Char
  | ']' :: ']' :: '>' :: s => "]]]]><![CDATA[>".toList ++ divide s
  | c :: s => c :: divide s
  | [] => []

/-- Data in sections. -/
def sectionsText (s : String) : String :=
  "<![CDATA[" ++ String.ofList (divide s.toList) ++ "]]>"

/-! ## Elements -/

/-- What stands between the brackets of an opening tag. -/
def tagText (name : String) (attributes : List (String × String)) : String :=
  name ++ String.join (attributes.map fun (key, value) =>
    " " ++ key ++ "=\"" ++ escape value ++ "\"")

/-- The start of a line at a depth. -/
def margin (depth : Nat) : String := "\n" ++ "".pushn ' ' (4 * depth)

mutual

/-- An element on new lines. -/
def Element.render (depth : Nat) : Element → String
  | .empty name attributes => margin depth ++ "<" ++ tagText name attributes ++ "/>"
  | .text name data =>
    margin depth ++ "<" ++ name ++ ">" ++ escape data ++ "</" ++ name ++ ">"
  | .sections name data =>
    margin depth ++ "<" ++ name ++ ">" ++ sectionsText data ++ "</" ++ name ++ ">"
  | .parent name attributes children =>
    margin depth ++ "<" ++ tagText name attributes ++ ">" ++ renderAll (depth + 1) children
      ++ margin depth ++ "</" ++ name ++ ">"

def renderAll (depth : Nat) : List Element → String
  | [] => ""
  | e :: rest => e.render depth ++ renderAll depth rest

end

/-- Whether a document says that it stands alone. -/
structure Document where
  standalone : Option String
  root : Element

def Document.render (d : Document) : String :=
  let standalone := match d.standalone with
    | some answer => " standalone=\"" ++ answer ++ "\""
    | none => ""
  "<?xml version=\"1.0\" encoding=\"UTF-8\"" ++ standalone ++ "?>" ++ d.root.render 0 ++ "\n"

end Gazetteer.Xml
