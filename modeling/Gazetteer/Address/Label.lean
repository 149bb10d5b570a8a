import Gazetteer.Address.Basic
import Gazetteer.Text.Blank

/-!
# Address labels

One line for people: `street, place, admin area, country`, as far as there is something to say; else
the name that the provider shows; else the coordinates.
-/

namespace Gazetteer.Address

/-- Words with a space between them, absent ones left out. -/
def joinWords (words : List (Option String)) : String := " ".intercalate (words.filterMap id)

/-- The parts of a label that are not blank, trimmed. -/
def labelParts (a : Address) : List String :=
  let parts := [some (joinWords [a.streetNumber, a.streetName]),
    some (joinWords [a.postalCode, a.locality]), a.adminArea, a.country]
  ((parts.filterMap id).map Text.trim).filter fun part => !part.isEmpty

def label (a : Address) : String :=
  let parts := a.labelParts
  if parts.isEmpty then
    let name := Text.trim (a.formatted.getD "")
    if name.isEmpty then a.coordinates.text else name
  else ", ".intercalate parts

end Gazetteer.Address
