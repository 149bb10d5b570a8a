import Gazetteer.Address.Basic
import Gazetteer.Text.Blank

/-!
# Queries and requests

What a lookup asks for: the place of a text, or the address at a point.  `Query.signature` names a
query inside cache keys.
-/

namespace Gazetteer

inductive Query where
  | text (s : String)
  | point (c : Coordinates)
deriving DecidableEq, Repr

namespace Query

/-- The name of a query.  Texts count without blanks at their ends, points by their number texts. -/
def signature : Query → String
  | text s => "geocode:" ++ Text.trim s
  | point c => "reverse:" ++ c.text

/-- Whether a query goes from a point to an address. -/
def isReverse : Query → Bool
  | text _ => false
  | point _ => true

/-- Equality as texts and as numbers. -/
def same : Query → Query → Bool
  | text s, text t => s == t
  | point c, point d => c.same d
  | _, _ => false

end Query

/-- A query and the ids of the providers to ask, in order. -/
structure Request where
  query : Query
  providers : List String
deriving DecidableEq, Repr

end Gazetteer
