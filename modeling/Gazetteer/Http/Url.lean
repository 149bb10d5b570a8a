import Gazetteer.Http.Form

/-!
# Web addresses

A `Url` is an address as it is asked for, in two parts: what stands before the question mark, and
the query behind it.  Which texts are addresses, and how they are brought into this form, is up to
the network.  `Url.withParameters` appends form parameters to the query.
-/

namespace Gazetteer.Http

structure Url where
  /-- Scheme, host, port and path. -/
  front : String
  query : Option String
deriving DecidableEq, Repr

/-- The same address with parameters after those it has. -/
def Url.withParameters (u : Url) (parameters : List (String × String)) : Url :=
  let more := String.ofList (formChars parameters)
  let query := match u.query with
    | none | some "" => more
    | some q => q ++ "&" ++ more
  { u with query := some query }

end Gazetteer.Http
