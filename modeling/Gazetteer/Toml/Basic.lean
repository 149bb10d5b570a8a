/-!
# TOML values
-/

namespace Gazetteer.Toml

/-- A value.  Numbers with a fraction and dates are kept as they are written. -/
inductive Value where
  | text (s : String)
  | bool (b : Bool)
  | integer (n : Int)
  | float (literal : String)
  | date (literal : String)
  | array (items : List Value)
  | table (members : List (String × Value))
deriving Inhabited

/-- A character that may stand in comments and strings: no control character but the tab. -/
def isPrintable (c : Char) : Bool := c = '\t' || (0x20 ≤ c.toNat && c.toNat ≠ 0x7F)

/-- A character of a key without quotes. -/
def isBare (c : Char) : Bool := c.isAlphanum || c = '_' || c = '-'

end Gazetteer.Toml
