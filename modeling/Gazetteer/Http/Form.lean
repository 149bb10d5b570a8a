/-!
# Percent encoding and form parameters

Characters that have no place in a part of an address stand there as the bytes of their UTF-8 form,
each as `%` and two hexadecimal digits.  Form parameters keep letters, digits and `*-._`, write a
space as `+`, and encode everything else.
-/

namespace Gazetteer.Http

/-- An uppercase hexadecimal digit. -/
def hexDigit (n : Nat) : Char := (Nat.digitChar (n % 16)).toUpper

def encodedByte (b : UInt8) : List Char := ['%', hexDigit (b.toNat / 16), hexDigit b.toNat]

/-- The bytes of a character, encoded. -/
def encodedChar (c : Char) : List Char := (String.utf8EncodeChar c).flatMap encodedByte

/-! ## Form parameters -/

def isFormChar (c : Char) : Bool := c.isAlphanum || c = '*' || c = '-' || c = '.' || c = '_'

/-- A name or value of a form parameter. -/
def formPart (s : String) : List Char :=
  s.toList.flatMap fun c => if c = ' ' then ['+'] else if isFormChar c then [c] else encodedChar c

/-- Parameters as a query, in order. -/
def formChars (parameters : List (String × String)) : List Char :=
  ['&'].intercalate (parameters.map fun (name, value) => formPart name ++ '=' :: formPart value)

end Gazetteer.Http
