import FeatureFile.Text.Cut
import FeatureFile.Text.UpperCase
import FeatureFile.Text.WordChar

set_option autoImplicit false

/-! # Names in Pascal and camel case

A free text becomes an identifier by cutting it into words and running the words together. In
Pascal case every word starts with an upper-case letter; in camel case the first word is kept as
it is, and it is empty when the text starts with a separator. -/

namespace FeatureFile.Text

/-- Whether a character separates words. -/
def isSeparator (c : Char) : Bool := !isWordChar c

/-- The word with its first character in upper case. -/
def capitalize : List Char → List Char
  | [] => []
  | c :: cs => upperChar c ++ cs

/-- The words run together, each with an upper-case start. -/
def pascalChars (cs : List Char) : List Char := (piecesAt isSeparator cs).flatMap capitalize

/-- The words run together, each but the first with an upper-case start. -/
def camelChars (cs : List Char) : List Char :=
  match piecesAt isSeparator cs with
  | [] => []
  | first :: rest => first ++ rest.flatMap capitalize

/-- A text as a name in Pascal case. -/
def pascal (s : String) : String := String.ofList (pascalChars s.toList)

/-- A text as a name in camel case. -/
def camel (s : String) : String := String.ofList (camelChars s.toList)

end FeatureFile.Text
