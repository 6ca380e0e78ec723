import FeatureFile.ArgType

set_option autoImplicit false

/-! # C# literals

A cell becomes an argument of a test case: a keyword or number as it stands, or a verbatim string,
in which a quote is written twice. Tags become regular strings, in which quotes and backslashes
are escaped by a backslash. -/

namespace FeatureFile.Literal

/-- A text inside a regular string. -/
def regularChars (cs : List Char) : List Char :=
  cs.flatMap fun c => if c = '\\' ∨ c = '"' then ['\\', c] else [c]

/-- A text as the contents of a regular string. -/
def regular (value : String) : String := String.ofList (regularChars value.toList)

/-- Drops one leading backslash, or else one leading slash. -/
def dropEscape : List Char → List Char
  | '\\' :: cs => cs
  | '/' :: cs => cs
  | cs => cs

/-- Writes every quote twice. -/
def doubleQuotes (cs : List Char) : List Char :=
  cs.flatMap fun c => if c = '"' then ['"', '"'] else [c]

/-- A verbatim string; a text that brings its own quotes gets no others. -/
def verbatim (value : String) (addQuotes : Bool) : String :=
  let body := dropEscape value.toList
  if addQuotes then "@\"" ++ String.ofList (doubleQuotes body) ++ "\""
  else "@" ++ String.ofList body

/-- Whether a text is enclosed in the only two quotes that it has. -/
def isQuoted (value : String) : Bool :=
  let cs := value.toList
  cs.head? == some '"' && cs.getLast? == some '"' && cs.count '"' == 2

/-- Whether a text spells `true` in letters of either case. -/
def isTrue (value : String) : Bool := value.toList.map Char.toLower == "true".toList

/-- A cell as an argument of the given type. -/
def argument (type : ArgType) (value : String) : String :=
  match type with
  | .boolean => if isTrue value then "true" else "false"
  | .integer | .float => value
  | .string => verbatim value (!isQuoted value)

/-- The keyword of a type. -/
def typeName : ArgType → String
  | .boolean => "bool"
  | .integer => "long"
  | .float => "double"
  | .string => "string"

end FeatureFile.Literal
