import FeatureFile.Text.Hex

set_option autoImplicit false

/-! # JSON

The values that exported documents are made of, and their text: two spaces for each level, one
member to a line, and no escapes but those that the format asks for. -/

namespace FeatureFile

/-- A JSON value without numbers and truth values. -/
inductive Json where
  | null
  | text (value : String)
  | list (items : List Json)
  | object (members : List (String × Json))
deriving Repr

namespace Json

/-- A list of texts. -/
def texts (values : List String) : Json := list (values.map text)

/-! ## Strings -/

/-- How a character is written inside a string. -/
def escape (c : Char) : List Char :=
  if c = '"' then ['\\', '"']
  else if c = '\\' then ['\\', '\\']
  else if c = '\n' then ['\\', 'n']
  else if c = '\r' then ['\\', 'r']
  else if c = '\t' then ['\\', 't']
  else if c = '\x08' then ['\\', 'b']
  else if c = '\x0c' then ['\\', 'f']
  else if c.toNat < 0x20 then
    ['\\', 'u'] ++ Text.hexDigits 4 c.toNat
  else [c]

/-- A string with its quotes. -/
def quoted (value : String) : String :=
  "\"" ++ String.ofList (value.toList.flatMap escape) ++ "\""

/-! ## Values -/

/-- A line break and the indentation of a level. -/
def newline (level : Nat) : String := "\n" ++ String.ofList (List.replicate (2 * level) ' ')

mutual

/-- The text of a value at a level of indentation. -/
def renderAt (level : Nat) : Json → String
  | null => "null"
  | text value => quoted value
  | list [] => "[]"
  | list (item :: rest) =>
    "[" ++ newline (level + 1) ++ renderAt (level + 1) item ++ renderItems (level + 1) rest ++
      newline level ++ "]"
  | object [] => "\x7b\x7d"
  | object (member :: rest) =>
    "\x7b" ++ newline (level + 1) ++ renderMember (level + 1) member ++
      renderMembers (level + 1) rest ++ newline level ++ "\x7d"

/-- The items after the first of a list. -/
def renderItems (level : Nat) : List Json → String
  | [] => ""
  | item :: rest => "," ++ newline level ++ renderAt level item ++ renderItems level rest

/-- One member of an object. -/
def renderMember (level : Nat) : String × Json → String
  | (name, value) => quoted name ++ ": " ++ renderAt level value

/-- The members after the first of an object. -/
def renderMembers (level : Nat) : List (String × Json) → String
  | [] => ""
  | member :: rest => "," ++ newline level ++ renderMember level member ++ renderMembers level rest

end

/-- The text of a value. -/
def render (value : Json) : String := renderAt 0 value

end Json

end FeatureFile
