import FeatureFile.Text.Hex
import FeatureFile.Text.Unprintable

set_option autoImplicit false

/-! # Texts quoted in messages

A word or a path is shown in single quotes, or in double quotes when it holds a single quote and
no double quote. Backslashes, the enclosing quote and the usual control characters are escaped,
and every other unprintable character is shown by its code point. -/

namespace FeatureFile.Text

/-- An unprintable character by its code point, in the shortest form that holds it. -/
def codePoint (c : Char) : List Char :=
  if c.toNat < 0x100 then ['\\', 'x'] ++ hexDigits 2 c.toNat
  else if c.toNat < 0x10000 then ['\\', 'u'] ++ hexDigits 4 c.toNat
  else ['\\', 'U'] ++ hexDigits 8 c.toNat

/-- How a character is shown between quotes of the given sort. -/
def quotedChar (quote c : Char) : List Char :=
  if c = quote ∨ c = '\\' then ['\\', c]
  else if c = '\n' then ['\\', 'n']
  else if c = '\r' then ['\\', 'r']
  else if c = '\t' then ['\\', 't']
  else if isUnprintable c then codePoint c
  else [c]

/-- The quote that encloses a text. -/
def quoteFor (cs : List Char) : Char :=
  if '\'' ∈ cs ∧ '"' ∉ cs then '"' else '\''

/-- A text in quotes. -/
def quoted (s : String) : String :=
  let quote := quoteFor s.toList
  String.ofList (quote :: s.toList.flatMap (quotedChar quote) ++ [quote])

end FeatureFile.Text
