import FeatureFile.Fault
import FeatureFile.TagSet
import FeatureFile.Text.Blank
import FeatureFile.Text.LineBreak

set_option autoImplicit false

/-! # Example tables

A table row is written between bars. A backslash takes the meaning from the character after it, so
`\|` is a bar inside a cell; the backslash before such a bar is dropped and every other backslash
stays. Text before the first and after the last bar belongs to no cell. -/

namespace FeatureFile

open Text

namespace Row

/-- The segments of a line between its unescaped bars; `escaped` says whether a backslash stands
    right before the characters at hand and takes the meaning from the first of them. -/
def segments (escaped : Bool) : List Char → List (List Char)
  | [] => [[]]
  | c :: cs =>
    if escaped then consFirst c (segments false cs)
    else if c = '\\' then consFirst c (segments true cs)
    else if c = '|' then [] :: segments false cs
    else consFirst c (segments false cs)

/-- Drops the backslash before each bar. -/
def unescape : List Char → List Char
  | [] => []
  | '\\' :: '|' :: cs => '|' :: unescape cs
  | c :: cs => c :: unescape cs

/-- The cells of a trimmed line: its inner segments, trimmed and unescaped. -/
def cellChars (line : List Char) : List (List Char) :=
  (segments false line).tail.dropLast.map fun segment => unescape (stripChars segment)

/-- Reads a table row. A row needs a cell, and so at least two unescaped bars. -/
def decode (line : String) : Except Cause Row :=
  match ofCells? ((cellChars (stripChars line.toList)).map String.ofList) with
  | some row => .ok row
  | none => .error (.malformedRow (strip line))

/-- Refuses a row that has not as many cells as its label row. -/
def checkArity (labels row : Row) : Except Cause Unit :=
  if row.width = labels.width then .ok () else .error (.arity labels row)

end Row

/-- A table of examples: the label row, the rows below it, and the tags of the table. -/
structure ExampleBlock where
  labels : Row
  rows : List Row
  tags : TagSet
deriving DecidableEq, Repr

/-- A table whose rows all fit its label row. -/
def ExampleBlock.build (labels : Row) (rows : List Row) (tags : TagSet) :
    Except Cause ExampleBlock :=
  match rows.find? fun row => row.width ≠ labels.width with
  | some row => .error (.arity labels row)
  | none => .ok ⟨labels, rows, tags⟩

end FeatureFile
