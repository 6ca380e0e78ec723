import FeatureFile.Document
import FeatureFile.Numeral

set_option autoImplicit false

/-! # Argument types

Every column of an outline's tables becomes a typed argument. The type of a column is the common
type of its cells, and a string as soon as two cells disagree or a cell is missing. -/

namespace FeatureFile

/-- The type of an argument. -/
inductive ArgType where
  | boolean
  | integer
  | float
  | string
deriving DecidableEq, Repr

/-- An integer numeral with more digits than are converted. -/
structure DigitLimit where
  digits : Nat
deriving DecidableEq, Repr

namespace DigitLimit

/-- The most digits an integer numeral may have. -/
def most : Nat := 4300

/-- The sentence that explains the limit. -/
def message (limit : DigitLimit) : String :=
  s!"Exceeds the limit ({most} digits) for integer string conversion: " ++
    s!"value has {limit.digits} digits; use sys.set_int_max_str_digits() to increase the limit"

end DigitLimit

namespace ArgType

/-- Every type. -/
def all : List ArgType := [boolean, integer, float, string]

/-- How a type is named in exported files. -/
def name : ArgType → String
  | boolean => "boolean"
  | integer => "integer"
  | float => "float"
  | string => "string"

/-- The common type of two types. -/
def join (a b : ArgType) : ArgType := if a = b then a else string

/-! ## Of one cell -/

/-- Drops one line feed at the end; a number may be followed by one. -/
def dropLineFeed (cs : List Char) : List Char :=
  match cs.reverse with
  | '\n' :: rest => rest.reverse
  | _ => cs

/-- The type of a cell that is no integer. -/
def ofNonInteger (value : String) : ArgType :=
  match Decimal.read? (dropLineFeed value.toList) with
  | some decimal => if decimal.isFinite then float else string
  | none => if value = "true" ∨ value = "false" then boolean else string

/-- The type of a cell. Only integer numerals are subject to the digit limit. -/
def ofValue (value : String) : Except DigitLimit ArgType :=
  match IntegerNumeral.read? (dropLineFeed value.toList) with
  | some numeral =>
    if DigitLimit.most < numeral.digits.length then .error ⟨numeral.digits.length⟩
    else if numeral.fitsWord then .ok integer
    else .ok (ofNonInteger value)
  | none => .ok (ofNonInteger value)

/-! ## Of a column -/

/-- The type of the cell of a row in one column. -/
def ofCell (column : Nat) (row : Row) : Except DigitLimit ArgType :=
  match row.cells[column]? with
  | some value => ofValue value
  | none => .ok string

/-- The common type of several types. -/
def joinAll : List ArgType → ArgType
  | [] => string
  | type :: rest => rest.foldl join type

/-- The type of one column of all rows. -/
def ofColumn (rows : List Row) (column : Nat) : Except DigitLimit ArgType :=
  (rows.mapM (ofCell column)).map joinAll

/-- One type for each label of the first table, from the rows of all tables. -/
def infer : List ExampleBlock → Except DigitLimit (List ArgType)
  | [] => .ok []
  | first :: rest =>
    (List.range first.labels.width).mapM (ofColumn ((first :: rest).flatMap (·.rows)))

end ArgType

/-- The types of an outline's arguments. -/
def Outline.argTypes (outline : Outline) : Except DigitLimit (List ArgType) :=
  ArgType.infer outline.blocks

end FeatureFile
