import FeatureFile.Keyword
import FeatureFile.Text.Blank
import FeatureFile.Text.Cut
import FeatureFile.Text.LineBreak

set_option autoImplicit false

/-! # Lines of a feature file

A feature file is read line by line. Blank lines and comments are dropped, the other lines are
trimmed and keep their number. Each kept line has one of five shapes, which its text alone
decides. -/

namespace FeatureFile

open Text

/-! ## Shapes -/

/-- What a line is. -/
inductive Shape where
  /-- Tag names, each after an `@`; a name is empty where nothing follows its `@`. -/
  | tags (names : List String)
  | step (keyword : StepKeyword) (content : String)
  | header (keyword : GroupKeyword) (title : String)
  | row
  | freeText
deriving DecidableEq, Repr

/-- The trimmed text before and after the first `sep`. -/
def cutTrimmed? (sep : Char) (text : String) : Option (String × String) :=
  (cutAt sep text.toList).map fun cut =>
    (String.ofList (stripChars cut.1), String.ofList (stripChars cut.2))

namespace Shape

/-- A group header: one of the group words, a colon, and a title. -/
def header? (text : String) : Option Shape :=
  match cutTrimmed? ':' text with
  | none => none
  | some (word, title) => (GroupKeyword.ofWord? word).map fun keyword => header keyword title

/-- A step: one of the step words, a space, and the content. -/
def step? (text : String) : Option Shape :=
  match cutTrimmed? ' ' text with
  | none => none
  | some (word, content) => (StepKeyword.ofWord? word).map fun keyword => step keyword content

/-- What the first character says about a line that is neither header nor step. -/
def ofFirst (text : String) : Shape :=
  match text.toList with
  | '@' :: rest =>
    tags ((piecesAt (· == '@') rest).map fun name => String.ofList (stripChars name))
  | '|' :: _ => row
  | _ => freeText

/-- The shape of a trimmed line. -/
def ofText (text : String) : Shape :=
  match header? text with
  | some shape => shape
  | none =>
    match step? text with
    | some shape => shape
    | none => ofFirst text

end Shape

/-! ## Numbered lines -/

/-- A trimmed line with its number and shape. -/
structure Line where
  number : Nat
  text : String
  shape : Shape
deriving DecidableEq, Repr

/-- The trimmed line, whatever it holds. -/
def Line.ofText (number : Nat) (raw : String) : Line :=
  let text := strip raw
  ⟨number, text, Shape.ofText text⟩

/-- A text without the byte order mark that may start it. -/
def dropByteOrderMark (source : String) : String :=
  match source.toList with
  | '\uFEFF' :: rest => String.ofList rest
  | _ => source

/-- Whether a trimmed line is neither empty nor a comment. -/
def isKept (text : String) : Bool :=
  match text.toList with
  | [] => false
  | c :: _ => c != '#'

/-- The trimmed lines that are neither empty nor comments, with their numbers from one. -/
def keptLines (source : String) : List (Nat × String) :=
  ((splitLines (dropByteOrderMark source)).zipIdx 1).filterMap fun (raw, number) =>
    let text := strip raw
    if isKept text then some (number, text) else none

/-- The lines of a feature file. -/
def Line.ofSource (source : String) : List Line :=
  (keptLines source).map fun (number, text) => Line.ofText number text

end FeatureFile
