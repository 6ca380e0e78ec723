import FeatureFile.Keyword
import FeatureFile.Row

set_option autoImplicit false

/-! # What can be wrong with a feature file

A `Cause` says what is wrong, a `Scope` names a part of the document that was being read, and a
`Fault` puts the two together with the line number. A `Diagnostic` is the form in which a fault is
shown: its kind, its message, and the trail of scopes from the outermost to the innermost. -/

namespace FeatureFile

/-! ## Kinds -/

/-- The family a fault belongs to. -/
inductive Kind where
  | general
  | structural
  | duplicateBackground
  | titledExamples
  | decoding
  | malformedRow
  | unterminatedPlaceholder
  | unrecognizedKeyword
  | arity
deriving DecidableEq, Repr

namespace Kind

/-- The kind that a kind refines. -/
def parent? : Kind → Option Kind
  | general => none
  | structural | decoding | arity => some general
  | duplicateBackground | titledExamples => some structural
  | malformedRow | unterminatedPlaceholder | unrecognizedKeyword => some decoding

/-- A kind and the kinds it refines, up to `general`. -/
def lineage (kind : Kind) : List Kind :=
  match kind.parent? with
  | none => [kind]
  | some parent =>
    match parent.parent? with
    | none => [kind, parent]
    | some top => [kind, parent, top]

end Kind

/-! ## Causes -/

/-- What is wrong. Lines and header texts are those of the trimmed line. -/
inductive Cause where
  /-- Something other than the feature header, or the end of the file, stands first. -/
  | expectedFeature (found : Option String)
  /-- The file ends after a line of tags. -/
  | tagsAtEnd (tags : String)
  /-- A line of tags is followed by something that carries no tags. -/
  | tagsBeforeNonHeader (found : String)
  /-- A line where only a group header or tags may stand. -/
  | expectedGroup (found : String)
  /-- A line that is no step where the steps of a group are read. -/
  | expectedStep (found : String)
  /-- A line that is no row where the rows of a table are read. -/
  | expectedRow (found : String)
  /-- The first line of a table is missing. -/
  | expectedLabels (found : Option String)
  /-- The header of a table carries a title. -/
  | titledExamples (header : String)
  /-- A group that may not stand at this place. -/
  | misplacedGroup (keyword : GroupKeyword) (header : String)
  /-- A second background. -/
  | duplicateBackground (title first header : String)
  /-- A table row with fewer than two unescaped bars. -/
  | malformedRow (line : String)
  /-- A row without cells. -/
  | emptyRow
  /-- A row with another number of cells than its label row. -/
  | arity (labels row : Row)
  /-- A placeholder without its closing bracket. -/
  | unterminatedPlaceholder (keyword : StepKeyword) (content : String)
  /-- A word that opens no step. -/
  | unrecognizedKeyword (word : String)
deriving DecidableEq, Repr

namespace Cause

/-- A text in double quotes. -/
def quote (text : String) : String := "\"" ++ text ++ "\""

/-- How a message refers to the line at hand, or to the end of the file. -/
def describe : Option String → String
  | none => "end of file"
  | some text => quote text

/-- A step as its keyword and content. -/
def stepText (keyword : StepKeyword) (content : String) : String := keyword.word ++ " " ++ content

/-- The family of a cause. -/
def kind : Cause → Kind
  | expectedFeature _ | tagsAtEnd _ | tagsBeforeNonHeader _ | expectedGroup _ | expectedStep _
  | expectedRow _ | expectedLabels _ | misplacedGroup _ _ => .structural
  | titledExamples _ => .titledExamples
  | duplicateBackground _ _ _ => .duplicateBackground
  | malformedRow _ | emptyRow => .malformedRow
  | arity _ _ => .arity
  | unterminatedPlaceholder _ _ => .unterminatedPlaceholder
  | unrecognizedKeyword _ => .unrecognizedKeyword

/-- The sentence that explains a cause. -/
def message : Cause → String
  | expectedFeature found => "expected \"Feature:\", found " ++ describe found
  | tagsAtEnd tags =>
    "tags must be followed by the group they annotate, found end of file after " ++ quote tags
  | tagsBeforeNonHeader found => "tags must be followed by a group header, found " ++ quote found
  | expectedGroup found =>
    "expected \"Background:\", \"Scenario:\", \"Scenario Outline:\" or tags, found " ++ quote found
  | expectedStep found => "expected a step, tags or a group header, found " ++ quote found
  | expectedRow found => "expected an example row, tags or a group header, found " ++ quote found
  | expectedLabels found => "expected a label row after \"Examples:\", found " ++ describe found
  | titledExamples header =>
    "Examples blocks cannot carry a title, expected \"Examples:\" but found " ++ quote header
  | misplacedGroup keyword header =>
    quote (keyword.word ++ ":") ++ " is not allowed at this position, found " ++ quote header
  | duplicateBackground title first _ =>
    "a feature can only have one background, found " ++ quote title ++ " after " ++ quote first
  | malformedRow line =>
    "malformed table row, expected cells between \"|\" delimiters: " ++ quote line
  | emptyRow => "example row must contain at least one cell"
  | arity labels row =>
    s!"example row has {row.width} cells but the label row has {labels.width}, " ++
      "label row: " ++ labels.text ++ ", example row: " ++ row.text
  | unterminatedPlaceholder keyword content =>
    "placeholder opened with \"<\" is never closed with \">\" in step " ++
      quote (stepText keyword content)
  | unrecognizedKeyword word =>
    "unrecognized step keyword " ++ quote word ++ " (expected one of " ++
      String.intercalate ", " (StepKeyword.all.map fun keyword => "'" ++ keyword.word ++ "'") ++ ")"

/-- The line that a cause points at, as far as the cause knows it. -/
def line : Cause → Option String
  | expectedFeature found | expectedLabels found => found
  | tagsAtEnd text | tagsBeforeNonHeader text | expectedGroup text | expectedStep text
  | expectedRow text | titledExamples text | misplacedGroup _ text
  | duplicateBackground _ _ text | malformedRow text => some text
  | arity _ row => some row.text
  | unterminatedPlaceholder keyword content => some (stepText keyword content)
  | emptyRow | unrecognizedKeyword _ => none

end Cause

/-! ## Scopes -/

/-- A part of the document that is being read. -/
inductive Scope where
  | feature (name : String)
  | background (title : String)
  | scenario (title : String)
  | outline (title : String)
  | block (number : Nat)
deriving DecidableEq, Repr

/-- How a trail names a scope. -/
def Scope.describe : Scope → String
  | feature name => "while parsing feature " ++ Cause.quote name
  | background title => "while parsing background " ++ Cause.quote title
  | scenario title => "while parsing scenario " ++ Cause.quote title
  | outline title => "while parsing scenario outline " ++ Cause.quote title
  | block number => s!"while parsing example block #{number}"

/-! ## Diagnostics -/

/-- A fault as it is shown to a user. -/
structure Diagnostic where
  kind : Kind
  message : String
  number : Option Int
  line : Option String
  /-- The scopes around the fault, outermost first. -/
  trail : List String
deriving DecidableEq, Repr

namespace Diagnostic

/-- The trail, with the message at its end. -/
def breadcrumbs (diagnostic : Diagnostic) : List String :=
  diagnostic.trail ++ [diagnostic.message]

/-- The whole trail in one text. -/
def text (diagnostic : Diagnostic) : String := String.intercalate ": " diagnostic.breadcrumbs

end Diagnostic

/-- A cause as a diagnostic outside of any scope. -/
def Cause.diagnostic (cause : Cause) (number : Option Int) : Diagnostic :=
  ⟨cause.kind, cause.message, number, cause.line, []⟩

/-- A cause, the number of the line it was found at, and the scopes open there, outermost first. -/
structure Fault where
  cause : Cause
  number : Option Nat
  scopes : List Scope
deriving DecidableEq, Repr

/-- A fault as it is shown. -/
def Fault.diagnostic (fault : Fault) : Diagnostic :=
  { fault.cause.diagnostic (fault.number.map Int.ofNat) with
    trail := fault.scopes.map Scope.describe }

end FeatureFile
