import FeatureFile.Fault
import FeatureFile.Text.Blank

set_option autoImplicit false

/-! # Steps

A step is a keyword and a text in which placeholders stand between angle brackets. The text is
kept as the literal before the first placeholder and, for each placeholder, its name and the
literal after it, so there is always one literal more than there are placeholders. -/

namespace FeatureFile

open Text

/-- One step of a scenario. -/
structure Step where
  keyword : StepKeyword
  /-- The text before the first placeholder. -/
  lead : String
  /-- Each placeholder with the text after it. -/
  slots : List (String × String)
deriving DecidableEq, Repr

namespace Step

/-- The texts around the placeholders. -/
def literals (step : Step) : List String := step.lead :: step.slots.map (·.2)

/-- The names of the placeholders. -/
def placeholders (step : Step) : List String := step.slots.map (·.1)

/-- The number of placeholders. -/
def arity (step : Step) : Nat := step.slots.length

/-- The text of the step, with its placeholders in angle brackets. -/
def text (step : Step) : String :=
  step.lead ++ String.join (step.slots.map fun slot => "<" ++ slot.1 ++ ">" ++ slot.2)

theorem length_literals (step : Step) : step.literals.length = step.placeholders.length + 1 := by
  simp [literals, placeholders]

/-! ## From literals and placeholders -/

/-- The numbers of literals and placeholders do not fit together. -/
structure PartsMismatch where
  literals : Nat
  placeholders : Nat
deriving DecidableEq, Repr

/-- The sentence that explains a mismatch. -/
def PartsMismatch.message (mismatch : PartsMismatch) : String :=
  s!"step has {mismatch.literals} literals and {mismatch.placeholders} variables, " ++
    "expected exactly one more literal than variables"

/-- The step with the given literals and placeholders in between. -/
def ofParts (keyword : StepKeyword) (literals placeholders : List String) :
    Except PartsMismatch Step :=
  match literals with
  | [] => .error ⟨0, placeholders.length⟩
  | lead :: rest =>
    if rest.length = placeholders.length then .ok ⟨keyword, lead, placeholders.zip rest⟩
    else .error ⟨rest.length + 1, placeholders.length⟩

/-! ## From text -/

mutual

/-- The literal up to the next placeholder, and the slots from there on. -/
def literalChars : List Char → Option (List Char × List (List Char × List Char))
  | [] => some ([], [])
  | c :: cs =>
    if c = '<' then (placeholderChars cs).map fun slots => ([], slots)
    else (literalChars cs).map fun rest => (c :: rest.1, rest.2)

/-- The slots that start inside a placeholder; none if it is never closed. -/
def placeholderChars : List Char → Option (List (List Char × List Char))
  | [] => none
  | c :: cs =>
    if c = '>' then (literalChars cs).map fun rest => ([], rest.1) :: rest.2
    else (placeholderChars cs).map fun slots =>
      match slots with
      | [] => []
      | (name, literal) :: more => (c :: name, literal) :: more

end

/-- Reads the content of a step line. -/
def decode (keyword : StepKeyword) (content : String) : Except Cause Step :=
  match literalChars (stripChars content.toList) with
  | none => .error (.unterminatedPlaceholder keyword content)
  | some (lead, slots) =>
    .ok ⟨keyword, String.ofList lead,
      slots.map fun slot => (String.ofList slot.1, String.ofList slot.2)⟩

end Step

/-- The keyword that a word, trimmed, stands for. -/
def StepKeyword.read (word : String) : Except Cause StepKeyword :=
  match ofWord? (strip word) with
  | some keyword => .ok keyword
  | none => .error (.unrecognizedKeyword word)

end FeatureFile
