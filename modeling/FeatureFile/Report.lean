import FeatureFile.Fault
import FeatureFile.Files.Tree
import FeatureFile.Text.Utf8

set_option autoImplicit false

/-! # Reports of failed conversions

A file that cannot be converted is reported on one line, or in a log file with one line for each
scope of the trail. -/

namespace FeatureFile

/-- Why a file could not be converted. -/
inductive ConversionError where
  | document (fault : Fault)
  | file (error : FileError)
  | encoding (error : Utf8.Error)
deriving DecidableEq, Repr

/-- What a report says about an error. -/
structure Problem where
  /-- The error in one text. -/
  text : String
  /-- The number of the line at fault. -/
  number : Option Int
  /-- The trail that leads to the error, and its message. -/
  breadcrumbs : List String
deriving DecidableEq, Repr

/-- A diagnostic as a problem. -/
def Diagnostic.problem (diagnostic : Diagnostic) : Problem :=
  ⟨diagnostic.text, diagnostic.number, diagnostic.breadcrumbs⟩

/-- A message without line and trail. -/
def Problem.ofMessage (message : String) : Problem := ⟨message, none, [message]⟩

/-- What there is to say about an error. -/
def ConversionError.problem : ConversionError → Problem
  | document fault => fault.diagnostic.problem
  | file error => .ofMessage error.message
  | encoding error => .ofMessage error.message

namespace Report

/-- A word in red, for a terminal. -/
def red (word : String) : String := "\x1b[31m" ++ word ++ "\x1b[39m"

/-- The lines of a text in one line, with a colon for each line feed. -/
def inOneLine (text : String) : String :=
  String.ofList (text.toList.flatMap fun c => if c = '\n' then [':', ' '] else [c])

/-- The file, with the line if it is known. -/
def location (filename : String) (problem : Problem) : String :=
  match problem.number with
  | some number => s!"{filename}:{number}"
  | none => filename

/-- The report on one line: where, that it is an error, and what is wrong. -/
def line (filename : String) (problem : Problem) : String :=
  location filename problem ++ "\t" ++ red "error" ++ "\t" ++ inOneLine problem.text

/-- The report in a log file. -/
def log (path : Path) (problem : Problem) : String :=
  String.intercalate ":\n" (("Error parsing " ++ path.text) :: problem.breadcrumbs)

end Report

end FeatureFile
