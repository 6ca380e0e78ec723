import FeatureFile.Conversion

set_option autoImplicit false

/-! # Log lines

A run tells what it does in log records. A record is shown if its level is high enough and the
logger it comes from is not silenced; silencing a logger also silences those below it. -/

namespace FeatureFile

/-- How important a record is. -/
inductive Level where
  | debug
  | info
  | warning
deriving DecidableEq, Repr

/-- The part of the program that a record comes from. -/
inductive Logger where
  | cli
  | parser
deriving DecidableEq, Repr

/-- One log record. -/
structure LogRecord where
  level : Level
  logger : Logger
  message : String
deriving DecidableEq, Repr

namespace Level

/-- How a level is shown. -/
def name : Level → String
  | debug => "DEBUG"
  | info => "INFO"
  | warning => "WARNING"

end Level

namespace Logger

/-- The logger above all others. -/
def top : String := "gherkin_export"

/-- The name that a logger is silenced by. -/
def name : Logger → String
  | cli => top ++ ".cli"
  | parser => top ++ ".parser"

/-- The names of all loggers. -/
def names : List String := [top, cli.name, parser.name]

end Logger

/-- Which records are shown. -/
structure LogFilter where
  verbose : Bool
  silenced : List String
deriving DecidableEq, Repr

namespace LogFilter

/-- Whether a record is shown. -/
def shows (filter : LogFilter) (record : LogRecord) : Bool :=
  (filter.verbose || record.level != .debug) &&
    !filter.silenced.contains Logger.top && !filter.silenced.contains record.logger.name

end LogFilter

/-- A record as a line of text. -/
def LogRecord.line (time : String) (record : LogRecord) : String :=
  "[" ++ time ++ "] " ++ record.level.name ++ ": " ++ record.message ++ "\n"

namespace Conversion

/-- The record of a parsed feature. -/
def parsedRecord (feature : Feature) : LogRecord :=
  ⟨.debug, .parser, "parsed feature " ++ Cause.quote feature.name ++
    s!" with {feature.scenarios.length} scenarios and {feature.outlines.length} scenario outlines"⟩

/-- What a conversion tells. -/
def records (path : Path) : Conversion → List LogRecord
  | converted feature output =>
    [parsedRecord feature, ⟨.debug, .cli, "converted " ++ path.text ++ " to " ++ output.text⟩]
  | failed feature error =>
    feature.toList.map parsedRecord ++
      [⟨.debug, .cli, "failed to convert " ++ path.text ++ ": " ++ error.problem.text⟩]
  | overlong feature _ => [parsedRecord feature]

end Conversion

end FeatureFile
