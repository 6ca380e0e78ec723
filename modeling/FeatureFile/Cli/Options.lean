import FeatureFile.Export.Format
import FeatureFile.Text.Blank
import FeatureFile.Text.Cut
import FeatureFile.Text.Digit
import FeatureFile.Text.Quoted

set_option autoImplicit false

/-! # Command line options

The words of a command line are first told apart: flags, values, and the separator `--`, after
which every word is a value. Then they are taken from left to right. A flag takes the values it
needs; the two positional arguments are taken together from the first values that no flag takes,
so later values are left over. A flag may be shortened as long as it stays unique, and its value
may be joined to it. -/

namespace FeatureFile

open Text

/-! ## What can be asked for -/

/-- What happens to the reports of failed files. -/
inductive ErrorBehavior where
  | log
  | silent
  | stdout
  | stderr
deriving DecidableEq, Repr

namespace ErrorBehavior

/-- Every behaviour. -/
def all : List ErrorBehavior := [log, silent, stdout, stderr]

/-- The name a user chooses the behaviour by. -/
def name : ErrorBehavior → String
  | log => "log"
  | silent => "silent"
  | stdout => "stdout"
  | stderr => "stderr"

/-- The behaviour of a name. -/
def ofName? (name : String) : Option ErrorBehavior :=
  all.find? fun behavior => behavior.name == name

end ErrorBehavior

/-- The settings of a run. -/
structure Options where
  pattern : String
  output : String
  format : Format
  errorBehavior : ErrorBehavior
  jobs : Int
  verbose : Bool
  /-- The names of the loggers to be silenced. -/
  silenced : List String
deriving DecidableEq, Repr

/-- What a command line asks for. -/
inductive Request where
  | convert (options : Options)
  | help
  | version
  | usageError (message : String)
deriving DecidableEq, Repr

namespace Options

/-! ## Flags -/

/-- An option that is given by a flag. -/
inductive Flag where
  | help
  | format
  | errorBehavior
  | jobs
  | verbose
  | silence
  | version
deriving DecidableEq, Repr

/-- How many values a flag takes. -/
inductive Takes where
  | nothing
  | one
  | several
deriving DecidableEq, Repr

namespace Flag

/-- Every flag, in the order in which they are listed to a user. -/
def all : List Flag := [help, format, errorBehavior, jobs, verbose, silence, version]

/-- How a flag is written, the short form first. -/
def forms : Flag → List String
  | help => ["-h", "--help"]
  | format => ["-f", "--format"]
  | errorBehavior => ["-e", "--error-behavior"]
  | jobs => ["-j", "--jobs"]
  | verbose => ["--verbose"]
  | silence => ["--no-verbose"]
  | version => ["--version"]

/-- What a flag takes. -/
def takes : Flag → Takes
  | help | verbose | version => .nothing
  | format | errorBehavior | jobs => .one
  | silence => .several

/-- Every form of every flag. -/
def table : List (String × Flag) := all.flatMap fun flag => flag.forms.map fun form => (form, flag)

/-- An error about a flag. -/
def complaint (flag : Flag) (message : String) : String :=
  "argument " ++ String.intercalate "/" flag.forms ++ ": " ++ message

end Flag

/-! ## Telling words apart -/

/-- What a word of the command line is. -/
inductive Word where
  | value
  | separator
  /-- A flag, with the value that is joined to it. -/
  | flag (flag : Flag) (joined : Option String)
  /-- A word that looks like a flag and is none. -/
  | unknown
deriving DecidableEq, Repr

/-- Whether a text is a minus sign and decimal digits, with a point before the last of them at
    most; a line feed may follow. -/
def isNegativeNumber (cs : List Char) : Bool :=
  match cs with
  | '-' :: rest =>
    let body := if rest.getLast? = some '\n' then rest.dropLast else rest
    let isDigit := fun c => (digitValue? c).isSome
    match body.dropWhile isDigit with
    | [] => !body.isEmpty
    | '.' :: fraction => !fraction.isEmpty && fraction.all isDigit
    | _ => false
  | _ => false

/-- A flag in full, or with its value after an equals sign. -/
def exactFlag? (word : String) : Option Word :=
  match Flag.table.lookup word with
  | some flag => some (.flag flag none)
  | none =>
    match cutAt '=' word.toList with
    | none => none
    | some (form, value) =>
      (Flag.table.lookup (String.ofList form)).map fun flag =>
        .flag flag (some (String.ofList value))

/-- The forms that a word can be short for, with the value that is joined to it: a long form may
    be cut off, and a short form may be followed by its value. -/
def candidates (word : List Char) : List (String × Flag) × Option String :=
  match word with
  | '-' :: '-' :: _ =>
    match cutAt '=' word with
    | none => (Flag.table.filter fun entry => word.isPrefixOf entry.1.toList, none)
    | some (form, value) =>
      (Flag.table.filter fun entry => form.isPrefixOf entry.1.toList, some (String.ofList value))
  | dash :: c :: value =>
    (Flag.table.filter fun entry => entry.1.toList == [dash, c], some (String.ofList value))
  | _ => ([], none)

/-- What a word before the separator is, or which flags it may be short for. -/
def classify (word : String) : Except String Word :=
  let cs := word.toList
  match cs with
  | '-' :: _ :: _ =>
    match exactFlag? word with
    | some found => .ok found
    | none =>
      match candidates cs with
      | ([], _) => if isNegativeNumber cs || cs.contains ' ' then .ok .value else .ok .unknown
      | ([(_, flag)], joined) => .ok (.flag flag joined)
      | (several, _) =>
        .error ("ambiguous option: " ++ word ++ " could match " ++
          String.intercalate ", " (several.map (·.1)))
  | _ => .ok .value

/-- All words with what they are. -/
def classifyAll : List String → Except String (List (String × Word))
  | [] => .ok []
  | word :: rest =>
    if word = "--" then
      .ok ((word, .separator) :: rest.map fun value => (value, .value))
    else do
      let kind ← classify word
      return (word, kind) :: (← classifyAll rest)

/-! ## Values -/

/-- Reads decimal digits of any script, with single underscores between them. -/
def readDigits? : List Char → Option (List Nat)
  | [] => none
  | [c] => (digitValue? c).map fun value => [value]
  | c :: '_' :: rest => do return (← digitValue? c) :: (← readDigits? rest)
  | c :: rest => do return (← digitValue? c) :: (← readDigits? rest)

/-- Whether a character may stand around an integer. -/
def isPadding (c : Char) : Bool := isBlank c && !(0x1C ≤ c.toNat && c.toNat ≤ 0x1F)

/-- The value of digits. -/
def digitsValue (digits : List Nat) : Nat := digits.foldl (fun value d => 10 * value + d) 0

/-- Reads an integer: blanks, a sign, digits within the digit limit, blanks. -/
def readInteger? (s : String) : Option Int :=
  let padded := (s.toList.dropWhile isPadding).reverse.dropWhile isPadding
  let cut := Numeral.cutSign padded.reverse
  match readDigits? cut.2 with
  | none => none
  | some digits =>
    if DigitLimit.most < digits.length then none
    else some (Numeral.signed cut.1 (digitsValue digits))

/-- The choices of an option, as a message lists them. -/
def listChoices (names : List String) : String := String.intercalate ", " (names.map quoted)

/-- The complaint about a value that is none of the choices. -/
def invalidChoice (flag : Flag) (value : String) (names : List String) : String :=
  flag.complaint ("invalid choice: " ++ quoted value ++ " (choose from " ++
    listChoices names ++ ")")

/-! ## Taking words -/

/-- What is known after some words. -/
structure Progress where
  pattern : Option String
  output : Option String
  format : Format
  errorBehavior : ErrorBehavior
  jobs : Int
  verbose : Bool
  silenced : List String
  version : Bool
  /-- Whether the positional arguments have been taken. -/
  placed : Bool
  /-- The words that nothing takes. -/
  extra : List String
deriving DecidableEq, Repr

/-- Before the first word. -/
def Progress.start : Progress :=
  { pattern := none, output := none, format := .nunit, errorBehavior := .log, jobs := 1
    verbose := false, silenced := [], version := false, placed := false, extra := [] }

/-- Why the words are not taken to their end. -/
inductive Stop where
  | help
  | error (message : String)
deriving DecidableEq, Repr

/-- Applies a flag to its values. -/
def applyFlag (progress : Progress) (flag : Flag) (values : List String) :
    Except Stop Progress :=
  let value := values.headD ""
  match flag with
  | .help => .error .help
  | .verbose => .ok { progress with verbose := true }
  | .version => .ok { progress with version := true }
  | .silence => .ok { progress with silenced := values }
  | .format =>
    match Format.ofName? value with
    | some format => .ok { progress with format := format }
    | none => .error (.error (invalidChoice flag value (Format.all.map Format.name)))
  | .errorBehavior =>
    match ErrorBehavior.ofName? value with
    | some behavior => .ok { progress with errorBehavior := behavior }
    | none => .error (.error (invalidChoice flag value (ErrorBehavior.all.map ErrorBehavior.name)))
  | .jobs =>
    match readInteger? value with
    | some jobs => .ok { progress with jobs := jobs }
    | none => .error (.error (flag.complaint ("invalid int value: " ++ quoted value)))

/-- The values that a flag without a joined value takes from the words after it. -/
def takeValues (flag : Flag) (rest : List (String × Word)) : Except Stop (List String) :=
  match flag.takes with
  | .nothing => .ok []
  | .one =>
    match rest with
    | (value, .value) :: _ => .ok [value]
    | _ => .error (.error (flag.complaint "expected one argument"))
  | .several =>
    match (rest.takeWhile fun entry => entry.2 == .value).map (·.1) with
    | [] => .error (.error (flag.complaint "expected at least one argument"))
    | values => .ok values

/-- Takes the letters after the short flag of the help, each of which is a short flag of its own;
    the last of them may have a value. The help is shown unless one of them is at fault. -/
def chainHelp (rest : List (String × Word)) : List Char → Stop
  | [] => .help
  | c :: cs =>
    match Flag.table.lookup (String.ofList ['-', c]) with
    | none =>
      .error (Flag.help.complaint ("ignored explicit argument " ++
        quoted (String.ofList (c :: cs))))
    | some flag =>
      match flag.takes, cs with
      | .nothing, cs => chainHelp rest cs
      | _, [] =>
        match takeValues flag rest with
        | .ok _ => .help
        | .error stop => stop
      | _, _ :: _ => .help

/-- Takes a flag, and gives the number of words after it that it takes. -/
def takeFlag (progress : Progress) (word : String) (flag : Flag) (joined : Option String)
    (rest : List (String × Word)) : Except Stop (Progress × Nat) :=
  match joined with
  | none => do
    let values ← takeValues flag rest
    return (← applyFlag progress flag values, values.length)
  | some value =>
    match flag.takes with
    | .nothing =>
      if word.toList.head? = some '-' ∧ (word.toList.drop 1).head? ≠ some '-' ∧ value ≠ "" then
        .error (chainHelp rest value.toList)
      else .error (.error (flag.complaint ("ignored explicit argument " ++ quoted value)))
    | _ => do return (← applyFlag progress flag [value], 0)

/-- Takes one positional argument: separators, an optional value, separators. Of the words taken
    the first `--` is dropped, and what is left is the value. -/
def takePosition (words : List (String × Word)) : Option String × List (String × Word) :=
  let isSeparator := fun (entry : String × Word) => entry.2 == .separator
  let (before, rest) := words.span isSeparator
  let (value, rest) := match rest with
    | (text, .value) :: rest => ([text], rest)
    | rest => ([], rest)
  let (after, rest) := rest.span isSeparator
  (((before.map (·.1) ++ value ++ after.map (·.1)).erase "--").head?, rest)

/-- Takes both positional arguments, and gives the number of words that they take. -/
def takePositions (progress : Progress) (words : List (String × Word)) : Progress × Nat :=
  let (pattern, rest) := takePosition words
  let (output, rest) := takePosition rest
  ({ progress with pattern := pattern, output := output, placed := true },
    words.length - rest.length)

/-- Takes words from left to right. The first `skip` words are taken already, by a flag or as
    positional arguments. -/
def takeWords (progress : Progress) (skip : Nat) : List (String × Word) → Except Stop Progress
  | [] => .ok progress
  | (word, kind) :: rest =>
    match skip with
    | skip + 1 => takeWords progress skip rest
    | 0 =>
      match kind with
      | .flag flag joined =>
        match takeFlag progress word flag joined rest with
        | .error stop => .error stop
        | .ok (progress, taken) => takeWords progress taken rest
      | .unknown => takeWords { progress with extra := progress.extra ++ [word] } 0 rest
      | .value | .separator =>
        if progress.placed then
          takeWords { progress with extra := progress.extra ++ [word] } 0 rest
        else
          let (progress, taken) := takePositions progress ((word, kind) :: rest)
          takeWords progress (taken - 1) rest

/-! ## The whole command line -/

/-- Where outputs go when nothing is said. -/
def defaultOutput : String := "./gherkin_output"

/-- What the words taken ask for. -/
def Progress.request (progress : Progress) : Request :=
  if progress.extra ≠ [] then
    .usageError ("unrecognized arguments: " ++ String.intercalate " " progress.extra)
  else if progress.version then .version
  else
    match progress.pattern with
    | none => .usageError "the following arguments are required: input_pattern"
    | some pattern =>
      if progress.jobs < 1 then .usageError "--jobs must be at least 1"
      else
        .convert
          { pattern := pattern, output := progress.output.getD defaultOutput
            format := progress.format, errorBehavior := progress.errorBehavior
            jobs := progress.jobs, verbose := progress.verbose, silenced := progress.silenced }

/-- Reads a command line. -/
def read (words : List String) : Request :=
  match classifyAll words with
  | .error message => .usageError message
  | .ok classified =>
    match takeWords .start 0 classified with
    | .error .help => .help
    | .error (.error message) => .usageError message
    | .ok progress => progress.request

end Options

end FeatureFile
