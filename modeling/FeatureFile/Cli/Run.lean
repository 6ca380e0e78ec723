import FeatureFile.Cli.Escape
import FeatureFile.Cli.Log
import FeatureFile.Cli.Options
import FeatureFile.Cli.Usage
import FeatureFile.Files.Search

set_option autoImplicit false

/-! # Runs

A run of the program is a function of its command line and of the file tree. It finds the feature
files, converts one after another, reports those that failed, and counts. -/

namespace FeatureFile

/-- An error that ends a run. -/
inductive Abort where
  | file (error : FileError)
  | digitLimit (limit : DigitLimit)
deriving DecidableEq, Repr

/-- The sentence that explains why a run ended. -/
def Abort.message : Abort → String
  | file error => error.message
  | digitLimit limit => limit.message

/-- How a run ends. -/
inductive Ending where
  | returned (code : Nat)
  | aborted (abort : Abort)
  /-- A report sets the title of the window, and there is no window. -/
  | noWindow
deriving DecidableEq, Repr

/-- How a run ended, what it printed, and the tree after it. -/
structure RunResult where
  ending : Ending
  stdout : String
  stderr : String
  tree : Tree

/-- What is left to do when a run is over: to exit with a code, or to show an error first. -/
def RunResult.exit (result : RunResult) : Except Abort Nat :=
  match result.ending with
  | .returned code => .ok code
  | .aborted abort => .error abort
  | .noWindow => .ok 1

namespace Run

/-! ## Converting -/

/-- The files converted in a run, in order, and the tree after that. -/
structure Batch where
  results : List (Path × Conversion)
  tree : Tree
deriving DecidableEq, Repr

/-- Converts files one after another. Unless `all` is set, the first file over the digit limit is
    the last one that is looked at. -/
def convertAll (directory : Path) (format : Format) (all : Bool) (tree : Tree) :
    List Path → Batch
  | [] => ⟨[], tree⟩
  | path :: rest =>
    match Conversion.run tree path directory format with
    | (.overlong feature limit, after) =>
      if all then
        let batch := convertAll directory format all after rest
        { batch with results := (path, .overlong feature limit) :: batch.results }
      else ⟨[(path, .overlong feature limit)], after⟩
    | (result, after) =>
      let batch := convertAll directory format all after rest
      { batch with results := (path, result) :: batch.results }

namespace Batch

/-- The files that failed, with their errors. -/
def failures (batch : Batch) : List (Path × ConversionError) :=
  batch.results.filterMap fun (path, result) =>
    match result with
    | .failed _ error => some (path, error)
    | _ => none

/-- The number of converted files. -/
def successes (batch : Batch) : Nat :=
  (batch.results.filter fun (_, result) =>
    match result with
    | .converted _ _ => true
    | _ => false).length

/-- The first numeral over the digit limit. -/
def overlong? (batch : Batch) : Option DigitLimit :=
  batch.results.findSome? fun (_, result) =>
    match result with
    | .overlong _ limit => some limit
    | _ => none

/-- What the conversions tell. -/
def records (batch : Batch) : List LogRecord :=
  batch.results.flatMap fun (path, result) => result.records path

end Batch

/-! ## Reporting -/

/-- What is printed of some lines where the output is no terminal, and whether all of them could be
    printed. The first line that cannot is the last one that is tried. -/
def printLines : List String → String × Bool
  | [] => ("", true)
  | line :: rest =>
    match Escape.strip? line with
    | none => ("", false)
    | some text =>
      let (printed, all) := printLines rest
      (text ++ "\n" ++ printed, all)

/-- The lines that report failures. -/
def reportLines (failures : List (Path × ConversionError)) : List String :=
  failures.map fun (path, error) => Report.line path.text error.problem

/-- Writes a log file for each failure, and gives the tree after that. The first log file that
    cannot be written is the last one that is tried. -/
def writeLogs (directory : Path) (tree : Tree) :
    List (Path × ConversionError) → Tree × Option FileError
  | [] => (tree, none)
  | (path, error) :: rest =>
    let bytes := Utf8.encode (Report.log path error.problem)
    match tree.writeFile (directory.child (path.name ++ ".log")) bytes with
    | .ok written => writeLogs directory written rest
    | .error error => (tree, some error)

/-- The printed numbers of converted and failed files. -/
def counts (batch : Batch) : String :=
  (printLines [s!"Successful parses: {batch.successes}",
    s!"Failed parses: {batch.failures.length}"]).1

/-! ## A run -/

/-- The shown ones of some records. -/
def showRecords (filter : LogFilter) (time : String) (records : List LogRecord) : String :=
  String.join ((records.filter filter.shows).map (LogRecord.line time))

/-- What is said about loggers that are to be silenced and do not exist. -/
def loggerNotices (names : List String) : String :=
  String.join ((names.filter fun name => !Logger.names.contains name).map fun name =>
    "!! logger \"" ++ name ++ "\" does not exist\n")

/-- What the search for files tells. -/
def searchRecords (options : Options) (directory : Path) (found : Found) : List LogRecord :=
  found.skipped.map (fun path => ⟨.debug, .cli, "skipping directory " ++ path.text⟩) ++
  (if found.files = [] then
    [⟨.warning, .cli, "no feature files match \"" ++ options.pattern ++ "\""⟩] else []) ++
  [⟨.info, .cli, s!"converting {found.files.length} feature files to " ++ options.format.name ++
    " in " ++ directory.text⟩]

/-- Converts what the options name; `time` stamps the log lines. -/
def convert (options : Options) (time : String) (tree : Tree) : RunResult :=
  let notices := loggerNotices options.silenced
  let directory := Path.ofString options.output
  match tree.makeDirectories directory with
  | (made, some error) => ⟨.aborted (.file error), "", notices, made⟩
  | (made, none) =>
    let found := made.findFeatureFiles options.pattern
    let batch := convertAll directory options.format (decide (1 < options.jobs)) made found.files
    let log := notices ++ showRecords ⟨options.verbose, options.silenced⟩ time
      (searchRecords options directory found ++ batch.records)
    match batch.overlong? with
    | some limit => ⟨.aborted (.digitLimit limit), "", log, batch.tree⟩
    | none =>
      let ending := .returned (if batch.failures = [] then 0 else 1)
      let reports := printLines (reportLines batch.failures)
      match options.errorBehavior with
      | .silent => ⟨ending, counts batch, log, batch.tree⟩
      | .stdout =>
        if reports.2 then ⟨ending, reports.1 ++ counts batch, log, batch.tree⟩
        else ⟨.noWindow, reports.1, log, batch.tree⟩
      | .stderr =>
        if reports.2 then ⟨ending, counts batch, log ++ reports.1, batch.tree⟩
        else ⟨.noWindow, "", log ++ reports.1, batch.tree⟩
      | .log =>
        match writeLogs directory batch.tree batch.failures with
        | (written, some error) => ⟨.aborted (.file error), "", log, written⟩
        | (written, none) => ⟨ending, counts batch, log, written⟩

end Run

/-- Runs the program on a command line; `time` stamps the log lines. -/
def run (arguments : List String) (time : String) (tree : Tree) : RunResult :=
  match Options.read arguments with
  | .help => ⟨.returned 0, Usage.help, "", tree⟩
  | .version => ⟨.returned 0, "", Usage.version ++ "\n", tree⟩
  | .usageError message => ⟨.returned 2, "", Usage.error message, tree⟩
  | .convert options => Run.convert options time tree

end FeatureFile
