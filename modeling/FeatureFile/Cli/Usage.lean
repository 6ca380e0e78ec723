set_option autoImplicit false

/-! # Usage and help -/

namespace FeatureFile.Usage

/-- The name of the program. -/
def program : String := "gherkin-export"

/-- The version of the program. -/
def version : String := "0.1.0"

/-- Lines, each with its line feed. -/
def lines (l : List String) : String := String.join (l.map (· ++ "\n"))

/-- How the program is called. -/
def usage : String :=
  lines
    ["usage: gherkin-export [-h] [-f \x7bnunit,json\x7d] [-e \x7blog,silent,stdout,stderr\x7d]",
      "                      [-j JOBS] [--verbose]",
      "                      [--no-verbose NO_VERBOSE [NO_VERBOSE ...]] [--version]",
      "                      [input_pattern] [output_path]"]

/-- What the program does and what its options mean. -/
def help : String :=
  usage ++ lines
    ["",
      "convert gherkin feature files to test source code",
      "",
      "positional arguments:",
      "  input_pattern         input path, use wildcards for directory contents",
      "  output_path           destination for output source files and logs",
      "",
      "options:",
      "  -h, --help            show this help message and exit",
      "  -f \x7bnunit,json\x7d, --format \x7bnunit,json\x7d",
      "                        output format for converted feature files",
      "  -e \x7blog,silent,stdout,stderr\x7d, --error-behavior \x7blog,silent,stdout,stderr\x7d",
      "                        what to do with error messages, \"log\" creates a .log",
      "                        file per failed file in output_path",
      "  -j JOBS, --jobs JOBS  number of files to convert in parallel",
      "  --verbose             verbose output",
      "  --no-verbose NO_VERBOSE [NO_VERBOSE ...]",
      "                        name of loggers to disable",
      "  --version             print version and exit"]

/-- The usage, and what is wrong with a command line. -/
def error (message : String) : String := usage ++ program ++ ": error: " ++ message ++ "\n"

end FeatureFile.Usage
