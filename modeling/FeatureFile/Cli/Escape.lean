import FeatureFile.Text.Digit

set_option autoImplicit false

/-! # Escape sequences

Colours and titles are meant for a terminal, and any other output is given without the sequences
that ask for them. A control sequence is an escape, an opening bracket, digits and semicolons, and a
letter. A command is an escape, a closing bracket and everything up to a bell. The marks U+0001
before and U+0002 after a sequence, which some terminals need, belong to it.

A command with two parameters of which the first is 0 or 2 sets the title of the window. Where there
is no window this fails, and the text that holds the command cannot be printed. -/

namespace FeatureFile.Escape

/-- The length of the mark after a sequence, if it has one. -/
def markLength : List Char → Nat
  | '\x02' :: _ => 1
  | _ => 0

/-! ## Commands -/

/-- The parameters of a command up to its bell, and their length with the bell and a mark. -/
def readParameters? : List Char → Option (List Char × Nat)
  | [] => none
  | c :: cs =>
    if c = '\x07' then some ([], 1 + markLength cs)
    else (readParameters? cs).map fun (parameters, length) => (c :: parameters, length + 1)

/-- The command that a text starts with: its parameters and its length. -/
def readCommand? : List Char → Option (List Char × Nat)
  | '\x01' :: '\x1b' :: ']' :: cs =>
    (readParameters? cs).map fun (parameters, length) => (parameters, length + 3)
  | '\x1b' :: ']' :: cs =>
    (readParameters? cs).map fun (parameters, length) => (parameters, length + 2)
  | _ => none

/-- A command in a text, by the places where it starts and where it is over. -/
structure Command where
  parameters : List Char
  start : Nat
  stop : Nat
deriving DecidableEq, Repr

/-- The commands of a text that stands behind the given number of characters; the first `skipped`
    characters belong to a command before it. -/
def commands : Nat → Nat → List Char → List Command
  | _, _, [] => []
  | place, skipped + 1, _ :: cs => commands (place + 1) skipped cs
  | place, 0, c :: cs =>
    match readCommand? (c :: cs) with
    | some (parameters, length) =>
      ⟨parameters, place, place + length⟩ :: commands (place + 1) (length - 1) cs
    | none => commands (place + 1) 0 cs

/-- Whether a command sets the title; the first of its two parameters is looked up in `02`. -/
def Command.setsTitle (command : Command) : Bool :=
  command.parameters.count ';' == 1 &&
    [[], ['0'], ['2'], ['0', '2']].contains (command.parameters.takeWhile (· ≠ ';'))

/-- A text without its commands. Each is cut out at the place that it had in the whole text, also
    when commands before it are gone. -/
def removeCommands (cs : List Char) : List Char :=
  (commands 0 0 cs).foldl (fun text command => text.take command.start ++ text.drop command.stop) cs

/-! ## Control sequences -/

/-- Whether a character is an ASCII letter. -/
def isLetter (c : Char) : Bool := ('a' ≤ c && c ≤ 'z') || ('A' ≤ c && c ≤ 'Z')

/-- Whether a character is a parameter of a control sequence; the digits of all scripts are. -/
def isParameter (c : Char) : Bool := (Text.digitValue? c).isSome || c == ';'

/-- The length of the parameters and the letter that end a control sequence, with a mark. -/
def tailLength? : List Char → Option Nat
  | [] => none
  | c :: cs =>
    if isParameter c then (tailLength? cs).map (· + 1)
    else if isLetter c then some (1 + markLength cs)
    else none

/-- The length of the control sequence that a text starts with. -/
def sequenceLength? : List Char → Option Nat
  | '\x01' :: '\x1b' :: '[' :: cs => (tailLength? cs).map (· + 3)
  | '\x1b' :: '[' :: cs => (tailLength? cs).map (· + 2)
  | _ => none

/-- A text without its control sequences; the first `skipped` characters belong to one before it. -/
def removeSequences : Nat → List Char → List Char
  | _, [] => []
  | skipped + 1, _ :: cs => removeSequences skipped cs
  | 0, c :: cs =>
    match sequenceLength? (c :: cs) with
    | some length => removeSequences (length - 1) cs
    | none => c :: removeSequences 0 cs

/-- What is printed of a text: nothing, if it sets the title. -/
def strip? (s : String) : Option String :=
  if (commands 0 0 s.toList).any Command.setsTitle then none
  else some (String.ofList (removeSequences 0 (removeCommands s.toList)))

end FeatureFile.Escape
