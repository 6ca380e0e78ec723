import FeatureFile.Files.Tree
import FeatureFile.Files.Wildcard

set_option autoImplicit false

/-! # Searching a file tree

An input is named by a directory, which is searched with everything below it for names that end in
`.feature`, or else by a pattern whose names may hold wildcards. A name `**` of a pattern stands
for the directory it is in and for everything below that, names that start with a dot apart. The
matches of a pattern are texts; they are put in order before they are normalised, and directories
among them are skipped.

The texts grow as a pattern is expanded, and one that is too long leads nowhere: the system does not
look it up, and the search passes over it. -/

namespace FeatureFile

open Wildcard

/-- The files that were found, and the directories that a pattern matched. -/
structure Found where
  files : List Path
  skipped : List Path
deriving DecidableEq, Repr

/-- The rest of a location below another one. -/
def Location.below? : Location → Location → Option Location
  | [], location => some location
  | _ :: _, [] => none
  | a :: above, b :: location => if a = b then below? above location else none

/-- Whether a location comes no later than another one when they are ordered name by name. -/
def Location.isUpTo : Location → Location → Bool
  | [], _ => true
  | _ :: _, [] => false
  | a :: as, b :: bs => if a = b then isUpTo as bs else decide (a < b)

/-- Whether a name starts with a dot. -/
def isHidden (name : String) : Bool := name.toList.head? == some '.'

/-- Whether a name ends in `.feature`. -/
def isFeatureName (name : String) : Bool := ".feature".toList.isSuffixOf name.toList

/-! ## Texts of patterns -/

/-- Whether a text is too long for the system: it and the zero byte behind it take more than 4096
    bytes. -/
def isTooLong (text : String) : Bool := decide (4096 ≤ text.utf8ByteSize)

/-- Drops the empty names of a pattern, except one at its end. -/
def dropEmptyNames : List String → List String
  | [] => []
  | [name] => [name]
  | name :: rest => if name = "" then dropEmptyNames rest else name :: dropEmptyNames rest

/-- A text without the slashes at its end; one of nothing but slashes stays as it is. -/
def dropEndSlashes (text : String) : String :=
  let front := (text.toList.reverse.dropWhile (· == '/')).reverse
  if front = [] then text else String.ofList front

/-- The names of a pattern before the first one with a wildcard, as the text of a directory. -/
def literalFront (pattern : String) : String :=
  let names := (Path.segments pattern).takeWhile fun name => !hasWildcard name
  dropEndSlashes (String.join (names.map (· ++ "/")))

/-- The names of a pattern from the first one with a wildcard on. -/
def wildcardNames (pattern : String) : List String :=
  dropEmptyNames ((Path.segments pattern).dropWhile fun name => !hasWildcard name)

namespace Tree

/-- The entries below a location, by the names that lead to them from there. -/
def descendants (tree : Tree) (location : Location) : List (Location × Entry) :=
  tree.entries.filterMap fun (l, entry) =>
    match Location.below? location l with
    | some (name :: names) => some (name :: names, entry)
    | _ => none

/-- The names in a directory, with what they stand for. -/
def children (tree : Tree) (location : Location) : List (String × Entry) :=
  (tree.descendants location).filterMap fun (names, entry) =>
    match names with
    | [name] => some (name, entry)
    | _ => none

/-! ## Directories -/

/-- The feature files at any depth below a directory, ordered name by name. -/
def featureFilesBelow (tree : Tree) (path : Path) : List Path :=
  match tree.locate path with
  | .error _ => []
  | .ok location =>
    let files := (tree.descendants location).filterMap fun (names, entry) =>
      match entry with
      | .file _ => if isFeatureName (names.getLast?.getD "") then some names else none
      | _ => none
    (files.mergeSort Location.isUpTo).map fun names =>
      { path with names := path.names ++ names }

/-! ## Patterns -/

/-- The location of a path that is not in normal form; the empty path leads nowhere. -/
def locateText (tree : Tree) (text : String) : Except FileFault Location :=
  if text = "" ∨ isTooLong text = true then .error .noEntry
  else tree.walk (tree.start (Path.rootOf text.toList)) (Path.segments text)

/-- Whether a path that is not in normal form leads to an entry. -/
def existsText (tree : Tree) (text : String) : Bool := (tree.locateText text).toOption.isSome

/-- The directory that a path leads to that is not in normal form. -/
def directoryText? (tree : Tree) (text : String) : Option Location :=
  match tree.locateText text with
  | .ok location => if tree.get? location = some .directory then some location else none
  | .error _ => none

/-- The directory that names are looked up in; no text at all means the working directory. -/
def searchDirectory? (tree : Tree) (text : String) : Option Location :=
  if text = "" then some tree.cwd else tree.directoryText? text

/-- A name in a directory, as a text. -/
def joinText (directory name : String) : String :=
  if directory = "" then name
  else if directory.toList.getLast? = some '/' then directory ++ name
  else directory ++ "/" ++ name

/-- Whether an entry may stand where only directories are looked for. -/
def admits (directoriesOnly : Bool) (entry : Entry) : Bool :=
  !directoriesOnly || entry == .directory

/-- Whether names below a directory are still looked into when they are listed from there. -/
def isReached (directory : String) (names : List String) : Bool :=
  names.isEmpty || !isTooLong (joinText directory (String.intercalate "/" names))

/-- Everything below a directory that no hidden name leads to. -/
def visibleBelow (tree : Tree) (directoriesOnly : Bool) (directory : String) : List String :=
  match tree.searchDirectory? directory with
  | none => []
  | some location =>
    (tree.descendants location).filterMap fun (names, entry) =>
      if admits directoriesOnly entry && names.all (fun name => !isHidden name) &&
          isReached directory names.dropLast then some (String.intercalate "/" names)
      else none

/-- The names in a directory that a pattern stands for; a hidden name needs a hidden pattern. -/
def matchingNames (tree : Tree) (directoriesOnly : Bool) (pattern directory : String) :
    List String :=
  match tree.searchDirectory? directory with
  | none => []
  | some location =>
    (tree.children location).filterMap fun (name, entry) =>
      if admits directoriesOnly entry && (isHidden pattern || !isHidden name) &&
          isMatch pattern name then some name
      else none

/-- What one name of a pattern stands for in a directory. A name without wildcards only has to be
    there, and an empty one, after a final slash, asks for a directory. A search that is not strict
    takes the directory before `**` for a match of its own without a look. -/
def expandName (tree : Tree) (directoriesOnly : Bool) (name directory : String) : List String :=
  if name = "**" then
    if tree.strictStars && (tree.searchDirectory? directory).isNone then []
    else "" :: tree.visibleBelow directoriesOnly directory
  else if hasWildcard name then tree.matchingNames directoriesOnly name directory
  else if name = "" then if (tree.directoryText? directory).isSome then [""] else []
  else if tree.existsText (joinText directory name) then [name] else []

/-- The texts that the names of a pattern stand for, from the directories before them on. -/
def expand (tree : Tree) : List String → List String → List String
  | [], directories => directories
  | name :: rest, directories =>
    tree.expand rest <| directories.flatMap fun directory =>
      (tree.expandName (!rest.isEmpty) name directory).map (joinText directory)

/-- The texts that match a pattern. -/
def patternMatches (tree : Tree) (pattern : String) : List String :=
  if hasWildcard pattern then
    (tree.expand (wildcardNames pattern) [literalFront pattern]).filter fun text => text ≠ ""
  else if tree.existsText pattern then [pattern]
  else []

/-- The feature files that a directory or a pattern names. -/
def findFeatureFiles (tree : Tree) (pattern : String) : Found :=
  let path := Path.ofString pattern
  if tree.isDirectory path then ⟨tree.featureFilesBelow path, []⟩
  else
    let sorted := (tree.patternMatches pattern).mergeSort fun a b => decide (a ≤ b)
    let paths := sorted.map Path.ofString
    ⟨paths.filter fun p => !tree.isDirectory p, paths.filter fun p => tree.isDirectory p⟩

end Tree

end FeatureFile
