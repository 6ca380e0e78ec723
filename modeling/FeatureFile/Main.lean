import FeatureFile.Cli.Run
import Std.Time

set_option autoImplicit false

/-! # The command line program

What the command line is about is read from the disk: the directories on the way to the working
directory, to the output directory and to what is searched, everything below the latter, and the
contents of those files that the command line names. What the run makes of them is written back and
printed. -/

namespace FeatureFile.Main

/-- The text of a location. -/
def textOf (location : Location) : String := "/" ++ String.intercalate "/" location

/-- The entries of a directory on the disk; none if it cannot be listed. -/
def listed (location : Location) : IO (Array IO.FS.DirEntry) := do
  try ((← IO.currentDir) / textOf location).readDir
  catch _ => return #[]

/-- Adds an entry of a directory to a tree; a file is added empty, and a link is left out. -/
def loadEntry (above : Location) (tree : Tree) (entry : IO.FS.DirEntry) : IO Tree := do
  let location := above ++ [entry.fileName]
  if (tree.get? location).isSome then return tree
  match (← entry.path.symlinkMetadata).type with
  | .dir => return tree.put location .directory
  | .file => return tree.put location (.file [])
  | .symlink => return tree
  | .other => return tree.put location .special

/-- Adds the entries of a directory to a tree. -/
def loadDirectory (tree : Tree) (location : Location) : IO Tree := do
  (← listed location).foldlM (loadEntry location) tree

/-- Adds the entries of all directories that names lead through. -/
def loadAlong (tree : Tree) (location : Location) : List String → IO Tree
  | [] => loadDirectory tree location
  | name :: rest => do
    let loaded ← loadDirectory tree location
    match loaded.walk location [name] with
    | .ok next =>
      if loaded.get? next = some .directory then loadAlong loaded next rest else return loaded
    | .error _ => return loaded

/-- Adds everything below a directory to a tree. -/
partial def loadBelow (tree : Tree) (location : Location) : IO Tree := do
  let loaded ← loadDirectory tree location
  let below := (loaded.children location).filter fun (_, entry) => entry == .directory
  below.foldlM (fun tree (name, _) => loadBelow tree (location ++ [name])) loaded

/-- Adds what a pattern is about: everything below its front, or below a directory above that if its
    names go up. -/
def loadPattern (tree : Tree) (pattern : String) : IO Tree := do
  let path := Path.ofString pattern
  let named ← loadAlong tree (tree.start path.root) path.names
  let front := Path.ofString (literalFront pattern)
  let loaded ← loadAlong named (named.start front.root) front.names
  let (directory, ups) :=
    if loaded.isDirectory path then (path, 0) else (front, (wildcardNames pattern).count "..")
  match loaded.directoryAt directory with
  | .ok location => loadBelow loaded (location.take (location.length - ups))
  | .error _ => return loaded

/-- Fills in the contents of a file, if the path leads to one. -/
def loadFile (tree : Tree) (path : Path) : IO Tree := do
  match tree.locate path with
  | .error _ => return tree
  | .ok location =>
    match tree.get? location with
    | some (.file _) =>
      let bytes ← IO.FS.readBinFile (textOf location)
      return tree.put location (.file bytes.data.toList)
    | _ => return tree

/-- The tree that a command line is about. -/
def loadTree (arguments : List String) : IO Tree := do
  match Options.read arguments with
  | .convert options =>
    let home := (Path.ofString (← IO.currentDir).toString).names
    let output := Path.ofString options.output
    let root : Tree := ⟨home, [], true⟩
    let way ← loadAlong root [] home
    let outputs ← loadAlong way (way.start output.root) output.names
    let names ← loadPattern outputs options.pattern
    let (made, _) := names.makeDirectories output
    (made.findFeatureFiles options.pattern).files.foldlM loadFile names
  | _ => return Tree.empty

/-- Writes what was made at a location to the disk. -/
def store (location : Location) (made : Made) : IO Unit :=
  match made with
  | .directory => IO.FS.createDir (textOf location)
  | .file bytes => IO.FS.writeBinFile (textOf location) ⟨bytes.toArray⟩

/-- The time that stamps the log lines. -/
def timeStamp : IO String := do
  return (← Std.Time.PlainDateTime.now).format "uuuu-MM-dd HH:mm:ss,SSS"

end FeatureFile.Main

open FeatureFile in
/-- Runs the program on its command line. -/
def main (arguments : List String) : IO UInt32 := do
  let tree ← Main.loadTree arguments
  let result := FeatureFile.run arguments (← Main.timeStamp) tree
  for (location, made) in result.tree.changesSince tree do
    Main.store location made
  (← IO.getStdout).putStr result.stdout
  (← IO.getStderr).putStr result.stderr
  match result.exit with
  | .ok code => return code.toUInt32
  | .error abort =>
    (← IO.getStderr).putStrLn abort.message
    return 1
