import FeatureFile.Files.Path
import FeatureFile.Text.Quoted

set_option autoImplicit false

/-! # File trees

The files and directories of a system, as a value. A `Location` is the list of names that leads from
the root to an entry. A path is followed name by name, a relative one from the working directory and
any other one from the root, and `..` leads to the directory above, so a path means something only
in a given tree.

Beside directories and regular files there are special files, such as sockets: they have a name like
any other entry, but they cannot be opened. There are no links, so every entry has one location.
Names have any length, and so have paths in normal form. -/

namespace FeatureFile

open Text

/-- The names that lead to an entry; empty for the root. -/
abbrev Location := List String

/-- What stands at a location. -/
inductive Entry where
  | directory
  | file (bytes : List UInt8)
  /-- A socket, or another file that cannot be opened. -/
  | special
deriving DecidableEq, Repr

/-- What a program can put at a location. -/
inductive Made where
  | directory
  | file (bytes : List UInt8)
deriving DecidableEq, Repr

/-- The entries below the root, each location once, and what a program finds beside them. -/
structure Tree where
  /-- The working directory, which relative paths start from. -/
  cwd : Location
  entries : List (Location × Entry)
  /-- Whether a search takes `**` for its directory only where there is one. Early releases of the
      search library do not look. -/
  strictStars : Bool
deriving DecidableEq, Repr

/-! ## Faults -/

/-- What is missing where something cannot be found. -/
inductive Missing where
  | entry
  | device
deriving DecidableEq, Repr

/-- Why a file operation fails. -/
inductive FileFault where
  /-- Nothing stands at a path, or there is nothing behind a special file. -/
  | notFound {missing : Missing}
  | alreadyExists
  | notDirectory
  | isDirectory
deriving DecidableEq, Repr

namespace FileFault

/-- Nothing stands at a path. -/
abbrev noEntry : FileFault := @notFound .entry

/-- There is nothing behind a special file. -/
abbrev noDevice : FileFault := @notFound .device

/-- The number of a fault. -/
def number : FileFault → Nat
  | @notFound .entry => 2
  | @notFound .device => 6
  | alreadyExists => 17
  | notDirectory => 20
  | isDirectory => 21

/-- How a fault is worded. -/
def text : FileFault → String
  | @notFound .entry => "No such file or directory"
  | @notFound .device => "No such device or address"
  | alreadyExists => "File exists"
  | notDirectory => "Not a directory"
  | isDirectory => "Is a directory"

end FileFault

/-- A fault of an operation on a path. -/
structure FileError where
  fault : FileFault
  path : Path
deriving DecidableEq, Repr

/-- The sentence that explains an error. -/
def FileError.message (error : FileError) : String :=
  s!"[Errno {error.fault.number}] " ++ error.fault.text ++ ": " ++ quoted error.path.text

namespace Tree

/-! ## Entries -/

/-- Nothing but the root, which is the working directory. -/
def empty : Tree := ⟨[], [], false⟩

/-- The entry of a location in a list of entries. -/
def findEntry (location : Location) : List (Location × Entry) → Option Entry
  | [] => none
  | (l, e) :: rest => if l = location then some e else findEntry location rest

/-- What stands at a location. -/
def get? (tree : Tree) (location : Location) : Option Entry :=
  if location = [] then some .directory else findEntry location tree.entries

/-- The entries with one of them replaced or added. -/
def putEntry (location : Location) (entry : Entry) :
    List (Location × Entry) → List (Location × Entry)
  | [] => [(location, entry)]
  | (l, e) :: rest =>
    if l = location then (location, entry) :: rest else (l, e) :: putEntry location entry rest

/-- Puts an entry at a location. -/
def put (tree : Tree) (location : Location) (entry : Entry) : Tree :=
  { tree with entries := putEntry location entry tree.entries }

@[simp] theorem cwd_put (tree : Tree) (location : Location) (entry : Entry) :
    (tree.put location entry).cwd = tree.cwd := rfl

@[simp] theorem strictStars_put (tree : Tree) (location : Location) (entry : Entry) :
    (tree.put location entry).strictStars = tree.strictStars := rfl

theorem findEntry_putEntry (location other : Location) (entry : Entry)
    (entries : List (Location × Entry)) :
    findEntry other (putEntry location entry entries) =
      if other = location then some entry else findEntry other entries := by
  induction entries with
  | nil =>
    by_cases h : other = location
    · simp [putEntry, findEntry, h]
    · simp [putEntry, findEntry, h, Ne.symm h]
  | cons head rest ih =>
    obtain ⟨l, e⟩ := head
    by_cases hl : l = location
    · subst hl
      by_cases h : other = l
      · simp [putEntry, findEntry, h]
      · simp [putEntry, findEntry, h, Ne.symm h]
    · by_cases ho : other = l
      · subst ho
        simp [putEntry, findEntry, hl]
      · simp [putEntry, findEntry, hl, Ne.symm ho, ih]

/-- Putting an entry changes what stands at its location and nothing else. -/
theorem get?_put (tree : Tree) {location : Location} (h : location ≠ []) (entry : Entry)
    (other : Location) :
    (tree.put location entry).get? other =
      if other = location then some entry else tree.get? other := by
  by_cases ho : other = []
  · subst ho
    simp [get?, Ne.symm h]
  · simp [get?, put, ho, findEntry_putEntry]

/-- Makes directories of the names below a location, one in the other, where nothing stands yet. -/
def addDirectories (tree : Tree) (above : Location) : List String → Tree
  | [] => tree
  | name :: rest =>
    let here := above ++ [name]
    let made := if (tree.get? here).isSome then tree else tree.put here .directory
    made.addDirectories here rest

/-- Makes a location a directory, with all directories above it. -/
def addDirectory (tree : Tree) (location : Location) : Tree := tree.addDirectories [] location

/-- Puts a file at a location, with all directories above it. -/
def addFile (tree : Tree) (location : Location) (bytes : List UInt8) : Tree :=
  (tree.addDirectory location.dropLast).put location (.file bytes)

/-- What was made since an earlier tree: directories, and files that are new or have new
    contents. -/
def changesSince (tree earlier : Tree) : List (Location × Made) :=
  tree.entries.filterMap fun (location, entry) =>
    if earlier.get? location = some entry then none
    else
      match entry with
      | .directory => some (location, .directory)
      | .file bytes => some (location, .file bytes)
      | .special => none

/-! ## Following names -/

/-- The location that names lead to from a directory. The empty name and `.` stay, `..` goes up
    and stays at the root, and only the last name may be that of a file. -/
def walk (tree : Tree) : Location → List String → Except FileFault Location
  | location, [] => .ok location
  | location, name :: rest =>
    if name = "" ∨ name = "." then tree.walk location rest
    else if name = ".." then tree.walk location.dropLast rest
    else
      match tree.get? (location ++ [name]) with
      | none => .error .noEntry
      | some .directory => tree.walk (location ++ [name]) rest
      | some _ => if rest = [] then .ok (location ++ [name]) else .error .notDirectory

/-- Where the names of a path start. -/
def start (tree : Tree) : PathRoot → Location
  | .relative => tree.cwd
  | _ => []

/-- The location of a path. -/
def locate (tree : Tree) (path : Path) : Except FileFault Location :=
  tree.walk (tree.start path.root) path.names

/-- Whether a path leads to a directory. -/
def isDirectory (tree : Tree) (path : Path) : Bool :=
  match tree.locate path with
  | .ok location => tree.get? location == some .directory
  | .error _ => false

/-- The directory that names lead to. -/
def directoryAt (tree : Tree) (path : Path) : Except FileFault Location := do
  let location ← tree.locate path
  if tree.get? location = some .directory then .ok location else .error .notDirectory

/-- The directory that holds the last name of a path, and that name; nothing for a path without
    names. -/
def parentOf (tree : Tree) (path : Path) : Except FileFault (Option (Location × String)) :=
  match path.names.getLast? with
  | none => (tree.locate path).map fun _ => none
  | some name =>
    (tree.directoryAt { path with names := path.names.dropLast }).map fun parent =>
      some (parent, name)

/-! ## Reading and writing -/

/-- Why what stands at a location cannot be opened; nothing stops a file from being made there. -/
def barrier? (tree : Tree) (location : Location) : Option FileFault :=
  match tree.get? location with
  | some .directory => some .isDirectory
  | some .special => some .noDevice
  | _ => none

/-- The contents of a file. -/
def readFile (tree : Tree) (path : Path) : Except FileError (List UInt8) :=
  match tree.locate path with
  | .error fault => .error ⟨fault, path⟩
  | .ok location =>
    match tree.get? location with
    | some (.file bytes) => .ok bytes
    | _ => .error ⟨(tree.barrier? location).getD .noEntry, path⟩

/-- Writes a file, new or over an old one. -/
def writeFile (tree : Tree) (path : Path) (bytes : List UInt8) : Except FileError Tree :=
  match tree.parentOf path with
  | .error fault => .error ⟨fault, path⟩
  | .ok none => .error ⟨.isDirectory, path⟩
  | .ok (some (parent, name)) =>
    if name = ".." then .error ⟨.isDirectory, path⟩
    else
      match tree.barrier? (parent ++ [name]) with
      | some fault => .error ⟨fault, path⟩
      | none => .ok (tree.put (parent ++ [name]) (.file bytes))

/-- Makes one directory in a directory that is there. -/
def makeDirectory (tree : Tree) (path : Path) : Except FileError Tree :=
  match tree.parentOf path with
  | .error fault => .error ⟨fault, path⟩
  | .ok none => .error ⟨.alreadyExists, path⟩
  | .ok (some (parent, name)) =>
    if name = ".." ∨ (tree.get? (parent ++ [name])).isSome then .error ⟨.alreadyExists, path⟩
    else .ok (tree.put (parent ++ [name]) .directory)

/-- Makes a directory unless it is there already. -/
def ensureDirectory (tree : Tree) (path : Path) : Except FileError Tree :=
  match tree.makeDirectory path with
  | .ok made => .ok made
  | .error error => if tree.isDirectory path then .ok tree else .error error

/-- Makes the directory of the given root and reversed names, and those above it where they are
    missing. The directories made before a fault stay. -/
def makeReversed (tree : Tree) (root : PathRoot) : List String → Tree × Option FileError
  | [] =>
    match tree.ensureDirectory ⟨root, []⟩ with
    | .ok made => (made, none)
    | .error error => (tree, some error)
  | name :: above =>
    let path : Path := ⟨root, (name :: above).reverse⟩
    match tree.ensureDirectory path with
    | .ok made => (made, none)
    | .error error =>
      if error.fault = .noEntry then
        match tree.makeReversed root above with
        | (made, some error) => (made, some error)
        | (made, none) =>
          match made.ensureDirectory path with
          | .ok made => (made, none)
          | .error error => (made, some error)
      else (tree, some error)

/-- Makes a directory and the directories above it, as far as they are missing. -/
def makeDirectories (tree : Tree) (path : Path) : Tree × Option FileError :=
  tree.makeReversed path.root path.names.reverse

end Tree

end FeatureFile
