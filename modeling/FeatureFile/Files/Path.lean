import FeatureFile.Text.Cut

set_option autoImplicit false

/-! # Paths

A path is kept in its normal form: the slashes in front of it, and its names without empty ones
and without `.`. The name `..` stays, because what it means depends on the file tree. -/

namespace FeatureFile

open Text

/-- The slashes that a path starts with; more than two count as one. -/
inductive PathRoot where
  | relative
  | single
  | double
deriving DecidableEq, Repr

/-- A path in normal form. -/
structure Path where
  root : PathRoot
  names : List String
deriving DecidableEq, Repr

namespace Path

/-- The texts between the slashes of a path. -/
def segments (s : String) : List String := (piecesAt (· == '/') s.toList).map String.ofList

/-- How a text starts. -/
def rootOf : List Char → PathRoot
  | '/' :: '/' :: '/' :: _ => .single
  | '/' :: '/' :: _ => .double
  | '/' :: _ => .single
  | _ => .relative

/-- The normal form of a path. -/
def ofString (s : String) : Path :=
  ⟨rootOf s.toList, (segments s).filter fun name => name ≠ "" ∧ name ≠ "."⟩

/-- The path as a text; a dot if there is nothing else to write. -/
def text (path : Path) : String :=
  let names := String.intercalate "/" path.names
  match path.root with
  | .relative => if path.names = [] then "." else names
  | .single => "/" ++ names
  | .double => "//" ++ names

/-- The last name; empty if there is none. -/
def name (path : Path) : String := path.names.getLast?.getD ""

/-- The path of a file in a directory. -/
def child (path : Path) (name : String) : Path := { path with names := path.names ++ [name] }

end Path

end FeatureFile
