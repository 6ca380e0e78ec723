import FeatureFile.Line
import FeatureFile.TagSet

set_option autoImplicit false

/-! # A reader of lines with a buffer for tags

Lines are handed out one by one, and the tags met on the way are collected until the group they
belong to takes them. -/

namespace FeatureFile

/-- The lines not handed out yet, and the tags that wait for a group. -/
structure Reader where
  rest : List Line
  pending : TagSet
deriving DecidableEq, Repr

namespace Reader

/-- A reader in front of all its lines. -/
def ofLines (lines : List Line) : Reader := ⟨lines, .empty⟩

/-- The next line, if there is one. -/
def next (reader : Reader) : Option Line × Reader :=
  (reader.rest.head?, { reader with rest := reader.rest.tail })

/-- Collects the names of a tag line. -/
def buffer (reader : Reader) (names : List String) : Reader :=
  { reader with pending := reader.pending.addLine names }

/-- Hands over the collected tags. -/
def drain (reader : Reader) : TagSet × Reader := (reader.pending, { reader with pending := .empty })

end Reader

end FeatureFile
