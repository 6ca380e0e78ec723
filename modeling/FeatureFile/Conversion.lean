import FeatureFile.Draft
import FeatureFile.Export.Format
import FeatureFile.Report

set_option autoImplicit false

/-! # Converting one file

A feature file is read, decoded, parsed, exported and written. Whatever fails up to the writing
leaves the tree as it was. -/

namespace FeatureFile

/-- What came of a conversion. -/
inductive Conversion where
  /-- The feature was written to a file. -/
  | converted (feature : Feature) (output : Path)
  /-- Nothing was written; the feature is there if it could be parsed. -/
  | failed (feature : Option Feature) (error : ConversionError)
  /-- Nothing was written, because a numeral of the feature is over the digit limit. -/
  | overlong (feature : Feature) (limit : DigitLimit)
deriving DecidableEq, Repr

namespace Conversion

/-- The path of the converted file: the name of the input with the extension of the format. -/
def outputPath (path directory : Path) (format : Format) : Path :=
  directory.child (path.name ++ format.extension)

/-- The feature in a file. -/
def readFeature (tree : Tree) (path : Path) : Except ConversionError Feature := do
  let bytes ← (tree.readFile path).mapError .file
  let source ← (Utf8.decode bytes).mapError .encoding
  (parse (Text.unifyBreaks source)).mapError .document

/-- Converts a file into a directory, and gives the tree after that. -/
def run (tree : Tree) (path directory : Path) (format : Format) : Conversion × Tree :=
  match readFeature tree path with
  | .error error => (.failed none error, tree)
  | .ok feature =>
    match format.render feature with
    | .error limit => (.overlong feature limit, tree)
    | .ok text =>
      let output := outputPath path directory format
      match tree.writeFile output (Utf8.encode text) with
      | .error error => (.failed (some feature) (.file error), tree)
      | .ok written => (.converted feature output, written)

end Conversion

end FeatureFile
