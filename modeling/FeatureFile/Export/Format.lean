import FeatureFile.Export.Fixture
import FeatureFile.Export.JsonDocument

set_option autoImplicit false

/-! # Export formats -/

namespace FeatureFile

/-- A format that a feature can be written in. -/
inductive Format where
  | nunit
  | json
deriving DecidableEq, Repr

namespace Format

/-- Every format. -/
def all : List Format := [nunit, json]

/-- The name a user chooses the format by. -/
def name : Format → String
  | nunit => "nunit"
  | json => "json"

/-- What is added to the name of an input file. -/
def extension : Format → String
  | nunit => ".cs"
  | json => ".json"

/-- The format of a name. -/
def ofName? (name : String) : Option Format := all.find? fun format => format.name == name

/-- The sentence that explains that a name means no format. -/
def unknownMessage (name : String) : String :=
  "unknown export format \"" ++ name ++ "\", expected one of " ++
    String.intercalate ", " (all.map Format.name)

/-- The text of a feature. -/
def render (format : Format) (feature : Feature) : Except DigitLimit String :=
  match format with
  | nunit => (Fixture.feature feature).map (· ++ "\n")
  | json => feature.toJson.map Json.render

end Format

end FeatureFile
