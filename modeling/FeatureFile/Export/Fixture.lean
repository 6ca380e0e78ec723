import FeatureFile.Export.Literal
import FeatureFile.Text.Casing
import FeatureFile.Text.LineBreak

set_option autoImplicit false

/-! # Test fixtures

A feature becomes an NUnit test fixture in C#: a class with one method for its background, each
scenario and each outline. Steps are written as comments that name the call to be filled in. Every
part is a list of lines; a line holds the texts of the document as they are. -/

namespace FeatureFile.Fixture

open Text

/-- The lines as one text. -/
def joinLines (lines : List String) : String := String.intercalate "\n" lines

/-- The attribute line of a tag. -/
def categoryLine (tag : String) : String := "[Category(\"" ++ Literal.regular tag ++ "\")]"

/-! ## Steps and test cases -/

/-- A step as a comment. -/
def step (s : Step) : String :=
  "// " ++ s.keyword.label ++ "(" ++ String.intercalate "___" (s.literals.map pascal) ++ "(" ++
    String.intercalate ", " (s.placeholders.map camel) ++ "));"

/-- The arguments of a row, one for each cell that has a type. -/
def rowArguments (types : List ArgType) (row : Row) : List String :=
  List.zipWith Literal.argument types row.cells

/-- The argument that names the tags of a table, if it has any. -/
def categoryArgument (tags : TagSet) : List String :=
  let category := String.intercalate "," tags.names
  if category = "" then [] else ["Category=\"" ++ Literal.regular category ++ "\""]

/-- A row as a test case. -/
def testCase (types : List ArgType) (tags : TagSet) (row : Row) : String :=
  "TestCase(" ++
    String.intercalate ", " (rowArguments types row ++ categoryArgument tags) ++ ")"

/-- The rows of a table, a test case to a line. -/
def block (types : List ArgType) (b : ExampleBlock) : String :=
  joinLines (b.rows.map (testCase types b.tags))

/-! ## Methods -/

/-- A method with its attributes, tags, parameters and steps. -/
def method (name : String) (attributes tags parameters : List String) (steps : List Step) :
    String :=
  joinLines <|
    attributes.map (fun mark => "    [" ++ mark ++ "]") ++
    tags.map (fun tag => "    " ++ categoryLine tag) ++
    ["    public void " ++ pascal name ++ "(" ++ String.intercalate ", " parameters ++ ")",
      "    \x7b"] ++
    steps.map (fun s => "        " ++ step s) ++
    ["    \x7d"]

/-- The method that runs before every test. -/
def background (scenario : Scenario) : String :=
  method "Background" ["SetUp"] [] [] scenario.steps

/-- A scenario as a test. -/
def scenario (s : Scenario) : String := method s.name ["Test"] s.tags.names [] s.steps

/-- The parameters of an outline, named by the labels of its first table. -/
def parameters (types : List ArgType) (outline : Outline) : List String :=
  match outline.labels? with
  | none => []
  | some labels =>
    labels.cells.zipIdx.map fun (label, index) =>
      Literal.typeName (types[index]?.getD .string) ++ " " ++ camel label

/-- An outline as a test with one test case for each row. -/
def outline (types : List ArgType) (o : Outline) : String :=
  method o.name (o.blocks.flatMap fun b => splitLines (block types b)) o.tags.names
    (parameters types o) o.steps

/-- An item as a method. -/
def item : Item → Except DigitLimit String
  | .scenario s => .ok (scenario s)
  | .outline o => o.argTypes.map fun types => outline types o

/-! ## The class -/

/-- The description as a documentation comment. -/
def summary (description : List String) : List String :=
  if description = [] then []
  else ["/// <summary>"] ++ description.map (fun line => "/// " ++ line) ++ ["/// </summary>"]

/-- A feature as a class around its methods. -/
def classText (feature : Feature) (members : List String) : String :=
  joinLines <|
    summary feature.description ++ ["[TestFixture]"] ++
    feature.tags.names.map categoryLine ++
    ["public class " ++ pascal feature.name, "\x7b"] ++
    members.intersperse "" ++
    ["\x7d"]

/-- A feature as a test fixture. -/
def feature (f : Feature) : Except DigitLimit String :=
  (f.items.mapM item).map fun items =>
    classText f ((f.background.map background).toList ++ items)

end FeatureFile.Fixture
