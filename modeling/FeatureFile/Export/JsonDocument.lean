import FeatureFile.ArgType
import FeatureFile.Json

set_option autoImplicit false

/-! # Documents as JSON

Every part of a document has a JSON value that keeps all of its fields; an outline adds the types
of its arguments, and so has no value when they cannot be inferred. -/

namespace FeatureFile

/-- A step as its keyword, literals and placeholders. -/
def Step.toJson (step : Step) : Json :=
  .object [("keyword", .text step.keyword.label), ("literals", .texts step.literals),
    ("variables", .texts step.placeholders)]

/-- A table as its tags, labels and rows. -/
def ExampleBlock.toJson (block : ExampleBlock) : Json :=
  .object [("tags", .texts block.tags.names), ("labels", .texts block.labels.cells),
    ("examples", .list (block.rows.map fun row => .texts row.cells))]

namespace Scenario

/-- The members that a background and a scenario share. -/
def jsonMembers (scenario : Scenario) : List (String × Json) :=
  [("name", .text scenario.name), ("tags", .texts scenario.tags.names),
    ("steps", .list (scenario.steps.map Step.toJson))]

/-- A scenario in the place of a background. -/
def backgroundJson (scenario : Scenario) : Json := .object scenario.jsonMembers

/-- A scenario among the items of a feature. -/
def toJson (scenario : Scenario) : Json :=
  .object (("type", .text "scenario") :: scenario.jsonMembers)

end Scenario

/-- An outline with its argument types and tables. -/
def Outline.toJson (outline : Outline) : Except DigitLimit Json :=
  outline.argTypes.map fun types =>
    .object [("type", .text "scenario_outline"), ("name", .text outline.name),
      ("tags", .texts outline.tags.names), ("steps", .list (outline.steps.map Step.toJson)),
      ("argument_types", .texts (types.map ArgType.name)),
      ("example_blocks", .list (outline.blocks.map ExampleBlock.toJson))]

/-- A scenario or an outline. -/
def Item.toJson : Item → Except DigitLimit Json
  | .scenario s => .ok s.toJson
  | .outline o => o.toJson

/-- A whole feature. -/
def Feature.toJson (feature : Feature) : Except DigitLimit Json :=
  (feature.items.mapM Item.toJson).map fun items =>
    .object [("name", .text feature.name), ("tags", .texts feature.tags.names),
      ("description", .texts feature.description),
      ("background", (feature.background.map Scenario.backgroundJson).getD .null),
      ("items", .list items)]

end FeatureFile
