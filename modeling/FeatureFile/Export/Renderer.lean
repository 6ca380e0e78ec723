import FeatureFile.Export.Format

set_option autoImplicit false

/-! # Rendering a document part by part

A renderer turns one part of a document after another into text or JSON. The renderer of test
fixtures remembers the argument types of the outline it met last: it infers them when it comes to
an outline, and takes them from there for the tables and the parameters of the outline, and also
for a table that is rendered on its own. Two further renderers implement no part at all. -/

namespace FeatureFile

/-- A part of a document, or a whole document to be exported. -/
inductive Part where
  | feature (feature : Feature)
  | background (scenario : Scenario)
  | scenario (scenario : Scenario)
  | outline (outline : Outline)
  | block (block : ExampleBlock)
  | step (step : Step)
  | document (feature : Feature)
deriving DecidableEq, Repr

/-- A renderer, with what it remembers. -/
inductive Renderer where
  /-- Implements nothing and knows of no export. -/
  | bare
  /-- Implements nothing, the export included. -/
  | unfinished
  | nunit (types : List ArgType)
  | json
deriving DecidableEq, Repr

/-- What a renderer makes of a part. -/
inductive Rendering where
  | text (text : String)
  | value (json : Json)
deriving Repr

/-- Why a renderer makes nothing of a part. -/
inductive RenderError where
  | digitLimit (limit : DigitLimit)
  | notImplemented (renderer method : String)
  | noExport (renderer : String)
deriving DecidableEq, Repr

/-- The sentence that explains an error. -/
def RenderError.message : RenderError → String
  | digitLimit limit => limit.message
  | notImplemented renderer method => renderer ++ " does not implement " ++ method
  | noExport renderer => "'" ++ renderer ++ "' object has no attribute 'export'"

/-- The operation that renders a part. -/
def Part.method : Part → String
  | feature _ => "visit_feature"
  | background _ => "visit_background"
  | scenario _ => "visit_scenario"
  | outline _ => "visit_scenario_outline"
  | block _ => "visit_example_block"
  | step _ => "visit_step"
  | document _ => "export"

/-! ## Fixtures -/

/-- Work of the fixture renderer: it reads and changes the remembered types, and it may meet the
    digit limit. What is remembered by then stays. -/
abbrev FixtureWalk := ExceptT DigitLimit (StateM (List ArgType))

namespace FixtureWalk

/-- A table, with the types that are remembered. -/
def block (b : ExampleBlock) : FixtureWalk String := do
  return Fixture.block (← get) b

/-- An outline; its types are remembered before its tables are rendered. -/
def outline (o : Outline) : FixtureWalk String := do
  match o.argTypes with
  | .error limit => throw limit
  | .ok inferred =>
    set inferred
    let tables ← o.blocks.mapM block
    return Fixture.method o.name (tables.flatMap Text.splitLines) o.tags.names
      (Fixture.parameters (← get) o) o.steps

/-- An item as a method. -/
def item : Item → FixtureWalk String
  | .scenario s => return Fixture.scenario s
  | .outline o => outline o

/-- A feature as a class; the items after one that meets the digit limit are not come to. -/
def feature (f : Feature) : FixtureWalk String := do
  let items ← f.items.mapM item
  return Fixture.classText f ((f.background.map Fixture.background).toList ++ items)

/-- A part as a piece of a test fixture. -/
def part : Part → FixtureWalk String
  | .feature f => feature f
  | .background s => return Fixture.background s
  | .scenario s => return Fixture.scenario s
  | .outline o => outline o
  | .block b => block b
  | .step s => return Fixture.step s
  | .document f => return (← feature f) ++ "\n"

/-- What comes of some work, and the types remembered after it. -/
def startingWith {α : Type} (walk : FixtureWalk α) (types : List ArgType) :
    Except DigitLimit α × List ArgType :=
  StateT.run (ExceptT.run walk) types

end FixtureWalk

/-! ## Renderers -/

namespace Renderer

/-- A fresh renderer of a format. -/
def ofFormat : Format → Renderer
  | .nunit => nunit []
  | .json => json

/-- A result that may have met the digit limit. -/
def limited (result : Except DigitLimit Rendering) : Except RenderError Rendering :=
  result.mapError .digitLimit

/-- Renders a part as a JSON value. -/
def jsonPart : Part → Except RenderError Rendering
  | .feature feature => limited (feature.toJson.map .value)
  | .background scenario => .ok (.value scenario.backgroundJson)
  | .scenario scenario => .ok (.value scenario.toJson)
  | .outline outline => limited (outline.toJson.map .value)
  | .block block => .ok (.value block.toJson)
  | .step step => .ok (.value step.toJson)
  | .document feature => limited ((Format.json.render feature).map .text)

/-- Renders a part, and gives the renderer for the next one. -/
def visit (renderer : Renderer) (part : Part) : Except RenderError Rendering × Renderer :=
  match renderer with
  | bare =>
    match part with
    | .document _ => (.error (.noExport "FeatureVisitor"), bare)
    | _ => (.error (.notImplemented "FeatureVisitor" part.method), bare)
  | unfinished => (.error (.notImplemented "Exporter" part.method), unfinished)
  | nunit types =>
    let (text, remembered) := (FixtureWalk.part part).startingWith types
    (limited (text.map .text), nunit remembered)
  | json => (jsonPart part, json)

end Renderer

end FeatureFile
