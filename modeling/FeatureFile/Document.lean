import FeatureFile.Step
import FeatureFile.Table

set_option autoImplicit false

/-! # Documents

A feature has an optional background and a list of items, each a scenario or a scenario outline.
An outline is a scenario whose steps are filled in from tables of examples. -/

namespace FeatureFile

/-- A list of steps under a title. -/
structure Scenario where
  name : String
  steps : List Step
  tags : TagSet
deriving DecidableEq, Repr

/-- A scenario with placeholders and the tables that fill them. -/
structure Outline where
  name : String
  steps : List Step
  blocks : List ExampleBlock
  tags : TagSet
deriving DecidableEq, Repr

namespace Outline

/-- The label row of the first table. -/
def labels? (outline : Outline) : Option Row := outline.blocks.head?.map (·.labels)

/-- The rows of all tables. -/
def rows (outline : Outline) : List Row := outline.blocks.flatMap (·.rows)

end Outline

/-- A member of a feature. -/
inductive Item where
  | scenario (scenario : Scenario)
  | outline (outline : Outline)
deriving DecidableEq, Repr

/-- A whole feature file. -/
structure Feature where
  name : String
  tags : TagSet
  description : List String
  background : Option Scenario
  items : List Item
deriving DecidableEq, Repr

namespace Feature

/-- The scenarios among the items. -/
def scenarios (feature : Feature) : List Scenario :=
  feature.items.filterMap fun
    | .scenario scenario => some scenario
    | .outline _ => none

/-- The scenario outlines among the items. -/
def outlines (feature : Feature) : List Outline :=
  feature.items.filterMap fun
    | .scenario _ => none
    | .outline outline => some outline

end Feature

end FeatureFile
