import FeatureFile.Document
import FeatureFile.Line

set_option autoImplicit false

/-! # Reading a document

A feature file is read in one pass. A `Draft` is what is known after some of its lines: the closed
groups of the feature, and the `Place` in the group that is still open. `Draft.read` takes one more
line, `Draft.finish` says what the end of the file means, and `parse` folds the lines of a source.
A fault names the scopes of the place where it is found, so nothing is read twice and no line is
looked at before its turn. -/

namespace FeatureFile

/-! ## Places -/

/-- The two groups that hold steps only. -/
inductive PlainGroup where
  | background
  | scenario
deriving DecidableEq, Repr

/-- Where in the body of a feature the next line stands. -/
inductive Place where
  /-- Below the feature header, where description lines may still come. -/
  | description
  /-- Below tag lines that wait for a header; `last` is the latest of them. -/
  | tagged (pending : TagSet) (last : Line)
  /-- In the steps of a background or scenario. -/
  | steps (group : PlainGroup) (scenario : Scenario)
  /-- In the steps of an outline. -/
  | outlineSteps (outline : Outline)
  /-- In an outline, below tag lines that wait for a header. -/
  | outlineTagged (outline : Outline) (pending : TagSet) (last : Line)
  /-- Below the header of a table, where its label row has to come. -/
  | labels (outline : Outline) (tags : TagSet) (header : Line)
  /-- In the rows of a table. -/
  | rows (outline : Outline) (block : ExampleBlock)
deriving DecidableEq, Repr

/-- A partly read feature file. -/
inductive Draft where
  /-- Above the feature header. -/
  | preamble (tags : TagSet) (description : List String)
  /-- Below the feature header, with the groups closed so far. -/
  | body (feature : Feature) (place : Place)
deriving DecidableEq, Repr

namespace Outline

/-- The outline with one more table. -/
def addBlock (outline : Outline) (block : ExampleBlock) : Outline :=
  { outline with blocks := outline.blocks ++ [block] }

/-- The scope of the table that comes next. -/
def nextBlock (outline : Outline) : Scope := .block (outline.blocks.length + 1)

end Outline

namespace PlainGroup

/-- The scope of a group with a title. -/
def scope : PlainGroup → String → Scope
  | background, title => .background title
  | scenario, title => .scenario title

end PlainGroup

namespace Feature

/-- The feature with one more closed background or scenario. -/
def addScenario (feature : Feature) (group : PlainGroup) (scenario : Scenario) : Feature :=
  match group with
  | .background => { feature with background := some scenario }
  | .scenario => { feature with items := feature.items ++ [.scenario scenario] }

/-- The feature with one more closed outline. -/
def addOutline (feature : Feature) (outline : Outline) : Feature :=
  { feature with items := feature.items ++ [.outline outline] }

/-- The scope of the whole feature. -/
def scope (feature : Feature) : Scope := .feature feature.name

end Feature

namespace Place

/-- The scopes open at a place, outermost first. -/
def scopes (feature : Feature) : Place → List Scope
  | description | tagged _ _ => [feature.scope]
  | steps group scenario => [feature.scope, group.scope scenario.name]
  | outlineSteps outline | outlineTagged outline _ _ => [feature.scope, .outline outline.name]
  | labels outline _ _ | rows outline _ =>
    [feature.scope, .outline outline.name, outline.nextBlock]

end Place

namespace Draft

/-- Before the first line. -/
def start : Draft := .preamble .empty []

/-! ## One more line -/

/-- The fault of a cause at a line. -/
def faultAt {α : Type} (line : Line) (scopes : List Scope) (cause : Cause) : Except Fault α :=
  .error ⟨cause, some line.number, scopes⟩

/-- The result of a decoder, its cause placed at a line. -/
def decodedAt {α : Type} (line : Line) (scopes : List Scope) : Except Cause α → Except Fault α
  | .ok value => .ok value
  | .error cause => faultAt line scopes cause

/-- Opens the group of a header below the feature, all earlier groups being closed. -/
def openGroup (feature : Feature) (tags : TagSet) (line : Line) (keyword : GroupKeyword)
    (title : String) : Except Fault Draft :=
  match keyword with
  | .background =>
    match feature.background with
    | some first => faultAt line [feature.scope] (.duplicateBackground title first.name line.text)
    | none => .ok (.body feature (.steps .background ⟨title, [], tags⟩))
  | .scenario => .ok (.body feature (.steps .scenario ⟨title, [], tags⟩))
  | .outline => .ok (.body feature (.outlineSteps ⟨title, [], [], tags⟩))
  | .feature | .examples =>
    faultAt line [feature.scope] (.misplacedGroup keyword line.text)

/-- Takes a header inside an outline: a table of the outline, or a group that ends it. -/
def openInOutline (feature : Feature) (outline : Outline) (tags : TagSet) (line : Line)
    (keyword : GroupKeyword) (title : String) : Except Fault Draft :=
  match keyword with
  | .examples =>
    if title = "" then .ok (.body feature (.labels outline tags line))
    else
      faultAt line [feature.scope, .outline outline.name, outline.nextBlock]
        (.titledExamples line.text)
  | _ => openGroup (feature.addOutline outline) tags line keyword title

/-- Takes one line in the body of a feature. -/
def readBody (feature : Feature) (place : Place) (line : Line) : Except Fault Draft :=
  let fail := faultAt line (place.scopes feature)
  match place with
  | .description =>
    match line.shape with
    | .freeText =>
      .ok (.body { feature with description := feature.description ++ [line.text] } .description)
    | .tags names => .ok (.body feature (.tagged (TagSet.empty.addLine names) line))
    | .header keyword title => openGroup feature .empty line keyword title
    | _ => fail (.expectedGroup line.text)
  | .tagged pending _ =>
    match line.shape with
    | .tags names => .ok (.body feature (.tagged (pending.addLine names) line))
    | .header keyword title => openGroup feature pending line keyword title
    | _ => fail (.tagsBeforeNonHeader line.text)
  | .steps group scenario =>
    match line.shape with
    | .step keyword content =>
      (decodedAt line (place.scopes feature) (Step.decode keyword content)).map fun step =>
        .body feature (.steps group { scenario with steps := scenario.steps ++ [step] })
    | .tags names =>
      .ok (.body (feature.addScenario group scenario)
        (.tagged (TagSet.empty.addLine names) line))
    | .header keyword title =>
      openGroup (feature.addScenario group scenario) .empty line keyword title
    | _ => fail (.expectedStep line.text)
  | .outlineSteps outline =>
    match line.shape with
    | .step keyword content =>
      (decodedAt line (place.scopes feature) (Step.decode keyword content)).map fun step =>
        .body feature (.outlineSteps { outline with steps := outline.steps ++ [step] })
    | .tags names =>
      .ok (.body feature (.outlineTagged outline (TagSet.empty.addLine names) line))
    | .header keyword title => openInOutline feature outline .empty line keyword title
    | _ => fail (.expectedStep line.text)
  | .outlineTagged outline pending _ =>
    match line.shape with
    | .tags names => .ok (.body feature (.outlineTagged outline (pending.addLine names) line))
    | .header keyword title => openInOutline feature outline pending line keyword title
    | _ => fail (.tagsBeforeNonHeader line.text)
  | .labels outline tags _ =>
    match line.shape with
    | .row =>
      (decodedAt line (place.scopes feature) (Row.decode line.text)).map fun labels =>
        .body feature (.rows outline ⟨labels, [], tags⟩)
    | _ => fail (.expectedLabels (some line.text))
  | .rows outline block =>
    match line.shape with
    | .row =>
      decodedAt line (place.scopes feature) do
        let row ← Row.decode line.text
        Row.checkArity block.labels row
        return .body feature (.rows outline { block with rows := block.rows ++ [row] })
    | .tags names =>
      .ok (.body feature
        (.outlineTagged (outline.addBlock block) (TagSet.empty.addLine names) line))
    | .header keyword title =>
      openInOutline feature (outline.addBlock block) .empty line keyword title
    | _ => fail (.expectedRow line.text)

/-- Takes one more line. -/
def read (draft : Draft) (line : Line) : Except Fault Draft :=
  match draft with
  | .preamble tags description =>
    match line.shape with
    | .tags names => .ok (.preamble (tags.addLine names) description)
    | .freeText => .ok (.preamble tags (description ++ [line.text]))
    | .header .feature title => .ok (.body ⟨title, tags, description, none, []⟩ .description)
    | _ => faultAt line [] (.expectedFeature (some line.text))
  | .body feature place => readBody feature place line

/-! ## The end of the file -/

/-- The feature, if the file may end here. -/
def finish : Draft → Except Fault Feature
  | .preamble _ _ => .error ⟨.expectedFeature none, none, []⟩
  | .body feature place =>
    match place with
    | .description => .ok feature
    | .steps group scenario => .ok (feature.addScenario group scenario)
    | .outlineSteps outline => .ok (feature.addOutline outline)
    | .rows outline block => .ok (feature.addOutline (outline.addBlock block))
    | .tagged _ last | .outlineTagged _ _ last =>
      faultAt last (place.scopes feature) (.tagsAtEnd last.text)
    | .labels _ _ header => faultAt header (place.scopes feature) (.expectedLabels none)

end Draft

/-! ## Whole files -/

/-- The feature that a list of lines describes. -/
def Feature.ofLines (lines : List Line) : Except Fault Feature := do
  (← lines.foldlM Draft.read .start).finish

/-- Reads the whole text of a feature file. -/
def parse (source : String) : Except Fault Feature := Feature.ofLines (Line.ofSource source)

end FeatureFile
