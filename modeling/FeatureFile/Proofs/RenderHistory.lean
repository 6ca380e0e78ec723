import FeatureFile.Export.Renderer
import FeatureFile.Proofs.DigitLimit

set_option autoImplicit false

/-! # What a fixture renderer remembers

The fixture renderer goes through a document with one thing in mind, the argument types of the last
outline. An outline replaces them before its tables are rendered, so its tables never see what was
remembered before; and an outline whose types cannot be inferred leaves them as they were. Started
from any types, the walk over a feature therefore renders what `Fixture.feature` renders, which
knows nothing of a memory (`FixtureWalk.startingWith_feature`).

`visit_after_visits` says this of a renderer after any visits: only a table on its own shows what
came before it, and what it shows are the types of the last outline whose types were inferred. -/

namespace FeatureFile

/-! ## Outlines that are come to -/

/-- The outlines that a walk comes to: all, up to the first whose types cannot be inferred. -/
def Outline.reached : List Outline → List Outline
  | [] => []
  | outline :: rest => outline :: if outline.argTypes.isOk then reached rest else []

/-- The outlines that a visit comes to, in the order in which it comes to them. -/
def Part.reached : Part → List Outline
  | .feature f | .document f => Outline.reached f.outlines
  | .outline o => [o]
  | .background _ | .scenario _ | .block _ | .step _ => []

/-- Whether a part is a table on its own. -/
def Part.isBlock : Part → Bool
  | .block _ => true
  | _ => false

/-- The types of the last outline whose types could be inferred; if there is none, the given
    ones. -/
def lastTypes (types : List ArgType) (outlines : List Outline) : List ArgType :=
  (outlines.filterMap fun outline => outline.argTypes.toOption).getLast?.getD types

theorem lastTypes_append (types : List ArgType) (outlines more : List Outline) :
    lastTypes types (outlines ++ more) = lastTypes (lastTypes types outlines) more := by
  unfold lastTypes
  rw [List.filterMap_append, List.getLast?_append]
  cases (more.filterMap fun outline => outline.argTypes.toOption).getLast? <;> rfl

section OneOutline

variable {outline : Outline} {inferred : List ArgType} {limit : DigitLimit}

theorem lastTypes_of_ok (h : outline.argTypes = .ok inferred) (types : List ArgType)
    (rest : List Outline) :
    lastTypes types (Outline.reached (outline :: rest)) =
      lastTypes inferred (Outline.reached rest) := by
  have hone : lastTypes types [outline] = inferred := by simp [lastTypes, h, Except.toOption]
  have hreached : Outline.reached (outline :: rest) = [outline] ++ Outline.reached rest := by
    simp [Outline.reached, h]
  rw [hreached, lastTypes_append, hone]

theorem lastTypes_of_error (h : outline.argTypes = .error limit) (types : List ArgType)
    (rest : List Outline) : lastTypes types (Outline.reached (outline :: rest)) = types := by
  simp [Outline.reached, lastTypes, h, Except.toOption]

end OneOutline

/-! ## Walks -/

namespace FixtureWalk

section Steps

variable {α β : Type} (types : List ArgType)

/-- Further work starts with what is remembered, unless the limit was met. -/
theorem startingWith_bind (walk : FixtureWalk α) (next : α → FixtureWalk β) :
    (walk >>= next).startingWith types =
      match walk.startingWith types with
      | (.ok a, remembered) => (next a).startingWith remembered
      | (.error limit, remembered) => (.error limit, remembered) := by
  unfold startingWith ExceptT.run StateT.run
  simp only [bind, ExceptT.bind, ExceptT.mk, StateT.bind, ExceptT.bindCont]
  cases walk types with
  | mk result remembered => cases result <;> rfl

end Steps

section Documents

variable (types : List ArgType)

/-- Tables are rendered with the types that are remembered, and leave them. -/
theorem startingWith_tables (blocks : List ExampleBlock) :
    (blocks.mapM block).startingWith types = (.ok (blocks.map (Fixture.block types)), types) := by
  induction blocks with
  | nil => rfl
  | cons b rest ih =>
    have hblock : (block b).startingWith types = (.ok (Fixture.block types b), types) := rfl
    rw [List.mapM_cons, startingWith_bind, hblock]
    simp only
    rw [startingWith_bind, ih]
    rfl

/-- An outline is rendered with its own types, whatever was remembered, and these are remembered
    after it. -/
theorem startingWith_outline (o : Outline) :
    (outline o).startingWith types =
      match o.argTypes with
      | .ok inferred => (.ok (Fixture.outline inferred o), inferred)
      | .error limit => (.error limit, types) := by
  unfold outline
  cases o.argTypes with
  | error limit => rfl
  | ok inferred =>
    simp only
    have hset : (set inferred : FixtureWalk PUnit).startingWith types = (.ok ⟨⟩, inferred) := rfl
    rw [startingWith_bind, hset]
    simp only
    rw [startingWith_bind, startingWith_tables]
    show (Except.ok (Fixture.method o.name ((o.blocks.map (Fixture.block inferred)).flatMap
      Text.splitLines) o.tags.names (Fixture.parameters inferred o) o.steps), inferred) = _
    rw [List.flatMap_map]
    rfl

theorem startingWith_items (items : List Item) :
    (items.mapM item).startingWith types =
      (items.mapM Fixture.item, lastTypes types (Outline.reached (items.filterMap fun
        | .scenario _ => none
        | .outline outline => some outline))) := by
  induction items generalizing types with
  | nil => rfl
  | cons head rest ih =>
    rw [List.mapM_cons, List.mapM_cons, startingWith_bind]
    cases head with
    | scenario s =>
      have hitem : (item (.scenario s)).startingWith types = (.ok (Fixture.scenario s), types) :=
        rfl
      rw [hitem]
      simp only
      rw [startingWith_bind, ih types]
      cases rest.mapM Fixture.item <;> rfl
    | outline o =>
      have hitem : (item (.outline o)).startingWith types = _ := startingWith_outline types o
      rw [hitem]
      simp only [List.filterMap_cons]
      cases ho : o.argTypes with
      | error limit =>
        rw [lastTypes_of_error ho]
        simp only [Fixture.item, ho]
        rfl
      | ok inferred =>
        rw [lastTypes_of_ok ho]
        simp only [Fixture.item, ho]
        rw [startingWith_bind, ih inferred]
        cases rest.mapM Fixture.item <;> rfl

/-- The walk over a feature renders what the feature renders to, whatever was remembered. -/
theorem startingWith_feature (f : Feature) :
    (feature f).startingWith types =
      (Fixture.feature f, lastTypes types (Outline.reached f.outlines)) := by
  unfold feature Fixture.feature
  rw [startingWith_bind, startingWith_items]
  cases f.items.mapM Fixture.item <;> rfl

end Documents

/-- What a part that is no table renders to, with no memory. -/
theorem startingWith_part (types : List ArgType) {p : Part} (h : p.isBlock = false) :
    ((part p).startingWith types).1 = ((part p).startingWith []).1 := by
  cases p with
  | feature f => simp only [part, startingWith_feature]
  | document f =>
    simp only [part, startingWith_bind, startingWith_feature]
    cases Fixture.feature f <;> rfl
  | outline o =>
    simp only [part, startingWith_outline]
    cases o.argTypes <;> rfl
  | background s => rfl
  | scenario s => rfl
  | step s => rfl
  | block b => simp [Part.isBlock] at h

/-- After a part, the types of the last outline that the visit came to are remembered. -/
theorem remembered_part (types : List ArgType) (p : Part) :
    ((part p).startingWith types).2 = lastTypes types p.reached := by
  cases p with
  | feature f => simp only [part, startingWith_feature, Part.reached]
  | document f =>
    simp only [part, startingWith_bind, startingWith_feature, Part.reached]
    cases Fixture.feature f <;> rfl
  | outline o =>
    simp only [part, startingWith_outline, Part.reached]
    cases ho : o.argTypes <;> simp [lastTypes, ho, Except.toOption]
  | background s => rfl
  | scenario s => rfl
  | step s => rfl
  | block b => rfl

end FixtureWalk

/-! ## Visits -/

namespace Renderer

/-- The renderer after some visits, whatever came of them. -/
def after (renderer : Renderer) (parts : List Part) : Renderer :=
  parts.foldl (fun renderer part => (renderer.visit part).2) renderer

/-- After some visits, the types of the last outline that one of them came to are remembered. -/
theorem after_nunit (types : List ArgType) (parts : List Part) :
    (nunit types).after parts = nunit (lastTypes types (parts.flatMap Part.reached)) := by
  induction parts generalizing types with
  | nil => rfl
  | cons part rest ih =>
    have hstep : ((nunit types).visit part).2 = nunit (lastTypes types part.reached) :=
      congrArg nunit (FixtureWalk.remembered_part types part)
    rw [List.flatMap_cons, lastTypes_append, ← ih]
    exact congrArg (·.after rest) hstep

/-- What a fixture renderer makes of a part that is no table does not depend on its memory. -/
theorem visit_nunit (types : List ArgType) {part : Part} (h : part.isBlock = false) :
    ((nunit types).visit part).1 = ((nunit []).visit part).1 := by
  simp only [visit, FixtureWalk.startingWith_part types h]

end Renderer

/-- After any visits, on whatever parts and however they went, a fixture renderer makes of every
    part but a table what a fresh one makes of it. A table on its own is rendered with the types of
    the last outline that the visits came to and whose types were inferred, and with none if there
    was no such outline. -/
theorem visit_after_visits (types : List ArgType) (earlier : List Part) :
    (∀ part, part.isBlock = false → (((Renderer.nunit types).after earlier).visit part).1 =
      ((Renderer.ofFormat .nunit).visit part).1) ∧
    ∀ block, (((Renderer.ofFormat .nunit).after earlier).visit (.block block)).1 =
      .ok (.text (Fixture.block (lastTypes [] (earlier.flatMap Part.reached)) block)) := by
  constructor
  · intro part hpart
    rw [Renderer.after_nunit]
    exact Renderer.visit_nunit _ hpart
  · intro block
    rw [Renderer.ofFormat, Renderer.after_nunit]
    rfl

/-! ## A feature that is left half way -/

/-- A table of one column and one row. -/
def singleCell (label cell : String) : ExampleBlock :=
  ⟨⟨[label], by simp⟩, [⟨[cell], by simp⟩], .empty⟩

/-- An outline with a table of one cell. -/
def singleOutline (cell : String) : Outline := ⟨"o", [], [singleCell "a" cell], .empty⟩

/-- A feature whose second outline is over the digit limit, so that the third is not come to. -/
def interruptedFeature : Feature :=
  { sevensFeature 4301 with
    items := .outline (singleOutline "true") :: (sevensFeature 4301).items ++
      [.outline (singleOutline "3")] }

theorem lastTypes_interruptedFeature (types : List ArgType) :
    lastTypes types (Part.document interruptedFeature).reached = [.boolean] := by
  obtain ⟨outline, hmem, hoverlong⟩ := overlong_sevensFeature (n := 4301) (by decide)
  have hitems : (sevensFeature 4301).items = [.outline outline] := by
    rw [List.mem_singleton.1 hmem]
    rfl
  have houtlines : interruptedFeature.outlines =
      [singleOutline "true", outline, singleOutline "3"] := by
    simp [Feature.outlines, interruptedFeature, hitems]
  have hflag : (singleOutline "true").argTypes = .ok [.boolean] := by decide +kernel
  cases hlimit : outline.argTypes with
  | ok types =>
    have hok : outline.argTypes.isOk = true := by rw [hlimit]; rfl
    exact absurd hoverlong (isOk_argTypes_iff.1 hok)
  | error limit =>
    rw [Part.reached, houtlines, lastTypes_of_ok hflag, lastTypes_of_error hlimit]

/-- After an outline of strings and an interrupted feature, an outline of integers is rendered as
    ever, and a table with the types of the outline before the interruption. -/
theorem visit_after_interruptedFeature :
    (Part.outline (singleOutline "7")).isBlock = false ∧
    (((Renderer.nunit [.float]).after
      [.outline (singleOutline "x"), .document interruptedFeature]).visit
        (.outline (singleOutline "7"))).1 =
      .ok (.text "    [TestCase(7)]\n    public void O(long a)\n    \x7b\n    \x7d") ∧
    (((Renderer.ofFormat .nunit).after
      [.outline (singleOutline "x"), .document interruptedFeature]).visit
        (.block (singleCell "a" "TRUE"))).1 = .ok (.text "TestCase(true)") := by
  refine ⟨rfl, ?_, ?_⟩
  · have htypes : (singleOutline "7").argTypes = .ok [.integer] := by decide +kernel
    have htext : Fixture.outline [.integer] (singleOutline "7") =
        "    [TestCase(7)]\n    public void O(long a)\n    \x7b\n    \x7d" := by decide +kernel
    rw [(visit_after_visits _ _).1 _ rfl, ← htext]
    simp only [Renderer.ofFormat, Renderer.visit, FixtureWalk.part,
      FixtureWalk.startingWith_outline, htypes]
    rfl
  · have htypes : lastTypes [] ([.outline (singleOutline "x"),
        .document interruptedFeature].flatMap Part.reached) = [.boolean] := by
      rw [List.flatMap_cons, List.flatMap_singleton, lastTypes_append,
        lastTypes_interruptedFeature]
    have htext : Fixture.block [.boolean] (singleCell "a" "TRUE") = "TestCase(true)" := by
      decide +kernel
    rw [(visit_after_visits [] _).2, htypes, htext]

end FeatureFile
