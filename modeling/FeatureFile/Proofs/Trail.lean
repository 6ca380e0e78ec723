import FeatureFile.Proofs.FirstFault

set_option autoImplicit false

/-! # The trail of a fault

Which scopes are open at a line of a feature file can be said from the shapes of the lines above
it, without a draft. `OpenScopes` keeps that account: the scope of the feature opens at its header
and stays open, that of a background or scenario is closed by whatever is no step, that of an
outline by a header that is not one of its tables, that of a table by whatever is no row.

A line does two things to the account. As soon as it is read it closes scopes, and a table header
opens that of the table, `OpenScopes.enter`; the other headers open their scopes below themselves,
`OpenScopes.leave`. A fault is found in between. The main result is `breadcrumbs_of_parse`: the
trail of every fault names the scopes that are open when it is found, and no others. -/

namespace FeatureFile

/-! ## Open scopes -/

/-- What is open of the tables of an outline. -/
inductive TableScope where
  /-- No table: it is not there yet, or it is over. -/
  | closed
  /-- A table whose label row is awaited. -/
  | unlabelled
  /-- A table whose label row was read. -/
  | labelled
deriving DecidableEq, Repr

/-- What is open below a feature. -/
inductive InnerScope where
  | none
  | plain (group : PlainGroup) (title : String)
  /-- An outline, the number of table headers since its own header, and what is open of the
      last one. -/
  | outline (title : String) (tables : Nat) (table : TableScope)
deriving DecidableEq, Repr

/-- The scopes that are open at a line. -/
structure OpenScopes where
  feature : Option String
  inner : InnerScope
deriving DecidableEq, Repr

namespace InnerScope

/-- What is open once a line is read, or the end of the file, before anything is made of it. While
    a label row is awaited nothing closes, and a table header opens no further table. -/
def enter : InnerScope → Option Shape → InnerScope
  | plain _ _, some (.tags _) | plain _ _, some (.header _ _) | plain _ _, Option.none => none
  | outline title tables .unlabelled, _ => outline title tables .unlabelled
  | outline title tables _, some (.header .examples _) => outline title (tables + 1) .unlabelled
  | outline _ _ _, some (.header _ _) => none
  | outline title tables _, some (.tags _) | outline title tables _, Option.none =>
    outline title tables .closed
  | inner, _ => inner

/-- What is open below a line. -/
def leave : InnerScope → Shape → InnerScope
  | _, .header .background title => plain .background title
  | _, .header .scenario title => plain .scenario title
  | _, .header .outline title => outline title 0 .closed
  | outline title tables .unlabelled, .row => outline title tables .labelled
  | inner, _ => inner

/-- How the open scopes are named, outermost first. -/
def trail : InnerScope → List String
  | none => []
  | plain .background title => ["while parsing background \"" ++ title ++ "\""]
  | plain .scenario title => ["while parsing scenario \"" ++ title ++ "\""]
  | outline title _ .closed => ["while parsing scenario outline \"" ++ title ++ "\""]
  | outline title tables _ =>
    ["while parsing scenario outline \"" ++ title ++ "\"",
      s!"while parsing example block #{tables}"]

end InnerScope

namespace OpenScopes

/-- The scopes that are open once a line is read, or the end of the file, before anything is made
    of it. -/
def enter (scopes : OpenScopes) (read : Option Shape) : OpenScopes :=
  match scopes.feature, read with
  | none, some (.header .feature name) => ⟨some name, scopes.inner⟩
  | _, _ => { scopes with inner := scopes.inner.enter read }

/-- The scopes that are open below a line. -/
def leave (scopes : OpenScopes) (shape : Shape) : OpenScopes :=
  { scopes with inner := scopes.inner.leave shape }

/-- The scopes that are open below some lines. -/
def below (lines : List Line) : OpenScopes :=
  lines.foldl (fun scopes line => (scopes.enter (some line.shape)).leave line.shape) ⟨none, .none⟩

/-- How the open scopes are named, outermost first. -/
def trail (scopes : OpenScopes) : List String :=
  (scopes.feature.toList.map fun name => "while parsing feature \"" ++ name ++ "\"") ++
    scopes.inner.trail

theorem below_append_singleton (lines : List Line) (line : Line) :
    below (lines ++ [line]) = ((below lines).enter (some line.shape)).leave line.shape := by
  simp only [below, List.foldl_append, List.foldl_cons, List.foldl_nil]

/-- Once the feature is open, only what is inside it changes. -/
theorem enter_of_feature (name : String) (inner : InnerScope) (read : Option Shape) :
    enter ⟨some name, inner⟩ read = ⟨some name, inner.enter read⟩ := rfl

end OpenScopes

/-! ## The scopes of a draft -/

/-- The scope that is open at a place, below that of the feature. -/
def Place.inner : Place → InnerScope
  | .description | .tagged _ _ => .none
  | .steps group scenario => .plain group scenario.name
  | .outlineSteps outline | .outlineTagged outline _ _ =>
    .outline outline.name outline.blocks.length .closed
  | .labels outline _ _ => .outline outline.name (outline.blocks.length + 1) .unlabelled
  | .rows outline _ => .outline outline.name (outline.blocks.length + 1) .labelled

/-- The scopes that are open after the lines of a draft. -/
def Draft.openScopes : Draft → OpenScopes
  | .preamble _ _ => ⟨none, .none⟩
  | .body feature place => ⟨some feature.name, place.inner⟩

/-- The trail of a place is that of its open scopes. -/
theorem Place.trail_scopes (feature : Feature) (place : Place) :
    (place.scopes feature).map Scope.describe =
      (Draft.body feature place).openScopes.trail := by
  cases place with
  | steps group scenario => cases group <;> rfl
  | _ => rfl

/-- Where a table may start, the number of the next one is known. -/
theorem Place.exists_inner_of_outline {place : Place} {outline : Outline}
    (h : place.outline? = some outline) :
    ∃ table, table ≠ .unlabelled ∧
      place.inner = .outline outline.name outline.blocks.length table := by
  cases place with
  | outlineSteps open_ =>
    cases h
    exact ⟨.closed, by decide, rfl⟩
  | rows open_ block =>
    cases h
    refine ⟨.labelled, by decide, ?_⟩
    show InnerScope.outline open_.name (open_.blocks.length + 1) .labelled =
      .outline open_.name (open_.blocks ++ [block]).length .labelled
    rw [List.length_append, List.length_singleton]
  | _ => simp [Place.outline?] at h

namespace InnerScope

theorem enter_table {title heading : String} {tables : Nat} {table : TableScope}
    (h : table ≠ .unlabelled) :
    (outline title tables table).enter (some (.header .examples heading)) =
      outline title (tables + 1) .unlabelled := by
  cases table with
  | unlabelled => exact absurd rfl h
  | closed | labelled => rfl

theorem enter_tags {title : String} {tables : Nat} {table : TableScope} {names : List String}
    (h : table ≠ .unlabelled) :
    (outline title tables table).enter (some (.tags names)) = outline title tables .closed := by
  cases table with
  | unlabelled => exact absurd rfl h
  | closed | labelled => rfl

end InnerScope

namespace Draft

variable {draft next : Draft} {line : Line} {lines : List Line} {feature closed : Feature}
  {place : Place} {fault : Fault} {keyword : GroupKeyword} {title : String} {tags : TagSet}

theorem name_of_finish (h : finish (.body feature place) = .ok closed) :
    closed.name = feature.name := by
  cases place with
  | steps group scenario =>
    cases h
    cases group <;> rfl
  | description | outlineSteps _ | rows _ _ =>
    cases h
    rfl
  | _ => simp [finish, faultAt] at h

/-- Where a group may end, a header other than one of a table closes everything in the feature. -/
theorem enter_header_of_finish (h : finish (.body feature place) = .ok closed)
    (outside : place.outline? = none ∨ keyword ≠ .examples) (title : String) :
    place.inner.enter (some (.header keyword title)) = .none := by
  cases place with
  | description | steps _ _ => rfl
  | outlineSteps _ | rows _ _ =>
    have hother : keyword ≠ .examples := outside.resolve_left (by simp [Place.outline?])
    cases keyword with
    | examples => exact absurd rfl hother
    | _ => rfl
  | _ => simp [finish, faultAt] at h

/-- Where a group may end and no outline is open, tags close everything in the feature. -/
theorem enter_tags_of_finish (h : finish (.body feature place) = .ok closed)
    (outside : place.outline? = none) (names : List String) :
    place.inner.enter (some (.tags names)) = .none := by
  cases place with
  | description | steps _ _ => rfl
  | outlineSteps _ | rows _ _ => simp [Place.outline?] at outside
  | _ => simp [finish, faultAt] at h

/-- Below its header, a group is the only scope in the feature. -/
theorem openScopes_of_openGroup (h : openGroup feature tags line keyword title = .ok next) :
    next.openScopes = ⟨some feature.name, InnerScope.none.leave (.header keyword title)⟩ := by
  rcases openGroup_eq_ok_iff.1 h with ⟨rfl, -, rfl⟩ | ⟨rfl, rfl⟩ | ⟨rfl, rfl⟩ <;> rfl

theorem keyword_ne_examples_of_openGroup
    (h : openGroup feature tags line keyword title = .ok next) : keyword ≠ .examples := by
  rcases openGroup_eq_ok_iff.1 h with ⟨rfl, -, -⟩ | ⟨rfl, -⟩ | ⟨rfl, -⟩ <;> simp

/-- A line that is taken does to the account of the scopes what it does to the draft. -/
theorem Moves.openScopes (h : Moves draft line next) :
    next.openScopes = (draft.openScopes.enter (some line.shape)).leave line.shape := by
  cases h with
  | preambleTags shape | preambleText shape | feature shape | describe shape | step shape _
  | outlineStep shape _ | labels shape _ | row shape _ _ | moreTags shape
  | moreOutlineTags shape =>
    rw [shape]
    rfl
  | @tags feature closed place line names closes outside shape =>
    have hname : closed.name = feature.name := name_of_finish closes
    have henter := enter_tags_of_finish closes outside names
    simp only [Draft.openScopes, OpenScopes.enter_of_feature, shape, henter, hname]
    rfl
  | @outlineTags feature place outline line names inside shape =>
    obtain ⟨table, htable, hinner⟩ := Place.exists_inner_of_outline inside
    simp only [Draft.openScopes, OpenScopes.enter_of_feature, shape, hinner,
      InnerScope.enter_tags htable]
    rfl
  | @group feature closed place line keyword title next closes shape opens =>
    have hname : closed.name = feature.name := name_of_finish closes
    have henter := enter_header_of_finish closes
      (.inr (keyword_ne_examples_of_openGroup opens)) title
    rw [openScopes_of_openGroup opens, shape, hname]
    simp only [Draft.openScopes, OpenScopes.enter_of_feature, henter]
    rfl
  | taggedGroup shape opens =>
    rw [openScopes_of_openGroup opens, shape]
    rfl
  | @outlineTaggedGroup feature outline pending last line keyword title next shape opens =>
    have hother : keyword ≠ .examples := keyword_ne_examples_of_openGroup opens
    rw [openScopes_of_openGroup opens, shape]
    cases keyword with
    | examples => exact absurd rfl hother
    | _ => rfl
  | @table feature place outline line inside shape =>
    obtain ⟨table, htable, hinner⟩ := Place.exists_inner_of_outline inside
    simp only [Draft.openScopes, OpenScopes.enter_of_feature, shape, hinner,
      InnerScope.enter_table htable]
    rfl
  | taggedTable shape =>
    rw [shape]
    rfl

/-- After every run from the start, the account of the lines is that of the draft. -/
theorem openScopes_of_run (h : start.run lines = .ok draft) :
    draft.openScopes = OpenScopes.below lines := by
  have hstart : start.openScopes = OpenScopes.below [] := rfl
  refine run_induction (P := fun draft lines => draft.openScopes = OpenScopes.below lines)
    (fun draft line next lines hread hdraft => ?_) hstart h
  rw [OpenScopes.below_append_singleton, ← hdraft]
  exact (read_eq_ok_iff.1 hread).openScopes

/-! ## The scopes of a fault -/

/-- A line that has no use at a place neither opens nor closes anything there. -/
theorem enter_of_refusal {shape : Shape} {cause : String → Cause}
    (h : place.refusal? shape = some cause) : place.inner.enter (some shape) = place.inner := by
  unfold Place.refusal? at h
  split at h <;> cases h <;> rfl

theorem scopes_of_openGroup (h : openGroup feature tags line keyword title = .error fault) :
    fault.scopes = [feature.scope] := by
  rcases openGroup_eq_error_iff.1 h with ⟨first, -, -, rfl⟩ | ⟨-, rfl⟩ <;> rfl

/-- A line that is not taken has the trail of the scopes that are open once it is read. -/
theorem Fails.trail_scopes (h : Fails draft line fault) :
    fault.scopes.map Scope.describe = (draft.openScopes.enter (some line.shape)).trail := by
  cases h with
  | preamble notTags notText notFeature =>
    have henter : OpenScopes.enter ⟨none, .none⟩ (some line.shape) = ⟨none, .none⟩ := by
      unfold OpenScopes.enter
      split
      · next name _ hshape => exact absurd (Option.some.inj hshape) (notFeature name)
      · rfl
    rw [Draft.openScopes, henter]
    rfl
  | @refused feature place line cause refusal =>
    rw [Place.trail_scopes, Draft.openScopes, OpenScopes.enter_of_feature,
      enter_of_refusal refusal]
  | @step feature group scenario line keyword content cause shape decoded =>
    rw [shape]
    cases group <;> rfl
  | outlineStep shape _ | labels shape _ | row shape _ | width shape _ _
  | taggedTitled shape _ =>
    rw [shape]
    rfl
  | @group feature closed place line keyword title fault closes shape outside fails =>
    have hname : closed.name = feature.name := name_of_finish closes
    have henter := enter_header_of_finish closes outside title
    rw [scopes_of_openGroup fails, Feature.scope, hname, shape, Draft.openScopes,
      OpenScopes.enter_of_feature, henter]
    rfl
  | taggedGroup shape fails =>
    rw [scopes_of_openGroup fails, shape]
    rfl
  | @outlineTaggedGroup feature outline pending last line keyword title fault shape outside
      fails =>
    rw [scopes_of_openGroup fails, shape]
    cases keyword with
    | examples => exact absurd rfl outside
    | _ => rfl
  | @titled feature place outline line title inside shape titled =>
    obtain ⟨table, htable, hinner⟩ := Place.exists_inner_of_outline inside
    rw [shape, Draft.openScopes, OpenScopes.enter_of_feature, hinner,
      InnerScope.enter_table htable]
    rfl

/-- A fault of the end has the trail of the scopes that the end leaves open. -/
theorem trail_scopes_of_finish (h : draft.finish = .error fault) :
    fault.scopes.map Scope.describe = (draft.openScopes.enter none).trail := by
  cases draft with
  | preamble tags description =>
    cases h
    rfl
  | body feature place => cases place <;> cases h <;> rfl

end Draft

/-! ## Whole files -/

/-- Where in a file a fault is raised: the lines above were read, and then the line of the fault, or
    no line but the end of the file. -/
inductive Fault.RaisedAt (fault : Fault) : List Line → List Line → Option Shape → Prop where
  | line {above below : List Line} {line : Line} (number : fault.number = some line.number)
      (blamed : fault.cause.atEnd = false) :
      RaisedAt fault (above ++ line :: below) above (some line.shape)
  | endOfFile {lines : List Line} (atEnd : fault.cause.atEnd = true) :
      RaisedAt fault lines lines none

/-- The trail of every fault names the scopes that are open where it is raised, outermost first, and
    the message comes last. -/
theorem breadcrumbs_of_parse {source : String} {fault : Fault}
    (h : parse source = .error fault) :
    ∃ above read, fault.RaisedAt (Line.ofSource source) above read ∧
      fault.diagnostic.breadcrumbs =
        ((OpenScopes.below above).enter read).trail ++ [fault.cause.message] ∧
      fault.diagnostic.text =
        String.intercalate ": "
          (((OpenScopes.below above).enter read).trail ++ [fault.cause.message]) := by
  rw [parse, Feature.ofLines_eq, except_bind_eq_error_iff] at h
  rcases h with hrun | ⟨draft, hrun, hfinish⟩
  · obtain ⟨above, line, below, draft, hlines, hrun, hread⟩ := Draft.run_eq_error_iff.1 hrun
    obtain ⟨hnumber, hcause⟩ := Draft.blames_of_read hread
    have htrail := (Draft.fails_of_read hread).trail_scopes
    rw [Draft.openScopes_of_run hrun] at htrail
    refine ⟨above, some line.shape, hlines ▸ .line hnumber hcause, ?_⟩
    rw [← htrail]
    exact ⟨rfl, rfl⟩
  · have htrail := Draft.trail_scopes_of_finish hfinish
    rw [Draft.openScopes_of_run hrun] at htrail
    refine ⟨Line.ofSource source, none, .endOfFile (Draft.atEnd_of_finish hfinish), ?_⟩
    rw [← htrail]
    exact ⟨rfl, rfl⟩

/-- A table, and another one with a header in the place of its label row. -/
def unlabelledSource : String :=
  "Feature: f\nScenario Outline: o\nExamples:\n|a|\n@t\nExamples:\nScenario: s"

/-- The fault of `unlabelledSource`. -/
def unlabelledFault : Fault :=
  ⟨.expectedLabels (some "Scenario: s"), some 7, [.feature "f", .outline "o", .block 2]⟩

/-- The header closes neither the table that waits for its labels nor the outline. -/
theorem breadcrumbs_unlabelledSource :
    parse unlabelledSource = .error unlabelledFault ∧
      ∃ above read, unlabelledFault.RaisedAt (Line.ofSource unlabelledSource) above read ∧
        ((OpenScopes.below above).enter read).trail ++ [unlabelledFault.cause.message] =
          ["while parsing feature \"f\"", "while parsing scenario outline \"o\"",
            "while parsing example block #2",
            "expected a label row after \"Examples:\", found \"Scenario: s\""] := by
  have hparse : parse unlabelledSource = .error unlabelledFault := by decide +kernel
  obtain ⟨above, read, hraised, htrail, -⟩ := breadcrumbs_of_parse hparse
  refine ⟨hparse, above, read, hraised, htrail.symm.trans ?_⟩
  decide +kernel

end FeatureFile
