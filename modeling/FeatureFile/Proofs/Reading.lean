import FeatureFile.Draft
import Mathlib.Data.List.Forall2

set_option autoImplicit false

/-! # What one line does to a draft

`Draft.Moves` lists what a line can do to a draft that accepts it, guards included, and
`Draft.read_eq_ok_iff` says that the list is complete. `Draft.Fails` lists in the same way what can
be wrong with a line, and `Draft.fails_of_read` says that nothing else can. Everything that is proved
about whole files goes through the two and through the equations for `Draft.run`, so that no later
proof opens `Draft.read`.

Two notions keep the list short. A place where the file may end is one where the open group can be
closed, and `Draft.finish` already says with which result; a place in an outline where the next
table may start has an open outline, `Place.outline?`. -/

namespace FeatureFile

/-! ## Results that may be faults -/

section Results

variable {ε α β : Type} {x : Except ε α}

theorem except_bind_eq_ok_iff {f : α → Except ε β} {b : β} :
    x.bind f = .ok b ↔ ∃ a, x = .ok a ∧ f a = .ok b := by
  cases x <;> simp [Except.bind]

theorem except_bind_eq_error_iff {f : α → Except ε β} {e : ε} :
    x.bind f = .error e ↔ x = .error e ∨ ∃ a, x = .ok a ∧ f a = .error e := by
  cases x <;> simp [Except.bind]

theorem except_map_eq_ok_iff {f : α → β} {b : β} :
    x.map f = .ok b ↔ ∃ a, x = .ok a ∧ f a = b := by
  cases x <;> simp [Except.map]

theorem except_map_eq_error_iff {f : α → β} {e : ε} : x.map f = .error e ↔ x = .error e := by
  cases x <;> simp [Except.map]

theorem except_mapError_eq_ok_iff {ε' : Type} {f : ε → ε'} {a : α} :
    x.mapError f = .ok a ↔ x = .ok a := by
  cases x with
  | error e => constructor <;> rintro ⟨⟩
  | ok b => constructor <;> rintro ⟨⟩ <;> rfl

/-- The results of a list, one for one and in order. -/
theorem forall₂_of_mapM {f : α → Except ε β} {xs : List α} {ys : List β}
    (h : xs.mapM f = .ok ys) : List.Forall₂ (fun x y => f x = .ok y) xs ys := by
  induction xs generalizing ys with
  | nil =>
    cases h
    exact .nil
  | cons x xs ih =>
    rw [List.mapM_cons] at h
    obtain ⟨y, hy, h⟩ := except_bind_eq_ok_iff.1 h
    obtain ⟨rest, hrest, h⟩ := except_bind_eq_ok_iff.1 h
    cases h
    exact .cons hy (ih hrest)

end Results

namespace Draft

variable {draft next : Draft} {line : Line} {lines more : List Line} {fault : Fault}

/-! ## Runs -/

/-- The draft after some more lines. -/
def run (draft : Draft) (lines : List Line) : Except Fault Draft := lines.foldlM read draft

@[simp] theorem run_nil (draft : Draft) : draft.run [] = .ok draft := rfl

theorem run_cons (draft : Draft) (line : Line) (lines : List Line) :
    draft.run (line :: lines) = (draft.read line).bind fun next => next.run lines := rfl

theorem run_append (draft : Draft) (lines more : List Line) :
    draft.run (lines ++ more) = (draft.run lines).bind fun next => next.run more :=
  List.foldlM_append

theorem run_singleton (draft : Draft) (line : Line) : draft.run [line] = draft.read line := by
  rw [run_cons]
  cases draft.read line <;> rfl

theorem run_cons_eq_ok_iff :
    draft.run (line :: lines) = .ok next ↔
      ∃ mid, draft.read line = .ok mid ∧ mid.run lines = .ok next := by
  rw [run_cons, except_bind_eq_ok_iff]

theorem run_append_eq_ok_iff :
    draft.run (lines ++ more) = .ok next ↔
      ∃ mid, draft.run lines = .ok mid ∧ mid.run more = .ok next := by
  rw [run_append, except_bind_eq_ok_iff]

/-- A run fails at one line, which is the first that the draft before it does not take. -/
theorem run_eq_error_iff :
    draft.run lines = .error fault ↔
      ∃ before line after mid, lines = before ++ line :: after ∧ draft.run before = .ok mid ∧
        mid.read line = .error fault := by
  constructor
  · intro h
    induction lines generalizing draft with
    | nil => simp at h
    | cons line rest ih =>
      rw [run_cons, except_bind_eq_error_iff] at h
      -- the first line is not taken, or it is and the fault stands further below
      rcases h with h | ⟨mid, hmid, h⟩
      · exact ⟨[], line, rest, draft, rfl, rfl, h⟩
      · obtain ⟨before, bad, after, last, rfl, hrun, hbad⟩ := ih h
        exact ⟨line :: before, bad, after, last, rfl, run_cons_eq_ok_iff.2 ⟨mid, hmid, hrun⟩, hbad⟩
  · rintro ⟨before, line, after, mid, rfl, hrun, h⟩
    rw [run_append, hrun, Except.bind, run_cons, h, Except.bind]

/-- Every line of a file that is read to its end was taken by some draft on the way. -/
theorem exists_read_of_run (h : draft.run lines = .ok next) (hline : line ∈ lines) :
    ∃ before after : Draft, before.read line = .ok after := by
  obtain ⟨before, after, rfl⟩ := List.append_of_mem hline
  obtain ⟨mid, -, h⟩ := run_append_eq_ok_iff.1 h
  obtain ⟨taken, h, -⟩ := run_cons_eq_ok_iff.1 h
  exact ⟨mid, taken, h⟩

/-- What every line preserves, every run preserves; the property may speak of the lines read so
    far. -/
theorem run_induction {P : Draft → List Line → Prop}
    (step : ∀ draft line next lines, draft.read line = .ok next → P draft lines →
      P next (lines ++ [line]))
    (start : P draft lines) (h : draft.run more = .ok next) : P next (lines ++ more) := by
  induction more generalizing draft lines with
  | nil =>
    cases h
    rwa [List.append_nil]
  | cons line rest ih =>
    obtain ⟨mid, hmid, h⟩ := run_cons_eq_ok_iff.1 h
    have := ih (step draft line mid lines hmid start) h
    rwa [List.append_assoc, List.singleton_append] at this

end Draft

theorem Feature.ofLines_eq (lines : List Line) :
    Feature.ofLines lines = (Draft.start.run lines).bind Draft.finish := rfl

theorem Feature.ofLines_eq_ok_iff {lines : List Line} {feature : Feature} :
    Feature.ofLines lines = .ok feature ↔
      ∃ draft, Draft.start.run lines = .ok draft ∧ draft.finish = .ok feature := by
  rw [Feature.ofLines_eq, except_bind_eq_ok_iff]

/-! ## Moves -/

/-- The outline that is open at a place where its next table may start. -/
def Place.outline? : Place → Option Outline
  | .outlineSteps outline => some outline
  | .rows outline block => some (outline.addBlock block)
  | _ => none

theorem checkArity_eq_ok_iff {labels row : Row} {u : Unit} :
    Row.checkArity labels row = .ok u ↔ row.width = labels.width := by
  unfold Row.checkArity
  split <;> simp_all

namespace Draft

variable {draft next : Draft} {line : Line} {feature closed : Feature} {place : Place}
  {keyword : GroupKeyword} {title : String} {tags : TagSet}

/-- Where the next table may start, the file may also end. -/
theorem finish_of_outline {outline : Outline} (inside : place.outline? = some outline) :
    finish (.body feature place) = .ok (feature.addOutline outline) := by
  cases place <;> simp_all [Place.outline?, finish]

/-- A header opens a group below the feature exactly if it is that of a scenario, of an outline, or
    of the first background. -/
theorem openGroup_eq_ok_iff :
    openGroup feature tags line keyword title = .ok next ↔
      (keyword = .background ∧ feature.background = none ∧
        next = .body feature (.steps .background ⟨title, [], tags⟩)) ∨
      (keyword = .scenario ∧ next = .body feature (.steps .scenario ⟨title, [], tags⟩)) ∨
      (keyword = .outline ∧ next = .body feature (.outlineSteps ⟨title, [], [], tags⟩)) := by
  cases keyword <;> simp only [openGroup, faultAt, reduceCtorEq, false_and, true_and, or_false,
    false_or, Except.ok.injEq, eq_comm (a := next)]
  cases feature.background <;> simp

/-- Inside an outline a header opens a table if it is an untitled one, and else closes the outline
    and opens a group below the feature. -/
theorem openInOutline_eq_ok_iff {outline : Outline} :
    openInOutline feature outline tags line keyword title = .ok next ↔
      (keyword = .examples ∧ title = "" ∧ next = .body feature (.labels outline tags line)) ∨
      openGroup (feature.addOutline outline) tags line keyword title = .ok next := by
  cases keyword with
  | examples =>
    by_cases h : title = "" <;> simp [openInOutline, openGroup, faultAt, h, eq_comm]
  | _ => simp [openInOutline]

/-- The moves of a draft: what a line can do to a draft that takes it. -/
inductive Moves : Draft → Line → Draft → Prop where
  | preambleTags {tags : TagSet} {description : List String} {line : Line} {names : List String}
      (shape : line.shape = .tags names) :
      Moves (.preamble tags description) line (.preamble (tags.addLine names) description)
  | preambleText {tags : TagSet} {description : List String} {line : Line}
      (shape : line.shape = .freeText) :
      Moves (.preamble tags description) line (.preamble tags (description ++ [line.text]))
  | feature {tags : TagSet} {description : List String} {line : Line} {title : String}
      (shape : line.shape = .header .feature title) :
      Moves (.preamble tags description) line
        (.body ⟨title, tags, description, none, []⟩ .description)
  | describe {feature : Feature} {line : Line} (shape : line.shape = .freeText) :
      Moves (.body feature .description) line
        (.body { feature with description := feature.description ++ [line.text] } .description)
  | step {feature : Feature} {group : PlainGroup} {scenario : Scenario} {line : Line}
      {keyword : StepKeyword} {content : String} {step : Step}
      (shape : line.shape = .step keyword content)
      (decoded : Step.decode keyword content = .ok step) :
      Moves (.body feature (.steps group scenario)) line
        (.body feature (.steps group { scenario with steps := scenario.steps ++ [step] }))
  | outlineStep {feature : Feature} {outline : Outline} {line : Line} {keyword : StepKeyword}
      {content : String} {step : Step} (shape : line.shape = .step keyword content)
      (decoded : Step.decode keyword content = .ok step) :
      Moves (.body feature (.outlineSteps outline)) line
        (.body feature (.outlineSteps { outline with steps := outline.steps ++ [step] }))
  | labels {feature : Feature} {outline : Outline} {tags : TagSet} {header line : Line}
      {labels : Row} (shape : line.shape = .row) (decoded : Row.decode line.text = .ok labels) :
      Moves (.body feature (.labels outline tags header)) line
        (.body feature (.rows outline ⟨labels, [], tags⟩))
  | row {feature : Feature} {outline : Outline} {block : ExampleBlock} {line : Line} {row : Row}
      (shape : line.shape = .row) (decoded : Row.decode line.text = .ok row)
      (width : row.width = block.labels.width) :
      Moves (.body feature (.rows outline block)) line
        (.body feature (.rows outline { block with rows := block.rows ++ [row] }))
  | tags {feature closed : Feature} {place : Place} {line : Line} {names : List String}
      (closes : finish (.body feature place) = .ok closed) (outside : place.outline? = none)
      (shape : line.shape = .tags names) :
      Moves (.body feature place) line
        (.body closed (.tagged (TagSet.empty.addLine names) line))
  | moreTags {feature : Feature} {pending : TagSet} {last line : Line} {names : List String}
      (shape : line.shape = .tags names) :
      Moves (.body feature (.tagged pending last)) line
        (.body feature (.tagged (pending.addLine names) line))
  | outlineTags {feature : Feature} {place : Place} {outline : Outline} {line : Line}
      {names : List String} (inside : place.outline? = some outline)
      (shape : line.shape = .tags names) :
      Moves (.body feature place) line
        (.body feature (.outlineTagged outline (TagSet.empty.addLine names) line))
  | moreOutlineTags {feature : Feature} {outline : Outline} {pending : TagSet} {last line : Line}
      {names : List String} (shape : line.shape = .tags names) :
      Moves (.body feature (.outlineTagged outline pending last)) line
        (.body feature (.outlineTagged outline (pending.addLine names) line))
  | group {feature closed : Feature} {place : Place} {line : Line} {keyword : GroupKeyword}
      {title : String} {next : Draft} (closes : finish (.body feature place) = .ok closed)
      (shape : line.shape = .header keyword title)
      (opens : openGroup closed .empty line keyword title = .ok next) :
      Moves (.body feature place) line next
  | taggedGroup {feature : Feature} {pending : TagSet} {last line : Line}
      {keyword : GroupKeyword} {title : String} {next : Draft}
      (shape : line.shape = .header keyword title)
      (opens : openGroup feature pending line keyword title = .ok next) :
      Moves (.body feature (.tagged pending last)) line next
  | outlineTaggedGroup {feature : Feature} {outline : Outline} {pending : TagSet}
      {last line : Line} {keyword : GroupKeyword} {title : String} {next : Draft}
      (shape : line.shape = .header keyword title)
      (opens : openGroup (feature.addOutline outline) pending line keyword title = .ok next) :
      Moves (.body feature (.outlineTagged outline pending last)) line next
  | table {feature : Feature} {place : Place} {outline : Outline} {line : Line}
      (inside : place.outline? = some outline) (shape : line.shape = .header .examples "") :
      Moves (.body feature place) line (.body feature (.labels outline .empty line))
  | taggedTable {feature : Feature} {outline : Outline} {pending : TagSet} {last line : Line}
      (shape : line.shape = .header .examples "") :
      Moves (.body feature (.outlineTagged outline pending last)) line
        (.body feature (.labels outline pending line))

theorem moves_of_read_preamble {description : List String}
    (h : (Draft.preamble tags description).read line = .ok next) :
    Moves (.preamble tags description) line next := by
  cases hs : line.shape with
  | tags names =>
    simp only [read, hs, Except.ok.injEq] at h
    exact h ▸ .preambleTags hs
  | freeText =>
    simp only [read, hs, Except.ok.injEq] at h
    exact h ▸ .preambleText hs
  | header keyword title =>
    cases keyword <;> simp only [read, hs, faultAt, reduceCtorEq, Except.ok.injEq] at h
    exact h ▸ .feature hs
  | _ => simp [read, hs, faultAt] at h

/-- The decoder of a line that was taken has a result. -/
theorem decodedAt_eq_ok_iff {α : Type} {scopes : List Scope} {result : Except Cause α}
    {value : α} : decodedAt line scopes result = .ok value ↔ result = .ok value := by
  cases result <;> simp [decodedAt, faultAt]

theorem moves_of_readBody (h : readBody feature place line = .ok next) :
    Moves (.body feature place) line next := by
  -- place and shape decide what happens; a pair without a move is a fault, which `h` excludes
  cases place with
  | description =>
    cases hs : line.shape with
    | freeText =>
      simp only [readBody, hs, Except.ok.injEq] at h
      exact h ▸ .describe hs
    | tags names =>
      simp only [readBody, hs, Except.ok.injEq] at h
      exact h ▸ .tags rfl rfl hs
    | header keyword title =>
      simp only [readBody, hs] at h
      exact .group rfl hs h
    | _ => simp [readBody, hs, faultAt] at h
  | tagged pending last =>
    cases hs : line.shape with
    | tags names =>
      simp only [readBody, hs, Except.ok.injEq] at h
      exact h ▸ .moreTags hs
    | header keyword title =>
      simp only [readBody, hs] at h
      exact .taggedGroup hs h
    | _ => simp [readBody, hs, faultAt] at h
  | steps group scenario =>
    cases hs : line.shape with
    | step keyword content =>
      simp only [readBody, hs, except_map_eq_ok_iff, decodedAt_eq_ok_iff] at h
      obtain ⟨step, hd, rfl⟩ := h
      exact .step hs hd
    | tags names =>
      simp only [readBody, hs, Except.ok.injEq] at h
      exact h ▸ .tags rfl rfl hs
    | header keyword title =>
      simp only [readBody, hs] at h
      exact .group rfl hs h
    | _ => simp [readBody, hs, faultAt] at h
  | outlineSteps outline =>
    cases hs : line.shape with
    | step keyword content =>
      simp only [readBody, hs, except_map_eq_ok_iff, decodedAt_eq_ok_iff] at h
      obtain ⟨step, hd, rfl⟩ := h
      exact .outlineStep hs hd
    | tags names =>
      simp only [readBody, hs, Except.ok.injEq] at h
      exact h ▸ .outlineTags rfl hs
    | header keyword title =>
      simp only [readBody, hs, openInOutline_eq_ok_iff] at h
      rcases h with ⟨rfl, rfl, rfl⟩ | h
      · exact .table rfl hs
      · exact .group rfl hs h
    | _ => simp [readBody, hs, faultAt] at h
  | outlineTagged outline pending last =>
    cases hs : line.shape with
    | tags names =>
      simp only [readBody, hs, Except.ok.injEq] at h
      exact h ▸ .moreOutlineTags hs
    | header keyword title =>
      simp only [readBody, hs, openInOutline_eq_ok_iff] at h
      rcases h with ⟨rfl, rfl, rfl⟩ | h
      · exact .taggedTable hs
      · exact .outlineTaggedGroup hs h
    | _ => simp [readBody, hs, faultAt] at h
  | labels outline tags header =>
    cases hs : line.shape with
    | row =>
      simp only [readBody, hs, except_map_eq_ok_iff, decodedAt_eq_ok_iff] at h
      obtain ⟨labels, hd, rfl⟩ := h
      exact .labels hs hd
    | _ => simp [readBody, hs, faultAt] at h
  | rows outline block =>
    cases hs : line.shape with
    | row =>
      simp only [readBody, hs, decodedAt_eq_ok_iff] at h
      obtain ⟨row, hd, h⟩ := except_bind_eq_ok_iff.1 h
      obtain ⟨_, hw, h⟩ := except_bind_eq_ok_iff.1 h
      cases h
      exact .row hs hd (checkArity_eq_ok_iff.1 hw)
    | tags names =>
      simp only [readBody, hs, Except.ok.injEq] at h
      exact h ▸ .outlineTags rfl hs
    | header keyword title =>
      simp only [readBody, hs, openInOutline_eq_ok_iff] at h
      rcases h with ⟨rfl, rfl, rfl⟩ | h
      · exact .table rfl hs
      · exact .group rfl hs h
    | _ => simp [readBody, hs, faultAt] at h

/-- A draft takes a line exactly if the line is one of its moves, and then does what the move
    says. -/
theorem read_eq_ok_iff : draft.read line = .ok next ↔ Moves draft line next := by
  constructor
  · intro h
    cases draft with
    | preamble tags description => exact moves_of_read_preamble h
    | body feature place => exact moves_of_readBody h
  · intro h
    cases h with
    | preambleTags shape => simp [read, shape]
    | preambleText shape => simp [read, shape]
    | feature shape => simp [read, shape]
    | describe shape => simp [read, readBody, shape]
    | step shape decoded => simp [read, readBody, shape, decoded, decodedAt, Except.map]
    | outlineStep shape decoded => simp [read, readBody, shape, decoded, decodedAt, Except.map]
    | labels shape decoded => simp [read, readBody, shape, decoded, decodedAt, Except.map]
    | row shape decoded width =>
      simp [read, readBody, shape, decoded, width, Row.checkArity, decodedAt, bind, Except.bind,
        pure, Except.pure]
    | @tags feature closed place line names closes outside shape =>
      -- `closes` and `outside` leave the description and the steps of a plain group
      cases place <;> simp_all [read, readBody, finish, faultAt, Place.outline?]
    | moreTags shape => simp [read, readBody, shape]
    | @outlineTags feature place outline line names inside shape =>
      cases place <;> simp_all [read, readBody, Place.outline?]
    | moreOutlineTags shape => simp [read, readBody, shape]
    | @group feature closed place line keyword title next closes shape opens =>
      cases place <;> simp_all [read, readBody, finish, faultAt, openInOutline_eq_ok_iff]
    | taggedGroup shape opens => simp [read, readBody, shape, opens]
    | outlineTaggedGroup shape opens =>
      simp [read, readBody, shape, openInOutline_eq_ok_iff, opens]
    | @table feature place outline line inside shape =>
      cases place <;> simp_all [read, readBody, Place.outline?, openInOutline]
    | taggedTable shape => simp [read, readBody, shape, openInOutline]

end Draft

/-! ## Faults -/

/-- What is wrong with a line whose shape has no use at a place; nothing if it has one. -/
def Place.refusal? : Place → Shape → Option (String → Cause)
  | .description, .step _ _ | .description, .row => some .expectedGroup
  | .tagged _ _, .step _ _ | .tagged _ _, .row | .tagged _ _, .freeText
  | .outlineTagged _ _ _, .step _ _ | .outlineTagged _ _ _, .row
  | .outlineTagged _ _ _, .freeText => some .tagsBeforeNonHeader
  | .steps _ _, .row | .steps _ _, .freeText
  | .outlineSteps _, .row | .outlineSteps _, .freeText => some .expectedStep
  | .rows _ _, .step _ _ | .rows _ _, .freeText => some .expectedRow
  | .labels _ _ _, .row => none
  | .labels _ _ _, _ => some fun text => .expectedLabels (some text)
  | _, _ => none

namespace Draft

variable {draft : Draft} {line : Line} {feature : Feature} {place : Place} {fault : Fault}
  {keyword : GroupKeyword} {title : String} {tags : TagSet}

/-- A header opens no group below the feature exactly if it is that of a second background, of
    another feature, or of a table. -/
theorem openGroup_eq_error_iff :
    openGroup feature tags line keyword title = .error fault ↔
      (∃ first, keyword = .background ∧ feature.background = some first ∧
        fault = ⟨.duplicateBackground title first.name line.text, some line.number,
          [feature.scope]⟩) ∨
      ((keyword = .feature ∨ keyword = .examples) ∧
        fault = ⟨.misplacedGroup keyword line.text, some line.number, [feature.scope]⟩) := by
  cases keyword <;> simp only [openGroup, faultAt, reduceCtorEq, false_and, true_and, or_false,
    false_or, or_true, exists_false, Except.error.injEq, eq_comm (a := fault)]
  cases feature.background <;> simp

/-- Inside an outline, a header fails if it is that of a titled table, and else as below the
    feature. -/
theorem openInOutline_eq_error_iff {outline : Outline} :
    openInOutline feature outline tags line keyword title = .error fault ↔
      (keyword = .examples ∧ title ≠ "" ∧
        fault = ⟨.titledExamples line.text, some line.number,
          [feature.scope, .outline outline.name, outline.nextBlock]⟩) ∨
      (keyword ≠ .examples ∧
        openGroup (feature.addOutline outline) tags line keyword title = .error fault) := by
  cases keyword with
  | examples => by_cases h : title = "" <;> simp [openInOutline, faultAt, h, eq_comm]
  | _ => simp [openInOutline]

/-- A row is not taken if it cannot be read, or if it does not fit the labels. -/
theorem row_eq_error_iff {labels : Row} {text : String} {cause : Cause} {f : Row → Draft} :
    (do
      let row ← Row.decode text
      Row.checkArity labels row
      return f row) = Except.error cause ↔
      Row.decode text = .error cause ∨
        ∃ row, Row.decode text = .ok row ∧ row.width ≠ labels.width ∧ cause = .arity labels row := by
  cases Row.decode text with
  | error other => simp [bind, Except.bind]
  | ok row =>
    by_cases h : row.width = labels.width <;>
      simp [bind, Except.bind, pure, Except.pure, Row.checkArity, h, eq_comm (a := cause)]

theorem decodedAt_eq_error_iff {α : Type} {scopes : List Scope} {result : Except Cause α} :
    decodedAt line scopes result = .error fault ↔
      ∃ cause, result = .error cause ∧ fault = ⟨cause, some line.number, scopes⟩ := by
  cases result <;> simp [decodedAt, faultAt, eq_comm]

/-- The faults of a draft: what is wrong with a line that it does not take. -/
inductive Fails : Draft → Line → Fault → Prop where
  | preamble {tags : TagSet} {description : List String} {line : Line}
      (notTags : ∀ names, line.shape ≠ .tags names) (notText : line.shape ≠ .freeText)
      (notFeature : ∀ title, line.shape ≠ .header .feature title) :
      Fails (.preamble tags description) line
        ⟨.expectedFeature (some line.text), some line.number, []⟩
  | refused {feature : Feature} {place : Place} {line : Line} {cause : String → Cause}
      (refusal : place.refusal? line.shape = some cause) :
      Fails (.body feature place) line ⟨cause line.text, some line.number, place.scopes feature⟩
  | step {feature : Feature} {group : PlainGroup} {scenario : Scenario} {line : Line}
      {keyword : StepKeyword} {content : String} {cause : Cause}
      (shape : line.shape = .step keyword content)
      (decoded : Step.decode keyword content = .error cause) :
      Fails (.body feature (.steps group scenario)) line
        ⟨cause, some line.number, [feature.scope, group.scope scenario.name]⟩
  | outlineStep {feature : Feature} {outline : Outline} {line : Line} {keyword : StepKeyword}
      {content : String} {cause : Cause} (shape : line.shape = .step keyword content)
      (decoded : Step.decode keyword content = .error cause) :
      Fails (.body feature (.outlineSteps outline)) line
        ⟨cause, some line.number, [feature.scope, .outline outline.name]⟩
  | labels {feature : Feature} {outline : Outline} {tags : TagSet} {header line : Line}
      {cause : Cause} (shape : line.shape = .row)
      (decoded : Row.decode line.text = .error cause) :
      Fails (.body feature (.labels outline tags header)) line
        ⟨cause, some line.number, [feature.scope, .outline outline.name, outline.nextBlock]⟩
  | row {feature : Feature} {outline : Outline} {block : ExampleBlock} {line : Line}
      {cause : Cause} (shape : line.shape = .row)
      (decoded : Row.decode line.text = .error cause) :
      Fails (.body feature (.rows outline block)) line
        ⟨cause, some line.number, [feature.scope, .outline outline.name, outline.nextBlock]⟩
  | width {feature : Feature} {outline : Outline} {block : ExampleBlock} {line : Line}
      {row : Row} (shape : line.shape = .row) (decoded : Row.decode line.text = .ok row)
      (width : row.width ≠ block.labels.width) :
      Fails (.body feature (.rows outline block)) line
        ⟨.arity block.labels row, some line.number,
          [feature.scope, .outline outline.name, outline.nextBlock]⟩
  | group {feature closed : Feature} {place : Place} {line : Line} {keyword : GroupKeyword}
      {title : String} {fault : Fault} (closes : finish (.body feature place) = .ok closed)
      (shape : line.shape = .header keyword title)
      (outside : place.outline? = none ∨ keyword ≠ .examples)
      (fails : openGroup closed .empty line keyword title = .error fault) :
      Fails (.body feature place) line fault
  | taggedGroup {feature : Feature} {pending : TagSet} {last line : Line}
      {keyword : GroupKeyword} {title : String} {fault : Fault}
      (shape : line.shape = .header keyword title)
      (fails : openGroup feature pending line keyword title = .error fault) :
      Fails (.body feature (.tagged pending last)) line fault
  | outlineTaggedGroup {feature : Feature} {outline : Outline} {pending : TagSet}
      {last line : Line} {keyword : GroupKeyword} {title : String} {fault : Fault}
      (shape : line.shape = .header keyword title) (outside : keyword ≠ .examples)
      (fails : openGroup (feature.addOutline outline) pending line keyword title = .error fault) :
      Fails (.body feature (.outlineTagged outline pending last)) line fault
  | titled {feature : Feature} {place : Place} {outline : Outline} {line : Line} {title : String}
      (inside : place.outline? = some outline) (shape : line.shape = .header .examples title)
      (titled : title ≠ "") :
      Fails (.body feature place) line
        ⟨.titledExamples line.text, some line.number,
          [feature.scope, .outline outline.name, outline.nextBlock]⟩
  | taggedTitled {feature : Feature} {outline : Outline} {pending : TagSet} {last line : Line}
      {title : String} (shape : line.shape = .header .examples title) (titled : title ≠ "") :
      Fails (.body feature (.outlineTagged outline pending last)) line
        ⟨.titledExamples line.text, some line.number,
          [feature.scope, .outline outline.name, outline.nextBlock]⟩

/-- Where the place has no use for a line, that is the fault. -/
theorem fails_of_refusal {cause : String → Cause} (refusal : place.refusal? line.shape = some cause)
    (h : faultAt line (place.scopes feature) (cause line.text) = Except.error (α := Draft) fault) :
    Fails (.body feature place) line fault := by
  cases h
  exact .refused refusal

theorem fails_of_readBody (h : readBody feature place line = .error fault) :
    Fails (.body feature place) line fault := by
  cases place with
  | description =>
    cases hs : line.shape with
    | freeText | tags names => simp [readBody, hs] at h
    | header keyword title =>
      simp only [readBody, hs] at h
      exact .group rfl hs (.inl rfl) h
    | _ =>
      simp only [readBody, hs] at h
      exact fails_of_refusal (by rw [hs]; rfl) h
  | tagged pending last =>
    cases hs : line.shape with
    | tags names => simp [readBody, hs] at h
    | header keyword title =>
      simp only [readBody, hs] at h
      exact .taggedGroup hs h
    | _ =>
      simp only [readBody, hs] at h
      exact fails_of_refusal (by rw [hs]; rfl) h
  | steps group scenario =>
    cases hs : line.shape with
    | step keyword content =>
      simp only [readBody, hs, except_map_eq_error_iff, decodedAt_eq_error_iff] at h
      obtain ⟨cause, hd, rfl⟩ := h
      exact .step hs hd
    | tags names => simp [readBody, hs] at h
    | header keyword title =>
      simp only [readBody, hs] at h
      exact .group rfl hs (.inl rfl) h
    | _ =>
      simp only [readBody, hs] at h
      exact fails_of_refusal (by rw [hs]; rfl) h
  | outlineSteps outline =>
    cases hs : line.shape with
    | step keyword content =>
      simp only [readBody, hs, except_map_eq_error_iff, decodedAt_eq_error_iff] at h
      obtain ⟨cause, hd, rfl⟩ := h
      exact .outlineStep hs hd
    | tags names => simp [readBody, hs] at h
    | header keyword title =>
      simp only [readBody, hs, openInOutline_eq_error_iff] at h
      rcases h with ⟨rfl, htitle, rfl⟩ | ⟨hother, h⟩
      · exact .titled rfl hs htitle
      · exact .group rfl hs (.inr hother) h
    | _ =>
      simp only [readBody, hs] at h
      exact fails_of_refusal (by rw [hs]; rfl) h
  | outlineTagged outline pending last =>
    cases hs : line.shape with
    | tags names => simp [readBody, hs] at h
    | header keyword title =>
      simp only [readBody, hs, openInOutline_eq_error_iff] at h
      rcases h with ⟨rfl, htitle, rfl⟩ | ⟨hother, h⟩
      · exact .taggedTitled hs htitle
      · exact .outlineTaggedGroup hs hother h
    | _ =>
      simp only [readBody, hs] at h
      exact fails_of_refusal (by rw [hs]; rfl) h
  | labels outline tags header =>
    cases hs : line.shape with
    | row =>
      simp only [readBody, hs, except_map_eq_error_iff, decodedAt_eq_error_iff] at h
      obtain ⟨cause, hd, rfl⟩ := h
      exact .labels hs hd
    | _ =>
      simp only [readBody, hs] at h
      exact fails_of_refusal (by rw [hs]; rfl) h
  | rows outline block =>
    cases hs : line.shape with
    | row =>
      simp only [readBody, hs, decodedAt_eq_error_iff, row_eq_error_iff] at h
      obtain ⟨cause, hd | ⟨row, hd, hwidth, rfl⟩, rfl⟩ := h
      · exact .row hs hd
      · exact .width hs hd hwidth
    | tags names => simp [readBody, hs] at h
    | header keyword title =>
      simp only [readBody, hs, openInOutline_eq_error_iff] at h
      rcases h with ⟨rfl, htitle, rfl⟩ | ⟨hother, h⟩
      · exact .titled rfl hs htitle
      · exact .group rfl hs (.inr hother) h
    | _ =>
      simp only [readBody, hs] at h
      exact fails_of_refusal (by rw [hs]; rfl) h

/-- A draft does not take a line only for one of its faults. -/
theorem fails_of_read (h : draft.read line = .error fault) : Fails draft line fault := by
  cases draft with
  | preamble tags description =>
    cases hs : line.shape with
    | tags names | freeText => simp [read, hs] at h
    | header keyword title =>
      cases keyword <;> simp only [read, hs, reduceCtorEq, faultAt, Except.error.injEq] at h <;>
        exact h ▸ .preamble (by simp [hs]) (by simp [hs]) (by simp [hs])
    | _ =>
      simp only [read, hs, faultAt, Except.error.injEq] at h
      exact h ▸ .preamble (by simp [hs]) (by simp [hs]) (by simp [hs])
  | body feature place => exact fails_of_readBody h

end Draft

end FeatureFile
