import FeatureFile.Proofs.Reading
import Mathlib.Data.List.Forall2

set_option autoImplicit false

/-! # The layout of a feature file

A `Layout` is a feature file cut into the lines of its groups: what stands above the feature
header, the description, and for every group the tag lines above its header, the header, the steps
and, in an outline, the tables. Cutting loses nothing, since `Layout.lines` puts the lines together
again in their order.

`Layout.Holds` says that a layout says what a feature says, group by group and line by line. The
main result is `exists_layout_of_ofLines`: a file that is read has a layout that holds its feature.
Its proof keeps, line by line, a layout of the lines read so far (`Draft.Holds`). -/

namespace FeatureFile

/-! ## Kinds of lines -/

/-- What a line is, without what it says. -/
inductive LineKind where
  | tags
  | step
  | row
  | freeText
  | header (keyword : GroupKeyword)
deriving DecidableEq, Repr

/-- The kind of a line of the given shape. -/
def Shape.kind : Shape → LineKind
  | .tags _ => .tags
  | .step _ _ => .step
  | .row => .row
  | .freeText => .freeText
  | .header keyword _ => .header keyword

/-- A step that is read keeps the keyword of its line. -/
theorem keyword_of_decode {keyword : StepKeyword} {content : String} {step : Step}
    (h : Step.decode keyword content = .ok step) : step.keyword = keyword := by
  unfold Step.decode at h
  split at h
  · simp at h
  · cases h
    rfl

namespace Line

/-- The kind of a line. -/
def kind (line : Line) : LineKind := line.shape.kind

theorem kind_of_shape {line : Line} {shape : Shape} (h : line.shape = shape) :
    line.kind = shape.kind := by
  rw [kind, h]

theorem kind_eq_tags_iff {line : Line} :
    line.kind = .tags ↔ ∃ names, line.shape = .tags names := by
  cases h : line.shape <;> simp [kind, Shape.kind, h]

theorem kind_eq_step_iff {line : Line} :
    line.kind = .step ↔ ∃ keyword content, line.shape = .step keyword content := by
  cases h : line.shape <;> simp [kind, Shape.kind, h]

theorem kind_eq_row_iff {line : Line} : line.kind = .row ↔ line.shape = .row := by
  cases h : line.shape <;> simp [kind, Shape.kind, h]

theorem kind_eq_freeText_iff {line : Line} : line.kind = .freeText ↔ line.shape = .freeText := by
  cases h : line.shape <;> simp [kind, Shape.kind, h]

theorem kind_eq_header_iff {line : Line} {keyword : GroupKeyword} :
    line.kind = .header keyword ↔ ∃ title, line.shape = .header keyword title := by
  cases h : line.shape <;> simp [kind, Shape.kind, h]

/-- The names on a line of tags; a line of another kind has none. -/
def tagNames (line : Line) : List String :=
  match line.shape with
  | .tags names => names
  | _ => []

/-- A line is a step line that reads as a step. -/
def HoldsStep (line : Line) (step : Step) : Prop :=
  ∃ content, line.shape = .step step.keyword content ∧ Step.decode step.keyword content = .ok step

/-- A line is a table row that reads as a row of cells. -/
def HoldsRow (line : Line) (row : Row) : Prop :=
  line.shape = .row ∧ Row.decode line.text = .ok row

theorem holdsStep_of_decode {line : Line} {keyword : StepKeyword} {content : String} {step : Step}
    (shape : line.shape = .step keyword content)
    (decoded : Step.decode keyword content = .ok step) : line.HoldsStep step := by
  have hkeyword : step.keyword = keyword := keyword_of_decode decoded
  rw [HoldsStep, hkeyword]
  exact ⟨content, shape, decoded⟩

theorem HoldsStep.kind {line : Line} {step : Step} (h : line.HoldsStep step) :
    line.kind = .step := by
  obtain ⟨content, shape, -⟩ := h
  exact kind_of_shape shape

theorem HoldsRow.kind {line : Line} {row : Row} (h : line.HoldsRow row) : line.kind = .row :=
  kind_of_shape h.1

end Line

/-- The texts of the free text lines among some lines. -/
def freeTexts (lines : List Line) : List String :=
  (lines.filter fun line => line.kind = .freeText).map (·.text)

namespace TagSet

/-- The tags on some lines: the names that are not empty, each at its first position. -/
def ofLines (lines : List Line) : TagSet :=
  .ofList ((lines.flatMap Line.tagNames).filter fun name => name ≠ "")

theorem ofLines_append_tags {lines : List Line} {line : Line} {names : List String}
    (h : line.shape = .tags names) : ofLines (lines ++ [line]) = (ofLines lines).addLine names := by
  have hnames : line.tagNames = names := by simp [Line.tagNames, h]
  simp only [ofLines, ofList, addLine, insertAll, List.flatMap_append, List.flatMap_singleton,
    hnames, List.filter_append, List.foldl_append]

theorem ofLines_append_text {lines : List Line} {line : Line} (h : line.shape = .freeText) :
    ofLines (lines ++ [line]) = ofLines lines := by
  simp [ofLines, Line.tagNames, h]

end TagSet

/-! ## Layouts -/

/-- A table as it stands in the file; the label row is the first of its rows. -/
structure TableLines where
  above : List Line
  header : Line
  rows : List Line

/-- A background, scenario or outline as it stands in the file. -/
structure GroupLines where
  above : List Line
  header : Line
  steps : List Line
  tables : List TableLines

/-- A feature file cut into its groups. -/
structure Layout where
  preamble : List Line
  header : Line
  description : List Line
  groups : List GroupLines

/-- The lines of a table. -/
def TableLines.lines (table : TableLines) : List Line := table.above ++ table.header :: table.rows

/-- The lines of a group. -/
def GroupLines.lines (group : GroupLines) : List Line :=
  group.above ++ group.header :: (group.steps ++ group.tables.flatMap TableLines.lines)

/-- The lines of a whole file. -/
def Layout.lines (layout : Layout) : List Line :=
  layout.preamble ++ layout.header ::
    (layout.description ++ layout.groups.flatMap GroupLines.lines)

/-! ## What a layout says -/

/-- A group below the feature: its background, or an item. -/
inductive Member where
  | background (scenario : Scenario)
  | item (item : Item)

namespace Member

/-- What the header of the group opens. -/
def keyword : Member → GroupKeyword
  | background _ => .background
  | item (.scenario _) => .scenario
  | item (.outline _) => .outline

/-- The title of the group. -/
def title : Member → String
  | background scenario | item (.scenario scenario) => scenario.name
  | item (.outline outline) => outline.name

/-- The tags of the group. -/
def tags : Member → TagSet
  | background scenario | item (.scenario scenario) => scenario.tags
  | item (.outline outline) => outline.tags

/-- The steps of the group. -/
def steps : Member → List Step
  | background scenario | item (.scenario scenario) => scenario.steps
  | item (.outline outline) => outline.steps

/-- The tables of the group; only an outline has some. -/
def blocks : Member → List ExampleBlock
  | background _ | item (.scenario _) => []
  | item (.outline outline) => outline.blocks

/-- The group as a background. -/
def background? : Member → Option Scenario
  | background scenario => some scenario
  | item _ => none

/-- The group as an item. -/
def item? : Member → Option Item
  | background _ => none
  | item member => some member

end Member

/-- What the header of a background or scenario opens. -/
def PlainGroup.keyword : PlainGroup → GroupKeyword
  | background => .background
  | scenario => .scenario

/-- A closed background or scenario. -/
def PlainGroup.member : PlainGroup → Scenario → Member
  | background, s => .background s
  | scenario, s => .item (.scenario s)

/-- The lines of a table say what the table says. -/
structure TableLines.Holds (table : TableLines) (block : ExampleBlock) : Prop where
  above : ∀ line ∈ table.above, line.kind = .tags
  tags : block.tags = .ofLines table.above
  header : table.header.shape = .header .examples ""
  rows : List.Forall₂ Line.HoldsRow table.rows (block.labels :: block.rows)

/-- The lines of a group say what the group says. -/
structure GroupLines.Holds (group : GroupLines) (member : Member) : Prop where
  above : ∀ line ∈ group.above, line.kind = .tags
  tags : member.tags = .ofLines group.above
  header : group.header.shape = .header member.keyword member.title
  steps : List.Forall₂ Line.HoldsStep group.steps member.steps
  tables : List.Forall₂ TableLines.Holds group.tables member.blocks

/-- The lines of a file say what the feature says. -/
structure Layout.Holds (layout : Layout) (feature : Feature) : Prop where
  preamble : ∀ line ∈ layout.preamble, line.kind = .tags ∨ line.kind = .freeText
  tags : feature.tags = .ofLines layout.preamble
  header : layout.header.shape = .header .feature feature.name
  description : ∀ line ∈ layout.description, line.kind = .freeText
  texts : feature.description = freeTexts (layout.preamble ++ layout.description)
  groups : ∃ members, List.Forall₂ GroupLines.Holds layout.groups members ∧
    members.filterMap Member.background? = feature.background.toList ∧
    members.filterMap Member.item? = feature.items

theorem exists_of_forall₂_left {α β : Type} {R : α → β → Prop} {xs : List α} {ys : List β} {x : α}
    (h : List.Forall₂ R xs ys) (hx : x ∈ xs) : ∃ y ∈ ys, R x y := by
  induction h with
  | nil => simp at hx
  | @cons a b as bs hab _ ih =>
    rcases List.mem_cons.1 hx with rfl | hx
    · exact ⟨b, by simp, hab⟩
    · obtain ⟨y, hy, hxy⟩ := ih hx
      exact ⟨y, List.mem_cons_of_mem _ hy, hxy⟩

/-! ## Kinds of the lines of a layout -/

namespace TableLines

variable {table : TableLines} {block : ExampleBlock}

theorem Holds.kind_header (h : table.Holds block) : table.header.kind = .header .examples :=
  Line.kind_of_shape h.header

theorem Holds.kind_rows (h : table.Holds block) : ∀ line ∈ table.rows, line.kind = .row := by
  intro line hline
  obtain ⟨row, -, hrow⟩ := exists_of_forall₂_left h.rows hline
  exact hrow.kind

theorem Holds.kind_ne_tags (h : table.Holds block) :
    ∀ line ∈ table.header :: table.rows, line.kind ≠ .tags := by
  intro line hline
  rcases List.mem_cons.1 hline with rfl | hline
  · simp [h.kind_header]
  · simp [h.kind_rows line hline]

end TableLines

/-- In the tables of a group there are tags, rows and headers of tables. -/
theorem kind_tables {tables : List TableLines} {blocks : List ExampleBlock}
    (h : List.Forall₂ TableLines.Holds tables blocks) {line : Line}
    (hline : line ∈ tables.flatMap TableLines.lines) :
    line.kind = .tags ∨ line.kind = .row ∨ line.kind = .header .examples := by
  obtain ⟨table, htable, hline⟩ := List.mem_flatMap.1 hline
  obtain ⟨block, -, hblock⟩ := exists_of_forall₂_left h htable
  rcases List.mem_append.1 hline with hline | hline
  · exact .inl (hblock.above line hline)
  · rcases List.mem_cons.1 hline with rfl | hline
    · exact .inr (.inr hblock.kind_header)
    · exact .inr (.inl (hblock.kind_rows line hline))

namespace GroupLines

variable {group : GroupLines} {member : Member}

theorem Holds.kind_header (h : group.Holds member) :
    group.header.kind = .header member.keyword :=
  Line.kind_of_shape h.header

theorem Holds.kind_steps (h : group.Holds member) :
    ∀ line ∈ group.steps, line.kind = .step := by
  intro line hline
  obtain ⟨step, -, hstep⟩ := exists_of_forall₂_left h.steps hline
  exact hstep.kind

theorem Holds.kind_ne_tags (h : group.Holds member) :
    ∀ line ∈ group.header :: group.steps, line.kind ≠ .tags := by
  intro line hline
  rcases List.mem_cons.1 hline with rfl | hline
  · simp [h.kind_header]
  · simp [h.kind_steps line hline]

end GroupLines

theorem Layout.Holds.kind_header {layout : Layout} {feature : Feature}
    (h : layout.Holds feature) : layout.header.kind = .header .feature :=
  Line.kind_of_shape h.header

theorem Layout.Holds.kind_ne_tags {layout : Layout} {feature : Feature}
    (h : layout.Holds feature) :
    ∀ line ∈ layout.header :: layout.description, line.kind ≠ .tags := by
  intro line hline
  rcases List.mem_cons.1 hline with rfl | hline
  · simp [h.kind_header]
  · simp [h.description line hline]

/-! ## Growing a layout

A file grows at its end. What is appended to the lines of an open group, or to the groups of a
file, is appended to what they say. -/

theorem forall₂_append_singleton {α β : Type} {R : α → β → Prop} {xs : List α} {ys : List β}
    {x : α} {y : β} (h : List.Forall₂ R xs ys) (hxy : R x y) :
    List.Forall₂ R (xs ++ [x]) (ys ++ [y]) :=
  List.rel_append h (.cons hxy .nil)

/-- The layout with one more group. -/
def Layout.addGroup (layout : Layout) (group : GroupLines) : Layout :=
  { layout with groups := layout.groups ++ [group] }

theorem Layout.lines_addGroup (layout : Layout) (group : GroupLines) :
    (layout.addGroup group).lines = layout.lines ++ group.lines := by
  simp [Layout.lines, Layout.addGroup]

/-- A closed group is a group of the file; a background only if it is the first. -/
theorem Layout.Holds.addGroup {layout : Layout} {feature closed : Feature} {group : GroupLines}
    {member : Member} (h : layout.Holds feature) (hgroup : group.Holds member)
    (header : (closed.name, closed.tags, closed.description) =
      (feature.name, feature.tags, feature.description))
    (background : closed.background.toList = feature.background.toList ++ member.background?.toList)
    (items : closed.items = feature.items ++ member.item?.toList) :
    (layout.addGroup group).Holds closed := by
  simp only [Prod.mk.injEq] at header
  obtain ⟨hname, htags, htexts⟩ := header
  obtain ⟨members, hmembers, hback, hitems⟩ := h.groups
  refine ⟨h.preamble, htags ▸ h.tags, hname ▸ h.header, h.description, htexts ▸ h.texts,
    members ++ [member], forall₂_append_singleton hmembers hgroup, ?_, ?_⟩
  · rw [List.filterMap_append, hback, background]
    cases member <;> rfl
  · rw [List.filterMap_append, hitems, items]
    cases member <;> rfl

/-- A closed outline is an item of the file. -/
theorem Layout.Holds.addOutline {layout : Layout} {feature : Feature} {group : GroupLines}
    {outline : Outline} (h : layout.Holds feature)
    (hgroup : group.Holds (.item (.outline outline))) :
    (layout.addGroup group).Holds (feature.addOutline outline) :=
  h.addGroup hgroup rfl (List.append_nil _).symm rfl

namespace GroupLines

variable {group : GroupLines}

/-- The group with one more step. -/
def addStep (group : GroupLines) (line : Line) : GroupLines :=
  { group with steps := group.steps ++ [line] }

/-- The group with one more table. -/
def addTable (group : GroupLines) (table : TableLines) : GroupLines :=
  { group with tables := group.tables ++ [table] }

theorem lines_addStep (h : group.tables = []) (line : Line) :
    (group.addStep line).lines = group.lines ++ [line] := by
  simp [lines, addStep, h]

theorem lines_addTable (group : GroupLines) (table : TableLines) :
    (group.addTable table).lines = group.lines ++ table.lines := by
  simp [lines, addTable]

/-- A header without steps yet. -/
def opening (above : List Line) (header : Line) : GroupLines := ⟨above, header, [], []⟩

theorem lines_opening (above : List Line) (header : Line) :
    (opening above header).lines = above ++ [header] := by
  simp [lines, opening]

/-- A background or scenario has no tables. -/
theorem Holds.tables_eq_nil {plain : PlainGroup} {scenario : Scenario}
    (h : group.Holds (plain.member scenario)) : group.tables = [] := by
  have := h.tables
  cases plain <;> exact List.forall₂_nil_right_iff.1 this

theorem Holds.addStep {plain : PlainGroup} {scenario : Scenario} {line : Line} {step : Step}
    (h : group.Holds (plain.member scenario)) (hstep : line.HoldsStep step) :
    (group.addStep line).Holds
      (plain.member { scenario with steps := scenario.steps ++ [step] }) := by
  cases plain <;>
    exact ⟨h.above, h.tags, h.header, forall₂_append_singleton h.steps hstep, h.tables⟩

theorem Holds.addOutlineStep {outline : Outline} {line : Line} {step : Step}
    (h : group.Holds (.item (.outline outline))) (hstep : line.HoldsStep step) :
    (group.addStep line).Holds
      (.item (.outline { outline with steps := outline.steps ++ [step] })) :=
  ⟨h.above, h.tags, h.header, forall₂_append_singleton h.steps hstep, h.tables⟩

theorem Holds.addTable {outline : Outline} {table : TableLines} {block : ExampleBlock}
    (h : group.Holds (.item (.outline outline))) (htable : table.Holds block) :
    (group.addTable table).Holds (.item (.outline (outline.addBlock block))) :=
  ⟨h.above, h.tags, h.header, h.steps, forall₂_append_singleton h.tables htable⟩

end GroupLines

/-! ## The layout of the lines read so far -/

/-- Tag lines in a row, and the tags on them. -/
def IsTagRun (above : List Line) (tags : TagSet) : Prop :=
  (∀ line ∈ above, line.kind = .tags) ∧ tags = .ofLines above

theorem isTagRun_nil : IsTagRun [] .empty := ⟨by simp, rfl⟩

theorem IsTagRun.append {above : List Line} {tags : TagSet} {line : Line} {names : List String}
    (h : IsTagRun above tags) (shape : line.shape = .tags names) :
    IsTagRun (above ++ [line]) (tags.addLine names) := by
  refine ⟨?_, ?_⟩
  · intro other hother
    rcases List.mem_append.1 hother with hother | hother
    · exact h.1 other hother
    · rw [List.mem_singleton.1 hother]
      simp [Line.kind, Shape.kind, shape]
  · rw [TagSet.ofLines_append_tags shape, ← h.2]

/-- The lines read so far are those of the closed groups, laid out in `layout`, and below them
    those that the place has taken. -/
def Place.Holds (feature : Feature) (layout : Layout) : Place → List Line → Prop
  | .description, lines => layout.groups = [] ∧ lines = layout.lines
  | .tagged pending _, lines => ∃ above, IsTagRun above pending ∧ lines = layout.lines ++ above
  | .steps plain scenario, lines =>
    (plain = .background → feature.background = none) ∧
      ∃ group : GroupLines, group.Holds (plain.member scenario) ∧
        lines = layout.lines ++ group.lines
  | .outlineSteps outline, lines =>
    ∃ group : GroupLines, group.Holds (.item (.outline outline)) ∧ group.tables = [] ∧
      lines = layout.lines ++ group.lines
  | .outlineTagged outline pending _, lines =>
    ∃ (group : GroupLines) (above : List Line), group.Holds (.item (.outline outline)) ∧
      IsTagRun above pending ∧ lines = layout.lines ++ group.lines ++ above
  | .labels outline tags header, lines =>
    ∃ (group : GroupLines) (above : List Line), group.Holds (.item (.outline outline)) ∧
      IsTagRun above tags ∧ header.shape = .header .examples "" ∧
      lines = layout.lines ++ group.lines ++ above ++ [header]
  | .rows outline block, lines =>
    ∃ (group : GroupLines) (table : TableLines), group.Holds (.item (.outline outline)) ∧
      table.Holds block ∧ lines = layout.lines ++ group.lines ++ table.lines

/-- The lines read so far say what is known after them. -/
def Draft.Holds : Draft → List Line → Prop
  | .preamble tags description, lines =>
    (∀ line ∈ lines, line.kind = .tags ∨ line.kind = .freeText) ∧ tags = .ofLines lines ∧
      description = freeTexts lines
  | .body feature place, lines =>
    ∃ layout : Layout, layout.Holds feature ∧ place.Holds feature layout lines

namespace Draft

variable {draft next : Draft} {line : Line} {lines : List Line} {feature closed : Feature}
  {place : Place}

/-- Where the file may end, the lines read so far have a layout. -/
theorem Holds.exists_layout (h : draft.Holds lines) (closes : draft.finish = .ok feature) :
    ∃ layout : Layout, layout.Holds feature ∧ lines = layout.lines := by
  cases draft with
  | preamble tags description => simp [finish] at closes
  | body open_ place =>
    obtain ⟨layout, hlayout, hplace⟩ := h
    cases place with
    | description =>
      cases closes
      exact ⟨layout, hlayout, hplace.2⟩
    | steps plain scenario =>
      cases closes
      obtain ⟨hfirst, group, hgroup, rfl⟩ := hplace
      refine ⟨layout.addGroup group, ?_, (layout.lines_addGroup group).symm⟩
      cases plain with
      -- closing a second background would overwrite the first, but none was open before this one
      | background =>
        refine hlayout.addGroup hgroup rfl ?_ (List.append_nil _).symm
        rw [hfirst rfl]
        rfl
      | scenario => exact hlayout.addGroup hgroup rfl (List.append_nil _).symm rfl
    | outlineSteps outline =>
      cases closes
      obtain ⟨group, hgroup, -, rfl⟩ := hplace
      exact ⟨layout.addGroup group, hlayout.addOutline hgroup, (layout.lines_addGroup group).symm⟩
    | rows outline block =>
      cases closes
      obtain ⟨group, table, hgroup, htable, rfl⟩ := hplace
      refine ⟨layout.addGroup (group.addTable table), hlayout.addOutline (hgroup.addTable htable),
        ?_⟩
      rw [Layout.lines_addGroup, GroupLines.lines_addTable, List.append_assoc]
    | _ => simp [finish, faultAt] at closes

/-- In an outline, the lines read so far end with those of the outline. -/
theorem Holds.exists_outline {outline : Outline} (h : (Draft.body feature place).Holds lines)
    (inside : place.outline? = some outline) :
    ∃ (layout : Layout) (group : GroupLines), layout.Holds feature ∧
      group.Holds (.item (.outline outline)) ∧ lines = layout.lines ++ group.lines := by
  obtain ⟨layout, hlayout, hplace⟩ := h
  cases place with
  | outlineSteps open_ =>
    cases inside
    obtain ⟨group, hgroup, -, rfl⟩ := hplace
    exact ⟨layout, group, hlayout, hgroup, rfl⟩
  | rows open_ block =>
    cases inside
    obtain ⟨group, table, hgroup, htable, rfl⟩ := hplace
    refine ⟨layout, group.addTable table, hlayout, hgroup.addTable htable, ?_⟩
    rw [GroupLines.lines_addTable, List.append_assoc]
  | _ => simp [Place.outline?] at inside

/-- A header below closed groups and a run of tags starts the next group. -/
theorem holds_of_openGroup {layout : Layout} {above : List Line} {tags : TagSet}
    {keyword : GroupKeyword} {title : String} (hlayout : layout.Holds feature)
    (habove : IsTagRun above tags) (shape : line.shape = .header keyword title)
    (opens : openGroup feature tags line keyword title = .ok next) :
    next.Holds (layout.lines ++ above ++ [line]) := by
  -- the waiting tags and the header are the first lines of the new group
  rw [List.append_assoc, ← GroupLines.lines_opening]
  rcases openGroup_eq_ok_iff.1 opens with ⟨rfl, hnone, rfl⟩ | ⟨rfl, rfl⟩ | ⟨rfl, rfl⟩
  · exact ⟨layout, hlayout, fun _ => hnone, .opening above line,
      ⟨habove.1, habove.2, shape, .nil, .nil⟩, rfl⟩
  · exact ⟨layout, hlayout, by simp, .opening above line,
      ⟨habove.1, habove.2, shape, .nil, .nil⟩, rfl⟩
  · exact ⟨layout, hlayout, .opening above line,
      ⟨habove.1, habove.2, shape, .nil, .nil⟩, rfl, rfl⟩

/-- Every move keeps the layout of the lines read so far. -/
theorem Holds.of_moves (h : draft.Holds lines) (moves : Moves draft line next) :
    next.Holds (lines ++ [line]) := by
  cases moves with
  | preambleTags shape =>
    obtain ⟨hlines, rfl, rfl⟩ := h
    refine ⟨?_, (TagSet.ofLines_append_tags shape).symm, ?_⟩
    · simpa [or_imp, forall_and, Line.kind, Shape.kind, shape] using hlines
    · simp [freeTexts, Line.kind, Shape.kind, shape]
  | preambleText shape =>
    obtain ⟨hlines, rfl, rfl⟩ := h
    refine ⟨?_, (TagSet.ofLines_append_text shape).symm, ?_⟩
    · simpa [or_imp, forall_and, Line.kind, Shape.kind, shape] using hlines
    · simp [freeTexts, Line.kind, Shape.kind, shape]
  | feature shape =>
    obtain ⟨hlines, rfl, rfl⟩ := h
    -- all lines so far are the preamble
    refine ⟨⟨lines, line, [], []⟩, ⟨hlines, rfl, shape, by simp, ?_, [], .nil, rfl, rfl⟩, rfl, rfl⟩
    simp
  | describe shape =>
    obtain ⟨layout, hlayout, hgroups, rfl⟩ := h
    refine ⟨{ layout with description := layout.description ++ [line] }, ?_, hgroups, ?_⟩
    · refine ⟨hlayout.preamble, hlayout.tags, hlayout.header, ?_, ?_, hlayout.groups⟩
      · simpa [or_imp, forall_and, Line.kind, Shape.kind, shape] using hlayout.description
      · simp only [hlayout.texts]
        simp [freeTexts, Line.kind, Shape.kind, shape]
    · simp [Layout.lines, hgroups]
  | @step feature plain scenario line keyword content step shape decoded =>
    obtain ⟨layout, hlayout, hfirst, group, hgroup, rfl⟩ := h
    have hstep : line.HoldsStep step := Line.holdsStep_of_decode shape decoded
    refine ⟨layout, hlayout, hfirst, group.addStep line, hgroup.addStep hstep, ?_⟩
    rw [GroupLines.lines_addStep hgroup.tables_eq_nil, List.append_assoc]
  | @outlineStep feature outline line keyword content step shape decoded =>
    obtain ⟨layout, hlayout, group, hgroup, hnil, rfl⟩ := h
    have hstep : line.HoldsStep step := Line.holdsStep_of_decode shape decoded
    refine ⟨layout, hlayout, group.addStep line, hgroup.addOutlineStep hstep, hnil, ?_⟩
    rw [GroupLines.lines_addStep hnil, List.append_assoc]
  | @labels feature outline tags header line labels shape decoded =>
    obtain ⟨layout, hlayout, group, above, hgroup, habove, hheader, rfl⟩ := h
    refine ⟨layout, hlayout, group, ⟨above, header, [line]⟩, hgroup,
      ⟨habove.1, habove.2, hheader, .cons ⟨shape, decoded⟩ .nil⟩, ?_⟩
    simp [TableLines.lines]
  | @row feature outline block line row shape decoded width =>
    obtain ⟨layout, hlayout, group, table, hgroup, htable, rfl⟩ := h
    refine ⟨layout, hlayout, group, { table with rows := table.rows ++ [line] }, hgroup,
      ⟨htable.above, htable.tags, htable.header, ?_⟩, ?_⟩
    · exact forall₂_append_singleton htable.rows ⟨shape, decoded⟩
    · simp [TableLines.lines]
  | tags closes outside shape =>
    obtain ⟨layout, hlayout, rfl⟩ := h.exists_layout closes
    exact ⟨layout, hlayout, [line], isTagRun_nil.append shape, rfl⟩
  | moreTags shape =>
    obtain ⟨layout, hlayout, above, habove, rfl⟩ := h
    exact ⟨layout, hlayout, above ++ [line], habove.append shape, List.append_assoc _ _ _⟩
  | outlineTags inside shape =>
    obtain ⟨layout, group, hlayout, hgroup, rfl⟩ := h.exists_outline inside
    exact ⟨layout, hlayout, group, [line], hgroup, isTagRun_nil.append shape, rfl⟩
  | moreOutlineTags shape =>
    obtain ⟨layout, hlayout, group, above, hgroup, habove, rfl⟩ := h
    exact ⟨layout, hlayout, group, above ++ [line], hgroup, habove.append shape,
      List.append_assoc _ _ _⟩
  | group closes shape opens =>
    obtain ⟨layout, hlayout, rfl⟩ := h.exists_layout closes
    simpa using holds_of_openGroup hlayout isTagRun_nil shape opens
  | taggedGroup shape opens =>
    obtain ⟨layout, hlayout, above, habove, rfl⟩ := h
    exact holds_of_openGroup hlayout habove shape opens
  | outlineTaggedGroup shape opens =>
    obtain ⟨layout, hlayout, group, above, hgroup, habove, rfl⟩ := h
    -- only now is it known that the tags are not those of another table
    rw [← Layout.lines_addGroup]
    exact holds_of_openGroup (hlayout.addOutline hgroup) habove shape opens
  | table inside shape =>
    obtain ⟨layout, group, hlayout, hgroup, rfl⟩ := h.exists_outline inside
    exact ⟨layout, hlayout, group, [], hgroup, isTagRun_nil, shape, by simp⟩
  | taggedTable shape =>
    obtain ⟨layout, hlayout, group, above, hgroup, habove, rfl⟩ := h
    exact ⟨layout, hlayout, group, above, hgroup, habove, shape, rfl⟩

/-- The lines read so far say what is known after them, in every run from the start. -/
theorem holds_of_run (h : start.run lines = .ok draft) : draft.Holds lines := by
  have hstart : start.Holds [] := ⟨by simp, rfl, rfl⟩
  exact run_induction (fun _ _ _ _ hread hdraft => hdraft.of_moves (read_eq_ok_iff.1 hread))
    hstart h

end Draft

/-- A file that is read has a layout that says what its feature says. -/
theorem exists_layout_of_ofLines {lines : List Line} {feature : Feature}
    (h : Feature.ofLines lines = .ok feature) :
    ∃ layout : Layout, layout.Holds feature ∧ lines = layout.lines := by
  obtain ⟨draft, hrun, closes⟩ := Feature.ofLines_eq_ok_iff.1 h
  exact (Draft.holds_of_run hrun).exists_layout closes

end FeatureFile
