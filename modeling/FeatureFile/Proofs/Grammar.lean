import FeatureFile.Proofs.Decoding
import FeatureFile.Proofs.Layout
import Mathlib.Computability.Language

set_option autoImplicit false

/-! # The grammar of feature files

Which files are read is said here without the reader: the lines have to form a word of a regular
language, `Grammar.file`, and have to be `Grammar.Admissible`, which collects what no regular
language over the kinds of lines can say. The main result, `exists_parse_eq_ok_iff`, is that these
two conditions are exactly what `parse` accepts.

One direction takes the layout of a file that was read (`exists_layout_of_ofLines`). The other runs
the reader over a word of the grammar, group by group. Between two groups the only thing that
matters about a draft is that the file may end there, and with which feature. -/

namespace FeatureFile

open Text
open scoped Computability

namespace Grammar

/-! ## The language -/

/-- The words of one line of a kind. -/
def one (kind : LineKind) : Language Line :=
  {word | ∃ line : Line, line.kind = kind ∧ word = [line]}

/-- A line of tags. -/
def tags : Language Line := one .tags

/-- A line of free text. -/
def freeText : Language Line := one .freeText

/-- A step line. -/
def step : Language Line := one .step

/-- A table row. -/
def row : Language Line := one .row

/-- The header of a group. -/
def header (keyword : GroupKeyword) : Language Line := one (.header keyword)

/-- A table of examples, with the tags above it. -/
def table : Language Line := tags∗ * header .examples * row * row∗

/-- A background, scenario or outline, with the tags above it. -/
def group : Language Line :=
  tags∗ * (header .background * step∗ + header .scenario * step∗ +
    header .outline * step∗ * table∗)

/-- A feature file. -/
def file : Language Line := (tags + freeText)∗ * header .feature * freeText∗ * group∗

/-- The number of background headers. -/
def backgrounds (lines : List Line) : Nat :=
  lines.countP fun line => line.kind = .header .background

/-- What a word of the grammar has to satisfy besides. -/
structure Admissible (lines : List Line) : Prop where
  /-- There is at most one background. -/
  background : backgrounds lines ≤ 1
  /-- No table has a title. -/
  untitled : ∀ line ∈ lines, ∀ title, line.shape = .header .examples title → title = ""
  /-- The placeholders of every step are closed. -/
  steps : ∀ line ∈ lines, ∀ keyword content, line.shape = .step keyword content →
    Step.PlaceholdersClosed (stripChars content.toList)
  /-- Every table row has two unescaped bars. -/
  rows : ∀ line ∈ lines, line.shape = .row →
    2 ≤ Row.unescapedBars (stripChars line.text.toList)
  /-- In every table the rows below the first have as many cells as the first. -/
  widths : ∀ header first rows, header :: first :: rows <:+: lines →
    header.kind = .header .examples → first.kind = .row → (∀ line ∈ rows, line.kind = .row) →
    ∀ line ∈ rows, ∀ labels cells, Row.decode first.text = .ok labels →
      Row.decode line.text = .ok cells → cells.width = labels.width

/-! ## Words of one kind -/

variable {kind : LineKind} {line : Line} {word : List Line}

theorem mem_one_iff : [line] ∈ one kind ↔ line.kind = kind := by
  constructor
  · rintro ⟨other, hkind, heq⟩
    cases heq
    exact hkind
  · intro hkind
    exact ⟨line, hkind, rfl⟩

theorem flatMap_mem_kstar {α : Type} {language : Language Line} {xs : List α}
    {f : α → List Line} (h : ∀ x ∈ xs, f x ∈ language) : xs.flatMap f ∈ language∗ := by
  rw [List.flatMap_def]
  apply Language.join_mem_kstar
  intro part hpart
  obtain ⟨x, hx, rfl⟩ := List.mem_map.1 hpart
  exact h x hx

theorem mem_one_kstar_iff : word ∈ (one kind)∗ ↔ ∀ line ∈ word, line.kind = kind := by
  constructor
  · rintro ⟨parts, rfl, hparts⟩ line hline
    obtain ⟨part, hpart, hmem⟩ := List.mem_flatten.1 hline
    obtain ⟨other, hkind, rfl⟩ := hparts part hpart
    exact List.mem_singleton.1 hmem ▸ hkind
  · intro h
    have hword : word = word.flatMap fun line => [line] := by simp
    rw [hword]
    exact flatMap_mem_kstar fun line hline => mem_one_iff.2 (h line hline)

theorem mem_preamble_iff :
    word ∈ (tags + freeText)∗ ↔ ∀ line ∈ word, line.kind = .tags ∨ line.kind = .freeText := by
  constructor
  · rintro ⟨parts, rfl, hparts⟩ line hline
    obtain ⟨part, hpart, hmem⟩ := List.mem_flatten.1 hline
    rcases hparts part hpart with ⟨other, hkind, rfl⟩ | ⟨other, hkind, rfl⟩
    · exact .inl (List.mem_singleton.1 hmem ▸ hkind)
    · exact .inr (List.mem_singleton.1 hmem ▸ hkind)
  · intro h
    have hword : word = word.flatMap fun line => [line] := by simp
    rw [hword]
    refine flatMap_mem_kstar fun line hline => ?_
    rcases h line hline with hkind | hkind
    · exact .inl (mem_one_iff.2 hkind)
    · exact .inr (mem_one_iff.2 hkind)

/-! ## A file that is read is a word of the grammar -/

theorem mem_table {lines : TableLines} {block : ExampleBlock} (h : lines.Holds block) :
    lines.lines ∈ table := by
  obtain ⟨first, more, hfirst, hmore, hrows⟩ := List.forall₂_cons_right_iff.1 h.rows
  have hlines : lines.lines = lines.above ++ [lines.header] ++ [first] ++ more := by
    simp [TableLines.lines, hrows]
  rw [hlines]
  refine Language.append_mem_mul (Language.append_mem_mul (Language.append_mem_mul ?_ ?_) ?_) ?_
  · exact mem_one_kstar_iff.2 h.above
  · exact mem_one_iff.2 h.kind_header
  · exact mem_one_iff.2 hfirst.kind
  · refine mem_one_kstar_iff.2 fun line hline => ?_
    obtain ⟨row, -, hrow⟩ := exists_of_forall₂_left hmore hline
    exact hrow.kind

theorem mem_group {lines : GroupLines} {member : Member} (h : lines.Holds member) :
    lines.lines ∈ group := by
  have hsteps : lines.steps ∈ step∗ := mem_one_kstar_iff.2 h.kind_steps
  have htables : lines.tables.flatMap TableLines.lines ∈ table∗ := by
    refine flatMap_mem_kstar fun lines hlines => ?_
    obtain ⟨block, -, hblock⟩ := exists_of_forall₂_left h.tables hlines
    exact mem_table hblock
  have hheader : [lines.header] ∈ header member.keyword := mem_one_iff.2 h.kind_header
  have hplain : lines.tables = [] → lines.header :: (lines.steps ++
      lines.tables.flatMap TableLines.lines) ∈ header member.keyword * step∗ := by
    intro hnil
    rw [hnil, List.flatMap_nil, List.append_nil]
    exact Language.append_mem_mul hheader hsteps
  refine Language.append_mem_mul (mem_one_kstar_iff.2 h.above) ?_
  rcases member with scenario | ⟨scenario | outline⟩
  · exact .inl (.inl (hplain (List.forall₂_nil_right_iff.1 h.tables)))
  · exact .inl (.inr (hplain (List.forall₂_nil_right_iff.1 h.tables)))
  · refine .inr ?_
    rw [← List.cons_append]
    exact Language.append_mem_mul (Language.append_mem_mul hheader hsteps) htables

theorem mem_file {layout : Layout} {feature : Feature} (h : layout.Holds feature) :
    layout.lines ∈ file := by
  obtain ⟨members, hmembers, -, -⟩ := h.groups
  have hlines : layout.lines = layout.preamble ++ [layout.header] ++ layout.description ++
      layout.groups.flatMap GroupLines.lines := by simp [Layout.lines]
  rw [hlines]
  refine Language.append_mem_mul (Language.append_mem_mul (Language.append_mem_mul ?_ ?_) ?_) ?_
  · exact mem_preamble_iff.2 h.preamble
  · exact mem_one_iff.2 h.kind_header
  · exact mem_one_kstar_iff.2 h.description
  · refine flatMap_mem_kstar fun group hgroup => ?_
    obtain ⟨member, -, hmember⟩ := exists_of_forall₂_left hmembers hgroup
    exact mem_group hmember

/-! ## A file that is read is admissible -/

section Moves

variable {draft next : Draft} {feature : Feature} {outline : Outline}

/-- The header of a table that is taken has no title, and its label row is awaited next. -/
theorem labels_of_moves {title : String} (moves : draft.Moves line next)
    (shape : line.shape = .header .examples title) :
    title = "" ∧ ∃ feature outline tags, next = .body feature (.labels outline tags line) := by
  cases moves with
  | table inside hshape =>
    rw [shape] at hshape
    cases hshape
    exact ⟨rfl, _, _, _, rfl⟩
  | taggedTable hshape =>
    rw [shape] at hshape
    cases hshape
    exact ⟨rfl, _, _, _, rfl⟩
  | _ => simp_all [Draft.openGroup_eq_ok_iff]

theorem decode_step_of_moves {keyword : StepKeyword} {content : String}
    (moves : draft.Moves line next) (shape : line.shape = .step keyword content) :
    ∃ step, Step.decode keyword content = .ok step := by
  cases moves <;> simp_all

theorem decode_row_of_moves (moves : draft.Moves line next) (shape : line.shape = .row) :
    ∃ row, Row.decode line.text = .ok row := by
  cases moves <;> simp_all

/-- The rows of a table are as wide as its label row. -/
theorem width_of_run_rows {block : ExampleBlock} {rows : List Line}
    (hrun : (Draft.body feature (.rows outline block)).run rows = .ok next)
    (hrows : ∀ line ∈ rows, line.kind = .row) :
    ∀ line ∈ rows, ∀ cells, Row.decode line.text = .ok cells →
      cells.width = block.labels.width := by
  induction rows generalizing block with
  | nil => simp
  | cons first rows ih =>
    obtain ⟨mid, hmid, hrun⟩ := Draft.run_cons_eq_ok_iff.1 hrun
    have hfirst : first.shape = .row := Line.kind_eq_row_iff.1 (hrows first (by simp))
    cases Draft.read_eq_ok_iff.1 hmid with
    | row shape decoded width =>
      intro line hline cells hcells
      rcases List.mem_cons.1 hline with rfl | hline
      · rw [decoded] at hcells
        cases hcells
        exact width
      · exact ih hrun (fun line hline => hrows line (List.mem_cons_of_mem _ hline)) line hline
          cells hcells
    | _ => simp_all

end Moves

theorem width_of_run {lines rows : List Line} {header first : Line} {draft : Draft}
    (hrun : Draft.start.run lines = .ok draft) (hsub : header :: first :: rows <:+: lines)
    (hheader : header.kind = .header .examples) (hfirst : first.kind = .row)
    (hrows : ∀ line ∈ rows, line.kind = .row) :
    ∀ line ∈ rows, ∀ labels cells, Row.decode first.text = .ok labels →
      Row.decode line.text = .ok cells → cells.width = labels.width := by
  -- the run passes through the header, where it opens the table, and then through its rows
  obtain ⟨before, after, rfl⟩ := hsub
  obtain ⟨_, hrun, -⟩ := Draft.run_append_eq_ok_iff.1 hrun
  obtain ⟨_, -, hrun⟩ := Draft.run_append_eq_ok_iff.1 hrun
  obtain ⟨_, hread, hrun⟩ := Draft.run_cons_eq_ok_iff.1 hrun
  obtain ⟨title, shape⟩ := Line.kind_eq_header_iff.1 hheader
  obtain ⟨-, feature, outline, tags, rfl⟩ := labels_of_moves (Draft.read_eq_ok_iff.1 hread) shape
  obtain ⟨_, hread, hrun⟩ := Draft.run_cons_eq_ok_iff.1 hrun
  intro line hline labels cells hlabels hcells
  cases Draft.read_eq_ok_iff.1 hread with
  | labels shape decoded =>
    rw [decoded] at hlabels
    cases hlabels
    exact width_of_run_rows hrun hrows line hline cells hcells
  | _ => simp_all [Line.kind_eq_row_iff]

@[simp] theorem backgrounds_append (lines more : List Line) :
    backgrounds (lines ++ more) = backgrounds lines + backgrounds more := List.countP_append

theorem backgrounds_cons (line : Line) (lines : List Line) :
    backgrounds (line :: lines) =
      backgrounds lines + if line.kind = .header .background then 1 else 0 := by
  simp [backgrounds, List.countP_cons]

theorem backgrounds_eq_zero_iff {lines : List Line} :
    backgrounds lines = 0 ↔ ∀ line ∈ lines, line.kind ≠ .header .background := by
  simp [backgrounds, List.countP_eq_zero]

theorem backgrounds_group {lines : GroupLines} {member : Member} (h : lines.Holds member) :
    backgrounds lines.lines = member.background?.toList.length := by
  have habove : backgrounds lines.above = 0 :=
    backgrounds_eq_zero_iff.2 fun line hline => by simp [h.above line hline]
  have hsteps : backgrounds lines.steps = 0 :=
    backgrounds_eq_zero_iff.2 fun line hline => by simp [h.kind_steps line hline]
  have htables : backgrounds (lines.tables.flatMap TableLines.lines) = 0 := by
    refine backgrounds_eq_zero_iff.2 fun line hline => ?_
    rcases kind_tables h.tables hline with hkind | hkind | hkind <;> simp [hkind]
  rw [GroupLines.lines, backgrounds_append, backgrounds_cons, backgrounds_append, habove, hsteps,
    htables, h.kind_header]
  rcases member with scenario | ⟨scenario | outline⟩ <;> rfl

theorem backgrounds_groups {groups : List GroupLines} {members : List Member}
    (h : List.Forall₂ GroupLines.Holds groups members) :
    backgrounds (groups.flatMap GroupLines.lines) =
      (members.filterMap Member.background?).length := by
  induction h with
  | nil => rfl
  | @cons group member groups members hgroup _ ih =>
    rw [List.flatMap_cons, backgrounds_append, backgrounds_group hgroup, ih]
    cases member <;> simp [List.filterMap_cons, Member.background?, Nat.add_comm]

theorem backgrounds_layout {layout : Layout} {feature : Feature} (h : layout.Holds feature) :
    backgrounds layout.lines = feature.background.toList.length := by
  obtain ⟨members, hmembers, hback, -⟩ := h.groups
  have hpreamble : backgrounds layout.preamble = 0 := by
    refine backgrounds_eq_zero_iff.2 fun line hline => ?_
    rcases h.preamble line hline with hkind | hkind <;> simp [hkind]
  have hdescription : backgrounds layout.description = 0 :=
    backgrounds_eq_zero_iff.2 fun line hline => by simp [h.description line hline]
  rw [Layout.lines, backgrounds_append, backgrounds_cons, backgrounds_append, hpreamble,
    hdescription, backgrounds_groups hmembers, hback, h.kind_header]
  simp

/-- A file that is read is admissible. -/
theorem admissible_of_ofLines {lines : List Line} {feature : Feature}
    (h : Feature.ofLines lines = .ok feature) : Admissible lines := by
  obtain ⟨layout, hlayout, hlines⟩ := exists_layout_of_ofLines h
  obtain ⟨draft, hrun, -⟩ := Feature.ofLines_eq_ok_iff.1 h
  -- but for the backgrounds, every condition is one that a move asks of its line
  have hmoves : ∀ line ∈ lines, ∃ before after, Draft.Moves before line after := by
    intro line hline
    obtain ⟨before, after, hread⟩ := Draft.exists_read_of_run hrun hline
    exact ⟨before, after, Draft.read_eq_ok_iff.1 hread⟩
  refine ⟨?_, ?_, ?_, ?_, ?_⟩
  · rw [hlines, backgrounds_layout hlayout]
    cases feature.background <;> simp
  · intro line hline title shape
    obtain ⟨_, _, moves⟩ := hmoves line hline
    exact (labels_of_moves moves shape).1
  · intro line hline keyword content shape
    obtain ⟨_, _, moves⟩ := hmoves line hline
    exact Step.decode_isOk_iff.1 (decode_step_of_moves moves shape)
  · intro line hline shape
    obtain ⟨_, _, moves⟩ := hmoves line hline
    exact Row.decode_isOk_iff.1 (decode_row_of_moves moves shape)
  · intro header first rows hsub hheader hfirst hrows
    exact width_of_run hrun hsub hheader hfirst hrows

/-! ## Admissible words of the grammar are read -/

theorem Admissible.of_infix {lines : List Line} (h : Admissible lines) (hword : word <:+: lines) :
    Admissible word := by
  have hmem : ∀ line ∈ word, line ∈ lines := fun line hline => hword.subset hline
  refine ⟨?_, ?_, ?_, ?_, ?_⟩
  · exact (hword.sublist.countP_le).trans h.background
  · exact fun line hline => h.untitled line (hmem line hline)
  · exact fun line hline => h.steps line (hmem line hline)
  · exact fun line hline => h.rows line (hmem line hline)
  · exact fun header first rows hsub => h.widths header first rows (hsub.trans hword)

section Runs

open Draft

variable {draft : Draft} {feature : Feature} {place : Place} {outline : Outline}
  {above : List Line} {header : Line} {keyword : GroupKeyword} {title : String}

/-- The loops of the reader: lines that each keep a draft of one form are read to their end, and
    leave a draft of that form. -/
theorem exists_run_of_moves {α : Type} (form : α → Draft) {good : Line → Prop}
    (moves : ∀ a line, good line → ∃ b, Moves (form a) line (form b))
    {lines : List Line} (hlines : ∀ line ∈ lines, good line) (a : α) :
    ∃ b, (form a).run lines = .ok (form b) := by
  induction lines generalizing a with
  | nil => exact ⟨a, rfl⟩
  | cons line rest ih =>
    obtain ⟨mid, hmid⟩ := moves a line (hlines line (by simp))
    obtain ⟨b, hrun⟩ := ih (fun line hline => hlines line (List.mem_cons_of_mem _ hline)) mid
    exact ⟨b, run_cons_eq_ok_iff.2 ⟨_, read_eq_ok_iff.2 hmid, hrun⟩⟩

theorem exists_run_preamble {lines : List Line}
    (h : ∀ line ∈ lines, line.kind = .tags ∨ line.kind = .freeText) :
    ∃ tags description, start.run lines = .ok (.preamble tags description) := by
  obtain ⟨b, hrun⟩ := exists_run_of_moves (fun p : TagSet × List String => .preamble p.1 p.2)
    (fun p line hkind => by
      rcases hkind with hkind | hkind
      · obtain ⟨names, shape⟩ := Line.kind_eq_tags_iff.1 hkind
        exact ⟨(p.1.addLine names, p.2), .preambleTags shape⟩
      · exact ⟨(p.1, p.2 ++ [line.text]), .preambleText (Line.kind_eq_freeText_iff.1 hkind)⟩)
    h (.empty, [])
  exact ⟨b.1, b.2, hrun⟩

theorem exists_run_description (feature : Feature) {lines : List Line}
    (h : ∀ line ∈ lines, line.kind = .freeText) :
    ∃ description, (Draft.body feature .description).run lines =
      .ok (.body { feature with description := description } .description) :=
  exists_run_of_moves (fun d => .body { feature with description := d } .description)
    (fun d line hkind => ⟨d ++ [line.text], .describe (Line.kind_eq_freeText_iff.1 hkind)⟩)
    h feature.description

theorem exists_run_tagged (feature : Feature) (pending : TagSet) (last : Line)
    (h : ∀ line ∈ above, line.kind = .tags) :
    ∃ pending' last', (Draft.body feature (.tagged pending last)).run above =
      .ok (.body feature (.tagged pending' last')) := by
  obtain ⟨b, hrun⟩ := exists_run_of_moves
    (fun p : TagSet × Line => .body feature (.tagged p.1 p.2))
    (fun p line hkind => by
      obtain ⟨names, shape⟩ := Line.kind_eq_tags_iff.1 hkind
      exact ⟨(p.1.addLine names, line), .moreTags shape⟩) h (pending, last)
  exact ⟨b.1, b.2, hrun⟩

theorem exists_run_outlineTagged (feature : Feature) (outline : Outline) (pending : TagSet)
    (last : Line) (h : ∀ line ∈ above, line.kind = .tags) :
    ∃ pending' last', (Draft.body feature (.outlineTagged outline pending last)).run above =
      .ok (.body feature (.outlineTagged outline pending' last')) := by
  obtain ⟨b, hrun⟩ := exists_run_of_moves
    (fun p : TagSet × Line => .body feature (.outlineTagged outline p.1 p.2))
    (fun p line hkind => by
      obtain ⟨names, shape⟩ := Line.kind_eq_tags_iff.1 hkind
      exact ⟨(p.1.addLine names, line), .moreOutlineTags shape⟩) h (pending, last)
  exact ⟨b.1, b.2, hrun⟩

/-- Wherever the file may end, a run of tags and the header of a group below the feature open that
    group. -/
theorem exists_run_openGroup (closes : draft.finish = .ok feature)
    (habove : ∀ line ∈ above, line.kind = .tags) (shape : header.shape = .header keyword title)
    (opens : ∀ tags, ∃ next, openGroup feature tags header keyword title = .ok next) :
    ∃ tags next, draft.run (above ++ [header]) = .ok next ∧
      openGroup feature tags header keyword title = .ok next := by
  cases draft with
  | preamble tags description => simp [finish] at closes
  | body open_ place =>
    cases above with
    | nil =>
      obtain ⟨next, hnext⟩ := opens .empty
      refine ⟨.empty, next, ?_, hnext⟩
      rw [List.nil_append, run_singleton]
      exact read_eq_ok_iff.2 (.group closes shape hnext)
    | cons line rest =>
      obtain ⟨names, hshape⟩ := Line.kind_eq_tags_iff.1 (habove line (by simp))
      have hrest : ∀ line ∈ rest, line.kind = .tags :=
        fun line hline => habove line (List.mem_cons_of_mem _ hline)
      -- inside an outline the tags may still belong to a table of it
      cases hinside : place.outline? with
      | none =>
        obtain ⟨pending, last, hrun⟩ :=
          exists_run_tagged feature (TagSet.empty.addLine names) line hrest
        obtain ⟨next, hnext⟩ := opens pending
        refine ⟨pending, next, ?_, hnext⟩
        refine run_cons_eq_ok_iff.2 ⟨_, read_eq_ok_iff.2 (.tags closes hinside hshape), ?_⟩
        refine run_append_eq_ok_iff.2 ⟨_, hrun, ?_⟩
        rw [run_singleton]
        exact read_eq_ok_iff.2 (.taggedGroup shape hnext)
      | some outline =>
        obtain ⟨pending, last, hrun⟩ := exists_run_outlineTagged open_ outline
          (TagSet.empty.addLine names) line hrest
        obtain rfl : feature = open_.addOutline outline := by
          rw [finish_of_outline hinside] at closes
          cases closes
          rfl
        obtain ⟨next, hnext⟩ := opens pending
        refine ⟨pending, next, ?_, hnext⟩
        refine run_cons_eq_ok_iff.2 ⟨_, read_eq_ok_iff.2 (.outlineTags hinside hshape), ?_⟩
        refine run_append_eq_ok_iff.2 ⟨_, hrun, ?_⟩
        rw [run_singleton]
        exact read_eq_ok_iff.2 (.outlineTaggedGroup shape hnext)

/-- A line that can be read as a step. -/
def StepReads (line : Line) : Prop :=
  ∃ keyword content step, line.shape = .step keyword content ∧
    Step.decode keyword content = .ok step

theorem Admissible.stepReads (h : Admissible word) (line : Line) (hline : line ∈ word)
    (hkind : line.kind = .step) : StepReads line := by
  obtain ⟨keyword, content, shape⟩ := Line.kind_eq_step_iff.1 hkind
  obtain ⟨step, decoded⟩ := Step.decode_isOk_iff.2 (h.steps line hline keyword content shape)
  exact ⟨keyword, content, step, shape, decoded⟩

theorem Admissible.rowReads (h : Admissible word) (line : Line) (hline : line ∈ word)
    (hkind : line.kind = .row) : ∃ row, Row.decode line.text = .ok row :=
  Row.decode_isOk_iff.2 (h.rows line hline (Line.kind_eq_row_iff.1 hkind))

theorem exists_run_steps (feature : Feature) (plain : PlainGroup) (scenario : Scenario)
    {steps : List Line} (h : ∀ line ∈ steps, StepReads line) :
    ∃ scenario', (Draft.body feature (.steps plain scenario)).run steps =
      .ok (.body feature (.steps plain scenario')) :=
  exists_run_of_moves (fun s => .body feature (.steps plain s))
    (fun s _ ⟨_, _, step, shape, decoded⟩ =>
      ⟨{ s with steps := s.steps ++ [step] }, .step shape decoded⟩) h scenario

theorem exists_run_outlineSteps (feature : Feature) (outline : Outline) {steps : List Line}
    (h : ∀ line ∈ steps, StepReads line) :
    ∃ outline', (Draft.body feature (.outlineSteps outline)).run steps =
      .ok (.body feature (.outlineSteps outline')) :=
  exists_run_of_moves (fun o => .body feature (.outlineSteps o))
    (fun o _ ⟨_, _, step, shape, decoded⟩ =>
      ⟨{ o with steps := o.steps ++ [step] }, .outlineStep shape decoded⟩) h outline

theorem exists_run_rows (feature : Feature) (outline : Outline) (labels : Row) (tags : TagSet)
    {rows : List Line} (h : ∀ line ∈ rows, ∃ row, line.HoldsRow row ∧ row.width = labels.width) :
    ∃ cells, (Draft.body feature (.rows outline ⟨labels, [], tags⟩)).run rows =
      .ok (.body feature (.rows outline ⟨labels, cells, tags⟩)) :=
  exists_run_of_moves (fun cells => .body feature (.rows outline ⟨labels, cells, tags⟩))
    (fun cells _ ⟨row, hrow, width⟩ => ⟨cells ++ [row], .row hrow.1 hrow.2 width⟩) h []

/-- Where the next table may start, a run of tags and the header of a table open it. -/
theorem exists_run_openTable (feature : Feature) (inside : place.outline? = some outline)
    (habove : ∀ line ∈ above, line.kind = .tags) (shape : header.shape = .header .examples "") :
    ∃ tags, (Draft.body feature place).run (above ++ [header]) =
      .ok (.body feature (.labels outline tags header)) := by
  cases above with
  | nil =>
    refine ⟨.empty, ?_⟩
    rw [List.nil_append, run_singleton]
    exact read_eq_ok_iff.2 (.table inside shape)
  | cons line rest =>
    obtain ⟨names, hshape⟩ := Line.kind_eq_tags_iff.1 (habove line (by simp))
    obtain ⟨pending, last, hrun⟩ := exists_run_outlineTagged feature outline
      (TagSet.empty.addLine names) line fun line hline => habove line (List.mem_cons_of_mem _ hline)
    refine ⟨pending, ?_⟩
    refine run_cons_eq_ok_iff.2 ⟨_, read_eq_ok_iff.2 (.outlineTags inside hshape), ?_⟩
    refine run_append_eq_ok_iff.2 ⟨_, hrun, ?_⟩
    rw [run_singleton]
    exact read_eq_ok_iff.2 (.taggedTable shape)

theorem exists_run_table (feature : Feature) (hword : word ∈ table) (hadm : Admissible word)
    (inside : place.outline? = some outline) :
    ∃ place' outline', (Draft.body feature place).run word = .ok (.body feature place') ∧
      place'.outline? = some outline' := by
  obtain ⟨_, ⟨_, ⟨above, habove, _, ⟨header, hheader, rfl⟩, rfl⟩, _, ⟨first, hfirst, rfl⟩, rfl⟩,
    rows, hrows, rfl⟩ := hword
  replace habove := mem_one_kstar_iff.1 habove
  replace hrows := mem_one_kstar_iff.1 hrows
  obtain ⟨title, shape⟩ := Line.kind_eq_header_iff.1 hheader
  obtain rfl := hadm.untitled header (by simp) title shape
  obtain ⟨labels, hlabels⟩ := hadm.rowReads first (by simp) hfirst
  have hfit : ∀ line ∈ rows, ∃ row, line.HoldsRow row ∧ row.width = labels.width := by
    intro line hline
    obtain ⟨row, hrow⟩ := hadm.rowReads line (by simp [hline]) (hrows line hline)
    refine ⟨row, ⟨Line.kind_eq_row_iff.1 (hrows line hline), hrow⟩, ?_⟩
    exact hadm.widths header first rows ⟨above, [], by simp⟩ hheader hfirst hrows line hline labels
      row hlabels hrow
  obtain ⟨tags, hopen⟩ := exists_run_openTable feature inside habove shape
  obtain ⟨cells, hrun⟩ := exists_run_rows feature outline labels tags hfit
  refine ⟨.rows outline ⟨labels, cells, tags⟩, _, ?_, rfl⟩
  refine run_append_eq_ok_iff.2 ⟨_, run_append_eq_ok_iff.2 ⟨_, hopen, ?_⟩, hrun⟩
  rw [run_singleton]
  exact read_eq_ok_iff.2 (.labels (Line.kind_eq_row_iff.1 hfirst) hlabels)

theorem exists_run_tables (feature : Feature) (hword : word ∈ table∗) (hadm : Admissible word)
    (inside : place.outline? = some outline) :
    ∃ place' outline', (Draft.body feature place).run word = .ok (.body feature place') ∧
      place'.outline? = some outline' := by
  obtain ⟨words, rfl, hwords⟩ := hword
  induction words generalizing place outline with
  | nil => exact ⟨place, outline, rfl, inside⟩
  | cons first rest ih =>
    rw [List.flatten_cons] at hadm ⊢
    obtain ⟨mid, _, hfirst, hmid⟩ := exists_run_table feature (hwords first (by simp))
      (hadm.of_infix (List.prefix_append _ _).isInfix) inside
    obtain ⟨place', outline', hrest, hplace'⟩ := ih hmid
      (fun word hword => hwords word (List.mem_cons_of_mem _ hword))
      (hadm.of_infix (List.suffix_append _ _).isInfix)
    exact ⟨place', outline', run_append_eq_ok_iff.2 ⟨_, hfirst, hrest⟩, hplace'⟩

/-- Wherever the file may end, a scenario is read, and so is the first background. -/
theorem exists_run_plain (plain : PlainGroup) {steps : List Line}
    (closes : draft.finish = .ok feature) (habove : ∀ line ∈ above, line.kind = .tags)
    (hheader : header.kind = .header plain.keyword) (hsteps : ∀ line ∈ steps, StepReads line)
    (hfirst : plain = .background → feature.background = none) :
    ∃ scenario, draft.run (above ++ header :: steps) =
      .ok (.body feature (.steps plain scenario)) := by
  obtain ⟨title, shape⟩ := Line.kind_eq_header_iff.1 hheader
  have opens : ∀ tags, openGroup feature tags header plain.keyword title =
      .ok (.body feature (.steps plain ⟨title, [], tags⟩)) := by
    intro tags
    cases plain with
    | background => simp [openGroup, PlainGroup.keyword, hfirst rfl]
    | scenario => rfl
  obtain ⟨tags, next, hrun, hnext⟩ :=
    exists_run_openGroup closes habove shape fun tags => ⟨_, opens tags⟩
  rw [opens tags] at hnext
  cases hnext
  obtain ⟨scenario, hsteps⟩ := exists_run_steps feature plain ⟨title, [], tags⟩ hsteps
  refine ⟨scenario, ?_⟩
  rw [List.append_cons]
  exact run_append_eq_ok_iff.2 ⟨_, hrun, hsteps⟩

/-- Wherever the file may end, an outline with its tables is read. -/
theorem exists_run_outline {steps tables : List Line} (closes : draft.finish = .ok feature)
    (habove : ∀ line ∈ above, line.kind = .tags) (hheader : header.kind = .header .outline)
    (hsteps : ∀ line ∈ steps, StepReads line) (htables : tables ∈ table∗)
    (hadm : Admissible tables) :
    ∃ place outline, draft.run (above ++ header :: (steps ++ tables)) = .ok (.body feature place) ∧
      place.outline? = some outline := by
  obtain ⟨title, shape⟩ := Line.kind_eq_header_iff.1 hheader
  have opens : ∀ tags, openGroup feature tags header .outline title =
      .ok (.body feature (.outlineSteps ⟨title, [], [], tags⟩)) := fun _ => rfl
  obtain ⟨tags, next, hrun, hnext⟩ :=
    exists_run_openGroup closes habove shape fun tags => ⟨_, opens tags⟩
  rw [opens tags] at hnext
  cases hnext
  obtain ⟨outline, hsteps⟩ := exists_run_outlineSteps feature ⟨title, [], [], tags⟩ hsteps
  have inside : (Place.outlineSteps outline).outline? = some outline := rfl
  obtain ⟨place, outline', htables, hplace⟩ := exists_run_tables feature htables hadm inside
  refine ⟨place, outline', ?_, hplace⟩
  rw [List.append_cons]
  exact run_append_eq_ok_iff.2 ⟨_, hrun, run_append_eq_ok_iff.2 ⟨_, hsteps, htables⟩⟩

/-- Wherever the file may end, a group is read, and the file may end after it; a background is read
    only if it is the first. -/
theorem exists_run_group (hword : word ∈ group) (hadm : Admissible word)
    (closes : draft.finish = .ok feature)
    (hfirst : feature.background = none ∨ backgrounds word = 0) :
    ∃ next closed, draft.run word = .ok next ∧ next.finish = .ok closed ∧
      (closed.background = feature.background ∨ 0 < backgrounds word) := by
  obtain ⟨above, habove, _, hbody, rfl⟩ := hword
  replace habove := mem_one_kstar_iff.1 habove
  rcases hbody with (⟨_, ⟨header, hheader, rfl⟩, steps, hsteps, rfl⟩ |
    ⟨_, ⟨header, hheader, rfl⟩, steps, hsteps, rfl⟩) |
    ⟨_, ⟨_, ⟨header, hheader, rfl⟩, steps, hsteps, rfl⟩, tables, htables, rfl⟩
  all_goals
    replace hsteps : ∀ line ∈ steps, StepReads line := fun line hline =>
      hadm.stepReads line (by simp [hline]) (mem_one_kstar_iff.1 hsteps line hline)
  · have hsome : 0 < backgrounds (above ++ ([header] ++ steps)) := by
      rw [List.singleton_append, backgrounds_append, backgrounds_cons, if_pos hheader]
      omega
    have hnone : feature.background = none := hfirst.resolve_right hsome.ne'
    obtain ⟨scenario, hrun⟩ :=
      exists_run_plain .background closes habove hheader hsteps fun _ => hnone
    exact ⟨_, _, hrun, rfl, .inr hsome⟩
  · obtain ⟨scenario, hrun⟩ :=
      exists_run_plain .scenario closes habove hheader hsteps (by simp)
    exact ⟨_, _, hrun, rfl, .inl rfl⟩
  · obtain ⟨place, outline, hrun, inside⟩ := exists_run_outline closes habove hheader hsteps htables
      (hadm.of_infix ⟨above ++ [header] ++ steps, [], by simp⟩)
    refine ⟨_, _, ?_, finish_of_outline inside, .inl rfl⟩
    simpa using hrun

theorem exists_run_groups (hword : word ∈ group∗) (hadm : Admissible word)
    (closes : draft.finish = .ok feature)
    (hfirst : feature.background = none ∨ backgrounds word = 0) :
    ∃ next closed, draft.run word = .ok next ∧ next.finish = .ok closed := by
  obtain ⟨words, rfl, hwords⟩ := hword
  induction words generalizing draft feature with
  | nil => exact ⟨draft, feature, rfl, closes⟩
  | cons first rest ih =>
    rw [List.flatten_cons] at hadm hfirst ⊢
    have htotal := hadm.background
    rw [backgrounds_append] at htotal hfirst
    obtain ⟨mid, closed, hrun, hmid, hback⟩ := exists_run_group (hwords first (by simp))
      (hadm.of_infix (List.prefix_append _ _).isInfix) closes
      (hfirst.imp_right fun h => by omega)
    -- a background in the first group uses up the one that the file may have
    have hnext : closed.background = none ∨ backgrounds rest.flatten = 0 := by
      rcases hback with hback | hback
      · exact (hback ▸ hfirst).imp_right fun h => by omega
      · exact .inr (by omega)
    obtain ⟨next, closed', hrest, hnext⟩ := ih hmid
      (fun word hword => hwords word (List.mem_cons_of_mem _ hword))
      (hadm.of_infix (List.suffix_append _ _).isInfix) hnext
    exact ⟨next, closed', run_append_eq_ok_iff.2 ⟨_, hrun, hrest⟩, hnext⟩

end Runs

/-- An admissible word of the grammar is read. -/
theorem exists_ofLines_of_mem_file (hword : word ∈ file) (hadm : Admissible word) :
    ∃ feature, Feature.ofLines word = .ok feature := by
  obtain ⟨_, ⟨_, ⟨preamble, hpreamble, _, ⟨header, hheader, rfl⟩, rfl⟩, description, hdescription,
    rfl⟩, groups, hgroups, rfl⟩ := hword
  obtain ⟨title, shape⟩ := Line.kind_eq_header_iff.1 hheader
  obtain ⟨tags, texts, hpreamble⟩ := exists_run_preamble (mem_preamble_iff.1 hpreamble)
  obtain ⟨texts', hdescription⟩ := exists_run_description ⟨title, tags, texts, none, []⟩
    (mem_one_kstar_iff.1 hdescription)
  have closes : (Draft.body ⟨title, tags, texts', none, []⟩ .description).finish =
      .ok ⟨title, tags, texts', none, []⟩ := rfl
  obtain ⟨draft, feature, hgroups, hfeature⟩ := exists_run_groups hgroups
    (hadm.of_infix (List.suffix_append _ _).isInfix) closes (.inl rfl)
  refine ⟨feature, Feature.ofLines_eq_ok_iff.2 ⟨draft, ?_, hfeature⟩⟩
  refine Draft.run_append_eq_ok_iff.2
    ⟨_, Draft.run_append_eq_ok_iff.2 ⟨_, ?_, hdescription⟩, hgroups⟩
  refine Draft.run_append_eq_ok_iff.2 ⟨_, hpreamble, ?_⟩
  rw [Draft.run_singleton]
  exact Draft.read_eq_ok_iff.2 (.feature shape)

end Grammar

/-- A source is read exactly if its lines are an admissible word of the grammar; in every other case
    there is a fault. -/
theorem exists_parse_eq_ok_iff (source : String) :
    ((∃ feature, parse source = .ok feature) ↔
      Line.ofSource source ∈ Grammar.file ∧ Grammar.Admissible (Line.ofSource source)) ∧
    ((∃ fault, parse source = .error fault) ↔
      ¬(Line.ofSource source ∈ Grammar.file ∧ Grammar.Admissible (Line.ofSource source))) := by
  have hok : (∃ feature, parse source = .ok feature) ↔
      Line.ofSource source ∈ Grammar.file ∧ Grammar.Admissible (Line.ofSource source) := by
    constructor
    · rintro ⟨feature, h⟩
      obtain ⟨layout, hlayout, hlines⟩ := exists_layout_of_ofLines h
      exact ⟨hlines ▸ Grammar.mem_file hlayout, Grammar.admissible_of_ofLines h⟩
    · rintro ⟨hword, hadm⟩
      exact Grammar.exists_ofLines_of_mem_file hword hadm
  refine ⟨hok, ?_⟩
  rw [← hok]
  cases parse source <;> simp

end FeatureFile
