import FeatureFile.Proofs.Grammar
import FeatureFile.Proofs.Spelling

set_option autoImplicit false

/-! # What every feature that is read can rely on

Each stage of reading leaves its mark on the document: lines are trimmed, shapes tell tags and rows
from texts, the decoders stop at brackets and bars, and a table takes no row that does not fit.
`Feature.WellFormed` collects these facts for a whole feature. A file is either read to such a
feature, or refused for one of six kinds of reasons (`wellFormed_or_refused`). -/

namespace FeatureFile

open Text

/-! ## Trimmed texts -/

theorem isBlank_of_head?_stripChars {cs : List Char} {c : Char}
    (h : (stripChars cs).head? = some c) : isBlank c = false := by
  obtain ⟨cut, hcut⟩ := stripChars_prefix cs
  have hhead : (cs.dropWhile isBlank).head? = some c := by
    rw [← hcut, List.head?_append, h]
    rfl
  have hblank := List.head?_dropWhile_not isBlank cs
  simpa [hhead] using hblank

theorem isBlank_of_getLast?_stripChars {cs : List Char} {c : Char}
    (h : (stripChars cs).getLast? = some c) : isBlank c = false :=
  getLast?_dropEndBlanks h

/-- A text with no blank at either end has nothing to trim. -/
theorem stripChars_of_ends {cs : List Char} (hfirst : ∀ c, cs.head? = some c → isBlank c = false)
    (hlast : ∀ c, cs.getLast? = some c → isBlank c = false) : stripChars cs = cs := by
  have hfront : cs.dropWhile isBlank = cs := by
    cases cs with
    | nil => rfl
    | cons c rest => exact List.dropWhile_cons_of_neg (by simp [hfirst c rfl])
  rw [stripChars, hfront]
  exact dropEndBlanks_eq_self hlast

theorem isBlank_of_stripChars_eq_nil {cs : List Char} (h : stripChars cs = []) :
    ∀ c ∈ cs, isBlank c = true := by
  rw [stripChars, dropEndBlanks, List.reverse_eq_nil_iff, List.dropWhile_eq_nil_iff] at h
  have hdrop : ∀ c ∈ cs.dropWhile isBlank, isBlank c = true := by simpa using h
  cases hcut : cs.dropWhile isBlank with
  | nil => exact List.dropWhile_eq_nil_iff.1 hcut
  | cons d rest =>
    -- the first character that is kept is not blank
    have hd := List.head?_dropWhile_not isBlank cs
    rw [hcut] at hd hdrop
    simp [hdrop d (by simp)] at hd

/-! ## Pieces of a line -/

namespace Step

/-- A literal ends at the first opening bracket, a placeholder at the first closing one. -/
theorem brackets_of_cut (cs : List Char) :
    (∀ lead slots, literalChars cs = some (lead, slots) →
      '<' ∉ lead ∧ ∀ slot ∈ slots, '>' ∉ slot.1 ∧ '<' ∉ slot.2) ∧
    (∀ slots, placeholderChars cs = some slots → ∀ slot ∈ slots, '>' ∉ slot.1 ∧ '<' ∉ slot.2) := by
  induction cs with
  | nil => simp [literalChars, placeholderChars]
  | cons c cs ih =>
    obtain ⟨hliteral, hplaceholder⟩ := ih
    constructor
    · intro lead slots h
      rw [literalChars] at h
      split at h
      · obtain ⟨more, hmore, heq⟩ := Option.map_eq_some_iff.1 h
        simp only [Prod.mk.injEq] at heq
        obtain ⟨rfl, rfl⟩ := heq
        exact ⟨by simp, hplaceholder more hmore⟩
      · next hc =>
        obtain ⟨rest, hrest, heq⟩ := Option.map_eq_some_iff.1 h
        cases heq
        obtain ⟨hlead, hslots⟩ := hliteral rest.1 rest.2 hrest
        exact ⟨by simp [Ne.symm hc, hlead], hslots⟩
    · intro slots h
      rw [placeholderChars] at h
      split at h
      · obtain ⟨rest, hrest, rfl⟩ := Option.map_eq_some_iff.1 h
        obtain ⟨hlead, hslots⟩ := hliteral rest.1 rest.2 hrest
        rw [List.forall_mem_cons]
        exact ⟨⟨by simp, hlead⟩, hslots⟩
      · next hc =>
        obtain ⟨more, hmore, rfl⟩ := Option.map_eq_some_iff.1 h
        have hslots := hplaceholder more hmore
        cases more with
        | nil => simp
        | cons slot rest =>
          rw [List.forall_mem_cons] at hslots ⊢
          exact ⟨⟨by simp [Ne.symm hc, hslots.1.1], hslots.1.2⟩, hslots.2⟩

theorem brackets_of_decode {keyword : StepKeyword} {content : String} {step : Step}
    (h : decode keyword content = .ok step) :
    (∀ t ∈ step.literals, '<' ∉ t.toList) ∧ ∀ t ∈ step.placeholders, '>' ∉ t.toList := by
  unfold decode at h
  split at h
  · simp at h
  · next lead slots hcut =>
    cases h
    obtain ⟨hlead, hslots⟩ := (brackets_of_cut _).1 lead slots hcut
    simp only [literals, placeholders, List.forall_mem_cons, List.forall_mem_map,
      String.toList_ofList]
    exact ⟨⟨hlead, fun slot hslot => (hslots slot hslot).2⟩,
      fun slot hslot => (hslots slot hslot).1⟩

/-- A step is the step of its own literals and placeholders. -/
theorem ofParts_self (step : Step) :
    ofParts step.keyword step.literals step.placeholders = .ok step := by
  have hzip : step.placeholders.zip (step.slots.map (·.2)) = step.slots :=
    (List.zip_of_prod rfl rfl).symm
  rw [literals, ofParts, if_pos (by simp [placeholders]), hzip]

end Step

namespace Row

theorem head?_unescape {cs : List Char} {c : Char} (h : (unescape cs).head? = some c) :
    cs.head? = some c ∨ c = '|' := by
  revert h
  fun_cases unescape cs with
  | case1 => simp
  | case2 cs =>
    intro h
    exact .inr (by simpa using h.symm)
  | case3 d cs =>
    intro h
    exact .inl (by simpa using h)

theorem getLast?_unescape (cs : List Char) : (unescape cs).getLast? = cs.getLast? := by
  fun_induction unescape cs with
  | case1 => rfl
  | case2 cs ih => simp [List.getLast?_cons, ih]
  | case3 c cs _ ih => simp [List.getLast?_cons, ih]

/-- Cells are trimmed before their bars are unescaped, and this makes no blank at their ends. -/
theorem strip_of_mem_cells {line t : String} {row : Row} (h : decode line = .ok row)
    (ht : t ∈ row.cells) : strip t = t := by
  obtain ⟨segment, -, rfl⟩ := exists_segment_of_mem_cells h ht
  have htrimmed : stripChars (unescape (stripChars segment)) = unescape (stripChars segment) := by
    refine stripChars_of_ends (fun c hc => ?_) (fun c hc => ?_)
    · rcases head?_unescape hc with hc | rfl
      · exact isBlank_of_head?_stripChars hc
      · decide
    · rw [getLast?_unescape] at hc
      exact isBlank_of_getLast?_stripChars hc
  rw [strip, String.toList_ofList, htrimmed]

end Row

/-! ## Shapes -/

section Shapes

variable {text : String}

theorem exists_cut_of_header {keyword : GroupKeyword} {title : String}
    (h : Shape.ofText text = .header keyword title) :
    ∃ word, cutTrimmed? ':' text = some (word, title) := by
  obtain ⟨word, rest, group, hcut, -, hshape⟩ | ⟨word, rest, step, -, -, hshape⟩ | hshape :=
    Shape.ofText_cases text
  · rw [hshape, Shape.header.injEq] at h
    exact ⟨word, h.2 ▸ hcut⟩
  · simp [hshape] at h
  · rw [hshape] at h
    obtain ⟨rest, -, hfirst⟩ | hfirst | hfirst := Shape.ofFirst_cases text <;> simp [hfirst] at h

theorem exists_cut_of_step {keyword : StepKeyword} {content : String}
    (h : Shape.ofText text = .step keyword content) :
    ∃ word, cutTrimmed? ' ' text = some (word, content) := by
  obtain ⟨word, rest, group, -, -, hshape⟩ | ⟨word, rest, step, hcut, -, hshape⟩ | hshape :=
    Shape.ofText_cases text
  · simp [hshape] at h
  · rw [hshape, Shape.step.injEq] at h
    exact ⟨word, h.2 ▸ hcut⟩
  · rw [hshape] at h
    obtain ⟨rest, -, hfirst⟩ | hfirst | hfirst := Shape.ofFirst_cases text <;> simp [hfirst] at h

/-- The first character decides about a line that is neither a header nor a step. -/
theorem ofFirst_of_ofText {shape : Shape} (h : Shape.ofText text = shape)
    (hheader : ∀ keyword title, shape ≠ .header keyword title)
    (hstep : ∀ keyword content, shape ≠ .step keyword content) : Shape.ofFirst text = shape := by
  obtain ⟨word, rest, group, -, -, hshape⟩ | ⟨word, rest, step, -, -, hshape⟩ | hshape :=
    Shape.ofText_cases text
  · exact absurd (h.symm.trans hshape) (hheader group rest)
  · exact absurd (h.symm.trans hshape) (hstep step rest)
  · exact hshape.symm.trans h

theorem strip_title {keyword : GroupKeyword} {title : String}
    (h : Shape.ofText text = .header keyword title) : strip title = title := by
  obtain ⟨word, hcut⟩ := exists_cut_of_header h
  exact strip_of_cutTrimmed hcut

/-- A trimmed line does not end with the space after a step word. -/
theorem content_ne_empty {keyword : StepKeyword} {content : String}
    (h : Shape.ofText text = .step keyword content) (htext : strip text = text) :
    content ≠ "" := by
  obtain ⟨word, hcut⟩ := exists_cut_of_step h
  obtain ⟨⟨before, after⟩, hchars, heq⟩ := Option.map_eq_some_iff.1 hcut
  obtain ⟨-, rfl⟩ := Prod.mk.inj heq
  -- otherwise the line would end with a blank, the one behind the keyword or a later one
  intro hempty
  have hnil : stripChars after = [] := String.ofList_eq_empty_iff.1 hempty
  have hblank : ∀ c ∈ ' ' :: after, isBlank c = true :=
    List.forall_mem_cons.2 ⟨by decide, isBlank_of_stripChars_eq_nil hnil⟩
  have hend : text.toList.getLast? = some ((' ' :: after).getLast (by simp)) := by
    rw [(cutAt_eq_some hchars).1, List.getLast?_append_of_ne_nil _ (by simp)]
    exact List.getLast?_eq_some_getLast _
  rw [← htext, toList_strip] at hend
  have hsolid := isBlank_of_getLast?_stripChars hend
  rw [hblank _ (List.getLast_mem _)] at hsolid
  exact absurd hsolid (by decide)

/-- A free text starts with neither of the characters that make another line. -/
theorem head?_of_freeText (h : Shape.ofText text = .freeText) :
    text.toList.head? ≠ some '@' ∧ text.toList.head? ≠ some '|' := by
  have hfirst := ofFirst_of_ofText h (by simp) (by simp)
  unfold Shape.ofFirst at hfirst
  split at hfirst
  · simp at hfirst
  · simp at hfirst
  · next htag hrow =>
    constructor
    · intro hhead
      obtain ⟨rest, hrest⟩ := List.head?_eq_some_iff.1 hhead
      exact htag rest hrest
    · intro hhead
      obtain ⟨rest, hrest⟩ := List.head?_eq_some_iff.1 hhead
      exact hrow rest hrest

/-- The names of a tag line are trimmed pieces between its marks. -/
theorem tag_of_mem_names {names : List String} {name : String}
    (h : Shape.ofText text = .tags names) (hname : name ∈ names) :
    strip name = name ∧ '@' ∉ name.toList := by
  have hshape := ofFirst_of_ofText h (by simp) (by simp)
  obtain ⟨rest, -, hfirst⟩ | hfirst | hfirst := Shape.ofFirst_cases text
  · rw [hfirst, Shape.tags.injEq] at hshape
    rw [← hshape] at hname
    obtain ⟨piece, hpiece, rfl⟩ := List.mem_map.1 hname
    rw [strip, String.toList_ofList, stripChars_stripChars]
    refine ⟨rfl, fun hmark => ?_⟩
    have hpart := not_of_mem_piecesAt hpiece (stripChars_subset piece hmark)
    simp at hpart
  · simp [hfirst] at hshape
  · simp [hfirst] at hshape

end Shapes

/-! ## Lines of a file -/

theorem Line.strip_of_mem {source : String} {line : Line} (h : line ∈ Line.ofSource source) :
    strip line.text = line.text := by
  obtain ⟨raw, -, hraw⟩ := Line.exists_raw_of_mem h
  rw [strip, hraw, stripChars_stripChars, ← hraw, String.ofList_toList]

/-- Empty lines and comments are no lines of a file. -/
theorem Line.isKept_of_mem {source : String} {line : Line} (h : line ∈ Line.ofSource source) :
    isKept line.text = true := by
  obtain ⟨⟨number, text⟩, hkept, rfl⟩ := List.mem_map.1 h
  obtain ⟨⟨raw, position⟩, -, hsome⟩ := List.mem_filterMap.1 hkept
  simp only [Option.ite_none_right_eq_some, Option.some.injEq, Prod.mk.injEq] at hsome
  obtain ⟨hraw, -, rfl⟩ := hsome
  have htext : (Line.ofText number (strip raw)).text = strip raw := by
    rw [Line.text_ofText, strip, toList_strip, stripChars_stripChars, ← toList_strip,
      String.ofList_toList]
  rw [htext]
  exact hraw

/-! ## Well-formed documents -/

/-- What a set of tags can rely on. -/
structure TagSet.WellFormed (tags : TagSet) : Prop where
  nodup : tags.names.Nodup
  nonempty : ∀ name ∈ tags.names, name ≠ ""
  trimmed : ∀ name ∈ tags.names, strip name = name
  unmarked : ∀ name ∈ tags.names, '@' ∉ name.toList

/-- What a step can rely on. -/
structure Step.WellFormed (step : Step) : Prop where
  /-- The step can be made of its parts. -/
  parts : Step.ofParts step.keyword step.literals step.placeholders = .ok step
  counts : step.literals.length = step.placeholders.length + 1
  literals : ∀ t ∈ step.literals, '<' ∉ t.toList
  placeholders : ∀ t ∈ step.placeholders, '>' ∉ t.toList
  nonempty : step.text ≠ ""
  trimmed : strip step.text = step.text

/-- What a table can rely on. -/
structure ExampleBlock.WellFormed (block : ExampleBlock) : Prop where
  tags : block.tags.WellFormed
  labels : 1 ≤ block.labels.width
  widths : ∀ row ∈ block.rows, row.width = block.labels.width
  trimmed : ∀ row ∈ block.labels :: block.rows, ∀ cell ∈ row.cells, strip cell = cell

/-- What a group can rely on. -/
structure Member.WellFormed (member : Member) : Prop where
  title : strip member.title = member.title
  tags : member.tags.WellFormed
  steps : ∀ step ∈ member.steps, step.WellFormed
  blocks : ∀ block ∈ member.blocks, block.WellFormed

/-- What a feature can rely on. -/
structure Feature.WellFormed (feature : Feature) : Prop where
  name : strip feature.name = feature.name
  tags : feature.tags.WellFormed
  trimmed : ∀ text ∈ feature.description, strip text = text
  nonempty : ∀ text ∈ feature.description, text ≠ ""
  plain : ∀ text ∈ feature.description, ∀ mark ∈ ['#', '@', '|'], text.toList.head? ≠ some mark
  members : ∀ member ∈ feature.members, member.WellFormed
  unbroken : ∀ text ∈ feature.texts, Unbroken text

section Files

variable {source : String} {feature : Feature} {lines : List Line}

theorem wellFormed_ofLines (hlines : lines ⊆ Line.ofSource source) :
    (TagSet.ofLines lines).WellFormed := by
  have hnames : ∀ name ∈ (TagSet.ofLines lines).names,
      name ≠ "" ∧ strip name = name ∧ '@' ∉ name.toList := by
    intro name hname
    rw [TagSet.ofLines, TagSet.ofList, TagSet.mem_names_insertAll] at hname
    obtain hname | hname := hname
    · simp [TagSet.empty] at hname
    · obtain ⟨hname, hne⟩ := List.mem_filter.1 hname
      obtain ⟨line, hmem, hname⟩ := List.mem_flatMap.1 hname
      unfold Line.tagNames at hname
      split at hname
      · next names hshape =>
        rw [Line.shape_of_mem (hlines hmem)] at hshape
        exact ⟨by simpa using hne, tag_of_mem_names hshape hname⟩
      · simp at hname
  exact ⟨(TagSet.ofLines lines).nodup, fun name h => (hnames name h).1,
    fun name h => (hnames name h).2.1, fun name h => (hnames name h).2.2⟩

theorem Line.HoldsStep.wellFormed {line : Line} {step : Step} (h : line.HoldsStep step)
    (hline : line ∈ Line.ofSource source) : step.WellFormed := by
  obtain ⟨hshape, hdecode⟩ := h.shape_eq hline
  rw [Line.shape_of_mem hline] at hshape
  obtain ⟨hliterals, hplaceholders⟩ := Step.brackets_of_decode hdecode
  exact ⟨step.ofParts_self, step.length_literals, hliterals, hplaceholders,
    content_ne_empty hshape (Line.strip_of_mem hline), strip_content hshape⟩

theorem TableLines.Holds.wellFormed {table : TableLines} {block : ExampleBlock}
    (h : table.Holds block) (hread : parse source = .ok feature)
    (htable : table.lines <:+: Line.ofSource source) : block.WellFormed := by
  refine ⟨?_, ?_, ?_, ?_⟩
  · have habove : table.above ⊆ Line.ofSource source :=
      List.Subset.trans (List.subset_append_left _ _) htable.subset
    exact h.tags ▸ wellFormed_ofLines habove
  · exact List.length_pos_of_ne_nil block.labels.nonempty
  · -- the rows stand right below the label row, where the reader has compared them
    intro row hrow
    cases hrows : table.rows with
    | nil =>
      have hheld := h.rows
      rw [hrows] at hheld
      cases hheld
    | cons first rest =>
      have hheld := h.rows
      rw [hrows] at hheld
      obtain ⟨hfirst, hrest⟩ := List.forall₂_cons.1 hheld
      obtain ⟨line, hmem, hline⟩ := exists_of_forall₂_left hrest.flip hrow
      have hinfix : table.header :: first :: rest <:+: Line.ofSource source := by
        rw [← hrows]
        exact (List.suffix_append _ _).isInfix.trans htable
      exact (Grammar.admissible_of_ofLines hread).widths table.header first rest hinfix
        h.kind_header hfirst.kind (fun line hline => h.kind_rows line (by simp [hrows, hline]))
        line hmem block.labels row hfirst.2 hline.2
  · intro row hrow cell hcell
    obtain ⟨line, -, hline⟩ := exists_of_forall₂_left h.rows.flip hrow
    exact Row.strip_of_mem_cells hline.2 hcell

theorem infix_flatMap_of_mem {α β : Type} {f : α → List β} {xs : List α} {x : α} (h : x ∈ xs) :
    f x <:+: xs.flatMap f := by
  rw [List.flatMap_def]
  exact List.infix_of_mem_flatten (List.mem_map_of_mem h)

theorem GroupLines.Holds.wellFormed {group : GroupLines} {member : Member}
    (h : group.Holds member) (hread : parse source = .ok feature)
    (hgroup : group.lines <:+: Line.ofSource source) : member.WellFormed := by
  have hsubset := hgroup.subset
  rw [GroupLines.lines, List.append_subset, List.cons_subset, List.append_subset] at hsubset
  obtain ⟨habove, hheader, hsteps, -⟩ := hsubset
  refine ⟨?_, ?_, ?_, ?_⟩
  · have hshape := h.header
    rw [Line.shape_of_mem hheader] at hshape
    exact strip_title hshape
  · exact h.tags ▸ wellFormed_ofLines habove
  · intro step hstep
    obtain ⟨line, hmem, hline⟩ := exists_of_forall₂_left h.steps.flip hstep
    exact Line.HoldsStep.wellFormed hline (hsteps hmem)
  · intro block hblock
    obtain ⟨table, hmem, htable⟩ := exists_of_forall₂_left h.tables.flip hblock
    have htables : group.tables.flatMap TableLines.lines <:+: group.lines := by
      rw [GroupLines.lines, ← List.cons_append, ← List.append_assoc]
      exact (List.suffix_append _ _).isInfix
    exact htable.wellFormed hread ((infix_flatMap_of_mem hmem).trans (htables.trans hgroup))

/-- A feature that is read is well-formed. -/
theorem Feature.wellFormed_of_parse (h : parse source = .ok feature) : feature.WellFormed := by
  obtain ⟨layout, hlayout, hlines⟩ := exists_layout_of_ofLines h
  obtain ⟨members, hmembers, hbackground, hitems⟩ := hlayout.groups
  have hsubset : layout.lines ⊆ Line.ofSource source := hlines ▸ List.Subset.refl _
  rw [Layout.lines, List.append_subset, List.cons_subset, List.append_subset] at hsubset
  obtain ⟨hpreamble, hheader, hdescription, -⟩ := hsubset
  -- free texts above the header belong to the description like those below it
  have htext : ∀ text ∈ feature.description, ∃ line ∈ Line.ofSource source,
      line.shape = .freeText ∧ line.text = text := by
    intro text ht
    rw [hlayout.texts] at ht
    obtain ⟨line, hmem, rfl⟩ := List.mem_map.1 ht
    obtain ⟨hmem, hkind⟩ := List.mem_filter.1 hmem
    exact ⟨line, List.append_subset.2 ⟨hpreamble, hdescription⟩ hmem,
      Line.kind_eq_freeText_iff.1 (by simpa using hkind), rfl⟩
  refine ⟨?_, ?_, ?_, ?_, ?_, ?_, fun text ht => unbroken_of_mem_texts h ht⟩
  · have hshape := hlayout.header
    rw [Line.shape_of_mem hheader] at hshape
    exact strip_title hshape
  · exact hlayout.tags ▸ wellFormed_ofLines hpreamble
  · intro text ht
    obtain ⟨line, hline, -, rfl⟩ := htext text ht
    exact Line.strip_of_mem hline
  · intro text ht hempty
    obtain ⟨line, hline, -, rfl⟩ := htext text ht
    have hkept := Line.isKept_of_mem hline
    rw [hempty] at hkept
    exact absurd hkept (by decide)
  · intro text ht
    obtain ⟨line, hline, hshape, rfl⟩ := htext text ht
    rw [Line.shape_of_mem hline] at hshape
    obtain ⟨htag, hrow⟩ := head?_of_freeText hshape
    have hcomment : line.text.toList.head? ≠ some '#' := by
      intro hhead
      obtain ⟨rest, hrest⟩ := List.head?_eq_some_iff.1 hhead
      have hkept := Line.isKept_of_mem hline
      simp [isKept, hrest] at hkept
    simp only [List.forall_mem_cons]
    exact ⟨hcomment, htag, hrow, by simp⟩
  · intro member hmember
    obtain ⟨group, hmem, hgroup⟩ :=
      exists_of_forall₂_left hmembers.flip (mem_of_mem_members hbackground hitems hmember)
    have hgroups : layout.groups.flatMap GroupLines.lines <:+: Line.ofSource source := by
      rw [hlines, Layout.lines, ← List.cons_append, ← List.append_assoc]
      exact (List.suffix_append _ _).isInfix
    exact hgroup.wellFormed h ((infix_flatMap_of_mem hmem).trans hgroups)

end Files

/-! ## Refused files -/

/-- The kinds of the faults for which a file is refused. -/
def refusalKinds : List Kind :=
  [.structural, .duplicateBackground, .titledExamples, .malformedRow, .unterminatedPlaceholder,
    .arity]

theorem kind_of_decode_step {keyword : StepKeyword} {content : String} {cause : Cause}
    (h : Step.decode keyword content = .error cause) : cause.kind = .unterminatedPlaceholder := by
  unfold Step.decode at h
  split at h <;> cases h
  rfl

theorem cause_of_decode_row {text : String} {cause : Cause} (h : Row.decode text = .error cause) :
    cause = .malformedRow (strip text) := by
  unfold Row.decode at h
  split at h <;> cases h
  rfl

theorem kind_of_refusal {place : Place} {shape : Shape} {cause : String → Cause}
    (h : place.refusal? shape = some cause) (text : String) :
    (cause text).kind = .structural := by
  unfold Place.refusal? at h
  split at h <;> cases h <;> rfl

theorem kind_of_openGroup {feature : Feature} {tags : TagSet} {line : Line}
    {keyword : GroupKeyword} {title : String} {fault : Fault}
    (h : Draft.openGroup feature tags line keyword title = .error fault) :
    fault.cause.kind = .duplicateBackground ∨ fault.cause.kind = .structural := by
  rcases Draft.openGroup_eq_error_iff.1 h with ⟨first, -, -, rfl⟩ | ⟨-, rfl⟩
  · exact .inl rfl
  · exact .inr rfl

/-- A line is refused for one of these kinds of reasons, and for its bars only by the decoder of
    rows. -/
theorem kind_of_read {draft : Draft} {line : Line} {fault : Fault}
    (h : draft.read line = .error fault) :
    (fault.cause.kind ∈ refusalKinds ∧ fault.cause.kind ≠ .malformedRow) ∨
      (line.shape = .row ∧ Row.decode line.text = .error fault.cause) := by
  cases Draft.fails_of_read h with
  | preamble | width | titled | taggedTitled => exact .inl (by simp [Cause.kind, refusalKinds])
  | refused refusal => exact .inl (by simp [kind_of_refusal refusal, refusalKinds])
  | step _ decoded | outlineStep _ decoded =>
    exact .inl (by simp [kind_of_decode_step decoded, refusalKinds])
  | labels shape decoded | row shape decoded => exact .inr ⟨shape, decoded⟩
  | group _ _ _ fails | taggedGroup _ fails | outlineTaggedGroup _ _ fails =>
    rcases kind_of_openGroup fails with hkind | hkind <;>
      exact .inl (by simp [hkind, refusalKinds])

theorem kind_of_finish {draft : Draft} {fault : Fault} (h : draft.finish = .error fault) :
    fault.cause.kind = .structural := by
  rcases draft with _ | ⟨feature, place⟩
  · cases h
    rfl
  · cases place <;> cases h <;> rfl

theorem kind_of_parse {source : String} {fault : Fault} (h : parse source = .error fault) :
    (fault.cause.kind ∈ refusalKinds ∧ fault.cause.kind ≠ .malformedRow) ∨
      ∃ line ∈ Line.ofSource source, line.shape = .row ∧
        Row.decode line.text = .error fault.cause := by
  rw [parse, Feature.ofLines_eq, except_bind_eq_error_iff] at h
  rcases h with hrun | ⟨draft, -, hfinish⟩
  · obtain ⟨before, line, after, draft, hlines, -, hread⟩ := Draft.run_eq_error_iff.1 hrun
    exact (kind_of_read hread).imp_right fun hrow => ⟨line, by simp [hlines], hrow⟩
  · exact .inl (by simp [kind_of_finish hfinish, refusalKinds])

/-- Every source is read to a well-formed feature, or refused for one of six kinds of reasons; a
    malformed row is one that the decoder of rows refused. -/
theorem wellFormed_or_refused (source : String) :
    (∃ feature, parse source = .ok feature ∧ feature.WellFormed) ∨
      ∃ fault, parse source = .error fault ∧ fault.diagnostic.kind ∈ refusalKinds ∧
        fault.cause ≠ .emptyRow ∧ (∀ word, fault.cause ≠ .unrecognizedKeyword word) ∧
        (fault.diagnostic.kind = .malformedRow → ∃ line ∈ Line.ofSource source,
          line.shape = .row ∧ Row.decode line.text = .error fault.cause) := by
  cases h : parse source with
  | ok feature => exact .inl ⟨feature, rfl, Feature.wellFormed_of_parse h⟩
  | error fault =>
    refine .inr ⟨fault, rfl, ?_⟩
    show fault.cause.kind ∈ refusalKinds ∧ _ ∧ _ ∧ (fault.cause.kind = .malformedRow → _)
    rcases kind_of_parse h with ⟨hkind, hother⟩ | ⟨line, hline, hshape, hrow⟩
    · refine ⟨hkind, ?_, ?_, fun hmalformed => absurd hmalformed hother⟩
      · intro hcause
        rw [hcause] at hother
        exact hother rfl
      · intro word hcause
        rw [hcause] at hkind
        simp [Cause.kind, refusalKinds] at hkind
    · have hcause := cause_of_decode_row hrow
      refine ⟨by simp [hcause, Cause.kind, refusalKinds], by simp [hcause], by simp [hcause], ?_⟩
      exact fun _ => ⟨line, hline, hshape, hrow⟩

end FeatureFile
