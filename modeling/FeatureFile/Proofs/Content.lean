import FeatureFile.Proofs.Decoding
import FeatureFile.Proofs.Sites

set_option autoImplicit false

/-! # What a file says is what its feature says

Apart from tags, every line of a file that is read shows up in the feature: the feature header as
its name, the free texts as its description, the other headers as its groups, the lines below each
of them as steps and rows. `ContentKept` says so site by site, in both directions: what the groups
hold is what stands below their headers, one for one and in order, and the lines that are named this
way are all lines of the file. -/

namespace FeatureFile

open Text

/-! ## Trimmed contents -/

/-- What is left after the cut at the front is cut at its end. -/
theorem stripChars_prefix (cs : List Char) : stripChars cs <+: cs.dropWhile isBlank :=
  List.rdropWhile_prefix isBlank (cs.dropWhile isBlank)

/-- Nothing is left to trim after trimming. -/
theorem stripChars_stripChars (cs : List Char) : stripChars (stripChars cs) = stripChars cs := by
  have hfront : (stripChars cs).dropWhile isBlank = stripChars cs := by
    cases h : stripChars cs with
    | nil => rfl
    | cons c rest =>
      -- what is left after the cut at the end still starts where the cut at the front stopped
      have hhead : (cs.dropWhile isBlank).head? = some c := by
        obtain ⟨cut, hcut⟩ := stripChars_prefix cs
        rw [← hcut, h]
        rfl
      have hblank := List.head?_dropWhile_not isBlank cs
      rw [hhead] at hblank
      rw [List.dropWhile_cons_of_neg (by simpa using hblank)]
  rw [stripChars, hfront]
  exact dropEndBlanks_eq_self fun c hc => getLast?_dropEndBlanks hc

theorem strip_strip (s : String) : strip (strip s) = strip s := by
  rw [strip, toList_strip, stripChars_stripChars, ← toList_strip, String.ofList_toList]

/-- White space is trimmed from both ends of a text, and nothing else. -/
theorem exists_pads_of_stripChars (cs : List Char) :
    ∃ left right, cs = left ++ (stripChars cs ++ right) ∧ (∀ c ∈ left, isBlank c = true) ∧
      ∀ c ∈ right, isBlank c = true := by
  refine ⟨cs.takeWhile isBlank, ((cs.dropWhile isBlank).reverse.takeWhile isBlank).reverse, ?_,
    fun c hc => List.mem_takeWhile_imp hc, fun c hc => ?_⟩
  · rw [stripChars, dropEndBlanks, ← List.reverse_append, List.takeWhile_append_dropWhile,
      List.reverse_reverse, List.takeWhile_append_dropWhile]
  · rw [List.mem_reverse] at hc
    exact List.mem_takeWhile_imp hc

theorem strip_of_cutTrimmed {sep : Char} {text word rest : String}
    (h : cutTrimmed? sep text = some (word, rest)) : strip rest = rest := by
  obtain ⟨cut, -, heq⟩ := Option.map_eq_some_iff.1 h
  simp only [Prod.mk.injEq] at heq
  rw [← heq.2, strip, String.toList_ofList, stripChars_stripChars]

/-- Where the shape of a line comes from: a header or a step is cut off at the colon or the space
    after its word, and the first character tells the other shapes apart. -/
theorem Shape.ofText_cases (text : String) :
    (∃ word title keyword, cutTrimmed? ':' text = some (word, title) ∧
      GroupKeyword.ofWord? word = some keyword ∧ Shape.ofText text = .header keyword title) ∨
    (∃ word content keyword, cutTrimmed? ' ' text = some (word, content) ∧
      StepKeyword.ofWord? word = some keyword ∧ Shape.ofText text = .step keyword content) ∨
    Shape.ofText text = Shape.ofFirst text := by
  unfold Shape.ofText
  split
  · next shape hheader =>
    unfold Shape.header? at hheader
    split at hheader
    · simp at hheader
    · next word title hcut =>
      obtain ⟨keyword, hword, rfl⟩ := Option.map_eq_some_iff.1 hheader
      exact .inl ⟨word, title, keyword, hcut, hword, rfl⟩
  · split
    · next shape hstep =>
      unfold Shape.step? at hstep
      split at hstep
      · simp at hstep
      · next word content hcut =>
        obtain ⟨keyword, hword, rfl⟩ := Option.map_eq_some_iff.1 hstep
        exact .inr (.inl ⟨word, content, keyword, hcut, hword, rfl⟩)
    · exact .inr (.inr rfl)

/-- The first character of a line makes it neither a header nor a step. -/
theorem Shape.ofFirst_cases (text : String) :
    (∃ rest, text.toList = '@' :: rest ∧ Shape.ofFirst text =
      .tags ((piecesAt (· == '@') rest).map fun name => String.ofList (stripChars name))) ∨
    Shape.ofFirst text = .row ∨ Shape.ofFirst text = .freeText := by
  unfold Shape.ofFirst
  split
  · next rest hrest => exact .inl ⟨rest, hrest, rfl⟩
  · exact .inr (.inl rfl)
  · exact .inr (.inr rfl)

/-- The content of a step line is trimmed. -/
theorem strip_content {text : String} {keyword : StepKeyword} {content : String}
    (h : Shape.ofText text = .step keyword content) : strip content = content := by
  obtain ⟨word, title, group, -, -, hshape⟩ | ⟨word, rest, step, hcut, -, hshape⟩ | hshape :=
    Shape.ofText_cases text
  · simp [hshape] at h
  · rw [hshape, Shape.step.injEq] at h
    rw [← h.2]
    exact strip_of_cutTrimmed hcut
  · rw [hshape] at h
    obtain ⟨rest, -, hfirst⟩ | hfirst | hfirst := Shape.ofFirst_cases text <;> simp [hfirst] at h

theorem Line.shape_ofText (number : Nat) (raw : String) :
    (Line.ofText number raw).shape = Shape.ofText (strip raw) := by
  have h : Line.ofText number raw = ⟨number, strip raw, Shape.ofText (strip raw)⟩ := rfl
  rw [h]

theorem Line.text_ofText (number : Nat) (raw : String) :
    (Line.ofText number raw).text = strip raw := by
  have h : Line.ofText number raw = ⟨number, strip raw, Shape.ofText (strip raw)⟩ := rfl
  rw [h]

theorem Line.exists_ofText_of_mem {source : String} {line : Line}
    (h : line ∈ Line.ofSource source) : ∃ number raw, line = Line.ofText number raw := by
  obtain ⟨⟨number, raw⟩, -, hline⟩ := List.mem_map.1 h
  exact ⟨number, raw, hline.symm⟩

/-- A step of a file has the keyword and the content of its line. -/
theorem Line.HoldsStep.shape_eq {source : String} {line : Line} {step : Step}
    (h : line.HoldsStep step) (hline : line ∈ Line.ofSource source) :
    line.shape = .step step.keyword step.text ∧
      Step.decode step.keyword step.text = .ok step := by
  obtain ⟨content, shape, decoded⟩ := h
  obtain ⟨number, raw, rfl⟩ := Line.exists_ofText_of_mem hline
  have hstrip : strip content = content := by
    rw [Line.shape_ofText] at shape
    exact strip_content shape
  have htext : step.text = content := (Step.text_of_decode decoded).trans hstrip
  rw [htext]
  exact ⟨shape, decoded⟩

/-! ## What stands below a header -/

/-- The lines of a table say what the table says, one for one and in order. -/
structure TableRead (table : Site) (block : ExampleBlock) : Prop where
  header : table.line.shape = .header .examples ""
  rows : List.Forall₂ Line.HoldsRow (table.body .row) (block.labels :: block.rows)

/-- The lines of a group say what the group says, one for one and in order. -/
structure GroupRead (site : Site) (member : Member) : Prop where
  header : site.line.shape = .header member.keyword member.title
  steps : List.Forall₂ (fun line step => line.shape = .step step.keyword step.text ∧
    Step.decode step.keyword step.text = .ok step) (site.body .step) member.steps
  tables : List.Forall₂ TableRead site.tables member.blocks

/-- The lines of a group, tags left out: its header and steps, and the header and rows of each of
    its tables. -/
def Site.content (site : Site) : List Line :=
  site.line :: (site.body .step ++ site.tables.flatMap fun table => table.line :: table.body .row)

/-- Apart from tags, the feature says what the lines of its file say, all of it and nothing
    twice. -/
structure ContentKept (lines : List Line) (feature : Feature) : Prop where
  description : feature.description = freeTexts lines
  background : List.Forall₂ (fun site scenario => GroupRead site (.background scenario))
    (sites (fun kind => kind = .header .background) lines) feature.background.toList
  items : List.Forall₂ (fun site item => GroupRead site (.item item))
    (sites LineKind.isItem lines) feature.items
  /-- There is one feature header, and the lines that are not tags are the texts above it, itself,
      the texts below it, and the lines of the groups. -/
  header : ∃ site, sites (fun kind => kind = .header .feature) lines = [site] ∧
    site.line.shape = .header .feature feature.name ∧
    (lines.filter fun line => line.kind ≠ .tags) =
      (site.before.filter fun line => line.kind = .freeText) ++
        site.line :: (site.body .freeText ++ (sites LineKind.isMember lines).flatMap Site.content)

section Files

variable {source : String} {lines : List Line} {layout : Layout} {feature : Feature}
  {group : GroupLines} {member : Member}

theorem Site.Shows.groupRead {site : Site} (h : site.Shows member)
    (hafter : ∀ line ∈ site.after, line ∈ Line.ofSource source) : GroupRead site member := by
  obtain ⟨group, hat, hgroup⟩ := h
  refine ⟨hat.line ▸ hgroup.header, ?_, ?_⟩
  · have hbody : ∀ line ∈ site.body .step, line ∈ Line.ofSource source := fun line hline =>
      hafter line (List.takeWhile_subset _ (List.mem_of_mem_filter hline))
    have hsteps : List.Forall₂ Line.HoldsStep (site.body .step) member.steps :=
      hat.steps ▸ hgroup.steps
    exact ((List.forall₂_and_left _ _).2 ⟨hbody, hsteps⟩).imp
      fun line step ⟨hline, hstep⟩ => hstep.shape_eq hline
  · refine (forall₂_trans hat.tables hgroup.tables).imp ?_
    rintro table block ⟨lines, htable, hlines⟩
    exact ⟨htable.line ▸ hlines.header, htable.rows ▸ hlines.rows⟩

theorem filter_untagged_eq_self (h : ∀ line ∈ lines, line.kind ≠ .tags) :
    (lines.filter fun line => line.kind ≠ .tags) = lines :=
  List.filter_eq_self.2 fun line hline => by simp [h line hline]

theorem filter_untagged_eq_nil (h : ∀ line ∈ lines, line.kind = .tags) :
    (lines.filter fun line => line.kind ≠ .tags) = [] :=
  List.filter_eq_nil_iff.2 fun line hline => by simp [h line hline]

theorem TableLines.Holds.filter_untagged {table : TableLines} {block : ExampleBlock}
    (h : table.Holds block) :
    (table.lines.filter fun line => line.kind ≠ .tags) = table.header :: table.rows := by
  rw [TableLines.lines, List.filter_append, filter_untagged_eq_nil h.above, List.nil_append,
    filter_untagged_eq_self h.kind_ne_tags]

theorem GroupLines.Holds.filter_untagged (h : group.Holds member) :
    (group.lines.filter fun line => line.kind ≠ .tags) =
      group.header :: (group.steps ++
        group.tables.flatMap fun table => table.header :: table.rows) := by
  have htables : ((group.tables.flatMap TableLines.lines).filter fun line => line.kind ≠ .tags) =
      group.tables.flatMap fun table => table.header :: table.rows :=
    filter_flatMap_of_forall₂ h.tables fun table block htable => htable.filter_untagged
  rw [GroupLines.lines, ← List.cons_append, List.filter_append, List.filter_append,
    filter_untagged_eq_nil h.above, filter_untagged_eq_self h.kind_ne_tags, htables]
  rfl

/-- The lines of a group, read off its site. -/
theorem GroupAt.content {site : Site} (h : GroupAt site group) :
    group.header :: (group.steps ++ group.tables.flatMap fun table => table.header :: table.rows) =
      site.content := by
  have htables : (group.tables.flatMap fun table => table.header :: table.rows) =
      site.tables.flatMap fun table => table.line :: table.body .row :=
    flatMap_eq_of_forall₂ h.tables fun table lines htable => by rw [htable.line, htable.rows]
  rw [Site.content, h.line, h.steps, htables]

/-- In the groups of a file there is neither a free text nor a feature header. -/
theorem kind_groups {groups : List GroupLines} {members : List Member} {line : Line}
    (h : List.Forall₂ GroupLines.Holds groups members)
    (hline : line ∈ groups.flatMap GroupLines.lines) :
    line.kind ≠ .freeText ∧ line.kind ≠ .header .feature := by
  obtain ⟨group, hmem, hline⟩ := List.mem_flatMap.1 hline
  obtain ⟨member, -, hgroup⟩ := exists_of_forall₂_left h hmem
  rcases List.mem_append.1 hline with hline | hline
  · simp [hgroup.above line hline]
  · rcases List.mem_cons.1 hline with rfl | hline
    · rw [hgroup.kind_header]
      rcases member with scenario | ⟨scenario | outline⟩ <;> simp [Member.keyword]
    · rcases List.mem_append.1 hline with hline | hline
      · simp [hgroup.kind_steps line hline]
      · rcases kind_tables hgroup.tables hline with hkind | hkind | hkind <;> simp [hkind]

theorem freeTexts_append (lines more : List Line) :
    freeTexts (lines ++ more) = freeTexts lines ++ freeTexts more := by
  simp [freeTexts]

theorem freeTexts_eq_nil (h : ∀ line ∈ lines, line.kind ≠ .freeText) : freeTexts lines = [] := by
  rw [freeTexts, List.map_eq_nil_iff, List.filter_eq_nil_iff]
  intro line hline
  simp [h line hline]

/-- All free texts of a file belong to its description. -/
theorem Layout.Holds.freeTexts_lines (h : layout.Holds feature) :
    freeTexts layout.lines = feature.description := by
  obtain ⟨members, hmembers, -, -⟩ := h.groups
  have hheader : freeTexts [layout.header] = [] := by
    refine freeTexts_eq_nil fun line hline => ?_
    simp [List.mem_singleton.1 hline, h.kind_header]
  have hgroups : freeTexts (layout.groups.flatMap GroupLines.lines) = [] :=
    freeTexts_eq_nil fun line hline => (kind_groups hmembers hline).1
  rw [Layout.lines, List.append_cons, freeTexts_append, freeTexts_append, freeTexts_append,
    hheader, hgroups, List.append_nil, List.append_nil, h.texts, freeTexts_append]

/-- The site of the feature header. -/
def Layout.site (layout : Layout) : Site :=
  ⟨layout.preamble, layout.header, layout.description ++ layout.groups.flatMap GroupLines.lines⟩

theorem Layout.Holds.sites_feature (h : layout.Holds feature) :
    sites (fun kind => kind = .header .feature) layout.lines = [layout.site] := by
  obtain ⟨members, hmembers, -, -⟩ := h.groups
  have hpreamble : ∀ line ∈ layout.preamble, decide (line.kind = .header .feature) = false := by
    intro line hline
    rcases h.preamble line hline with hkind | hkind <;> simp [hkind]
  have hbelow : ∀ line ∈ layout.description ++ layout.groups.flatMap GroupLines.lines,
      decide (line.kind = .header .feature) = false := by
    intro line hline
    rcases List.mem_append.1 hline with hline | hline
    · simp [h.description line hline]
    · simp [(kind_groups hmembers hline).2]
  have hheader : decide (layout.header.kind = .header .feature) = true := by
    simp [h.kind_header]
  rw [sites, Layout.lines, sitesBelow_append hpreamble, sitesBelow_cons_of_pos hheader,
    sitesBelow_eq_nil hbelow]
  rfl

/-- Apart from tags, the lines of a file are its texts, the feature header and its groups. -/
theorem Layout.Holds.filter_untagged (h : layout.Holds feature) :
    (layout.lines.filter fun line => line.kind ≠ .tags) =
      (layout.site.before.filter fun line => line.kind = .freeText) ++
        layout.site.line :: (layout.site.body .freeText ++
          (sites LineKind.isMember layout.lines).flatMap Site.content) := by
  obtain ⟨members, hmembers, -, -⟩ := h.groups
  have hpreamble : (layout.preamble.filter fun line => line.kind ≠ .tags) =
      layout.site.before.filter fun line => line.kind = .freeText := by
    refine List.filter_congr fun line hline => ?_
    rcases h.preamble line hline with hkind | hkind <;> simp [hkind]
  have hbody : layout.site.body .freeText = layout.description :=
    body_eq rfl h.description rfl (by simp) (startsTagged_groups hmembers)
  have hgroups : ((layout.groups.flatMap GroupLines.lines).filter fun line => line.kind ≠ .tags) =
      layout.groups.flatMap fun group => group.header :: (group.steps ++
        group.tables.flatMap fun table => table.header :: table.rows) :=
    filter_flatMap_of_forall₂ hmembers fun group member hgroup => hgroup.filter_untagged
  rw [hbody, ← flatMap_eq_of_forall₂ h.sites_groups fun site group hat => hat.content, ← hgroups,
    ← hpreamble, Layout.lines, ← List.cons_append, List.filter_append, List.filter_append,
    filter_untagged_eq_self h.kind_ne_tags]
  rfl

end Files

/-- In every file that is read, nothing is lost, used twice or moved: the feature says what the
    lines say, and every line that is not a tag line belongs to one place of it. -/
theorem contentKept_of_parse {source : String} {feature : Feature}
    (h : parse source = .ok feature) : ContentKept (Line.ofSource source) feature := by
  obtain ⟨layout, hlayout, hlines⟩ := exists_layout_of_ofLines h
  -- the lines at a site are lines of the source, so that their contents are trimmed
  have hafter : ∀ (p : LineKind → Bool), ∀ site ∈ sites p layout.lines, ∀ line ∈ site.after,
      line ∈ Line.ofSource source := by
    intro p site hsite line hline
    rw [hlines]
    exact mem_of_mem_sites hsite hline
  rw [hlines]
  refine ⟨hlayout.freeTexts_lines.symm, ?_, ?_, layout.site, hlayout.sites_feature, hlayout.header,
    hlayout.filter_untagged⟩
  · exact ((List.forall₂_and_left _ _).2 ⟨hafter _, hlayout.sites_background⟩).imp
      fun site scenario ⟨hsite, hshows⟩ => hshows.groupRead hsite
  · exact ((List.forall₂_and_left _ _).2 ⟨hafter _, hlayout.sites_items⟩).imp
      fun site item ⟨hsite, hshows⟩ => hshows.groupRead hsite

/-- Texts on both sides of the feature header, an outline with two tables, and a background between
    the items. -/
def mixedSource : String :=
  "above\nFeature: f\nbelow\nScenario Outline: o\nGiven <k>\nExamples:\n|k|\n|v|\n@t\n" ++
  "Examples:\n|k|\nBackground: b\nWhen w\nScenario: s\nThen t\n"

/-- The feature of `mixedSource`. -/
def mixedFeature : Feature where
  name := "f"
  tags := .empty
  description := ["above", "below"]
  background := some ⟨"b", [⟨.when_, "w", []⟩], .empty⟩
  items :=
    [.outline ⟨"o", [⟨.given, "", [⟨"k", ""⟩]⟩],
      [⟨⟨["k"], by decide⟩, [⟨["v"], by decide⟩], .empty⟩, ⟨⟨["k"], by decide⟩, [], .ofList ["t"]⟩],
      .empty⟩,
    .scenario ⟨"s", [⟨.then_, "t", []⟩], .empty⟩]

theorem contentKept_mixedSource :
    parse mixedSource = .ok mixedFeature ∧
      ContentKept (Line.ofSource mixedSource) mixedFeature :=
  ⟨by decide +kernel, contentKept_of_parse (by decide +kernel)⟩

end FeatureFile
