import FeatureFile.Proofs.Content

set_option autoImplicit false

/-! # The characters of a feature

A feature is spelled with the characters of its file. A line is trimmed, cut and unescaped, but no
character is ever made up: every text of a feature has its characters from one line
(`exists_line_of_mem_texts`). No line holds a character that ends a line, and so no text does
(`unbroken_of_mem_texts`). -/

namespace FeatureFile

open Text

/-! ## Pieces of a text -/

theorem stripChars_subset (cs : List Char) : stripChars cs ⊆ cs := by
  intro c hc
  rw [stripChars, dropEndBlanks, List.mem_reverse] at hc
  have hmem : c ∈ (cs.dropWhile isBlank).reverse := (List.dropWhile_sublist _).subset hc
  exact (List.dropWhile_sublist _).subset (List.mem_reverse.1 hmem)

theorem consFirst_subset {c : Char} {cs : List Char} {pieces : List (List Char)}
    (h : ∀ piece ∈ pieces, piece ⊆ cs) : ∀ piece ∈ consFirst c pieces, piece ⊆ c :: cs := by
  cases pieces with
  | nil => simp [consFirst]
  | cons first rest =>
    simp only [consFirst, List.forall_mem_cons] at h ⊢
    exact ⟨List.cons_subset_cons c h.1, fun piece hpiece =>
      List.subset_cons_of_subset c (h.2 piece hpiece)⟩

theorem piecesAt_subset (p : Char → Bool) (cs : List Char) :
    ∀ piece ∈ piecesAt p cs, piece ⊆ cs := by
  induction cs with
  | nil => simp [piecesAt]
  | cons c cs ih =>
    rw [piecesAt]
    split
    · rw [List.forall_mem_cons]
      exact ⟨List.nil_subset _, fun piece hpiece => List.subset_cons_of_subset c (ih piece hpiece)⟩
    · exact consFirst_subset ih

/-- No piece holds a character at which the text is cut. -/
theorem not_of_mem_piecesAt {p : Char → Bool} {cs piece : List Char} {c : Char}
    (h : piece ∈ piecesAt p cs) (hc : c ∈ piece) : p c = false := by
  induction cs generalizing piece with
  | nil =>
    rw [piecesAt, List.mem_singleton] at h
    simp [h] at hc
  | cons d cs ih =>
    rw [piecesAt] at h
    split at h
    · rcases List.mem_cons.1 h with rfl | h
      · simp at hc
      · exact ih h hc
    · next hd =>
      cases hcut : piecesAt p cs with
      | nil => exact absurd hcut (piecesAt_ne_nil p cs)
      | cons first rest =>
        rw [hcut] at h ih
        rcases List.mem_cons.1 h with rfl | h
        · rcases List.mem_cons.1 hc with rfl | hc
          · simpa using hd
          · exact ih (List.mem_cons_self ..) hc
        · exact ih (List.mem_cons_of_mem _ h) hc

theorem segments_subset (escaped : Bool) (cs : List Char) :
    ∀ segment ∈ Row.segments escaped cs, segment ⊆ cs := by
  induction cs generalizing escaped with
  | nil => simp [Row.segments]
  | cons c cs ih =>
    have hbar : ∀ segment ∈ [] :: Row.segments false cs, segment ⊆ c :: cs := by
      rw [List.forall_mem_cons]
      exact ⟨List.nil_subset _, fun segment hsegment =>
        List.subset_cons_of_subset c (ih false segment hsegment)⟩
    rw [Row.segments]
    split_ifs
    · exact consFirst_subset (ih false)
    · exact consFirst_subset (ih true)
    · exact hbar
    · exact consFirst_subset (ih false)

theorem unescape_subset (cs : List Char) : Row.unescape cs ⊆ cs := by
  fun_induction Row.unescape cs with
  | case1 => exact List.nil_subset _
  | case2 cs ih => exact List.subset_cons_of_subset _ (List.cons_subset_cons _ ih)
  | case3 c cs _ ih => exact List.cons_subset_cons c ih

theorem unescape_eq_self {cs : List Char} (h : '\\' ∉ cs) : Row.unescape cs = cs := by
  fun_induction Row.unescape cs <;> simp_all

/-! ## Texts of a line -/

/-- What a shape takes from its line. -/
def Shape.texts : Shape → List String
  | .tags names => names
  | .step _ content => [content]
  | .header _ title => [title]
  | .row | .freeText => []

theorem cutTrimmed?_subset {sep : Char} {text word rest : String}
    (h : cutTrimmed? sep text = some (word, rest)) : rest.toList ⊆ text.toList := by
  obtain ⟨⟨before, after⟩, hcut, heq⟩ := Option.map_eq_some_iff.1 h
  simp only [Prod.mk.injEq] at heq
  rw [← heq.2, String.toList_ofList, (cutAt_eq_some hcut).1]
  intro c hc
  exact List.mem_append_right _ (List.mem_cons_of_mem _ (stripChars_subset _ hc))

theorem Shape.subset_of_mem_texts {text t : String} (h : t ∈ (Shape.ofText text).texts) :
    t.toList ⊆ text.toList := by
  obtain ⟨word, title, keyword, hcut, -, hshape⟩ | ⟨word, content, keyword, hcut, -, hshape⟩ |
    hshape := Shape.ofText_cases text
  · rw [hshape] at h
    rw [List.mem_singleton.1 h]
    exact cutTrimmed?_subset hcut
  · rw [hshape] at h
    rw [List.mem_singleton.1 h]
    exact cutTrimmed?_subset hcut
  · rw [hshape] at h
    obtain ⟨rest, hrest, hfirst⟩ | hfirst | hfirst := Shape.ofFirst_cases text
    · rw [hfirst] at h
      obtain ⟨name, hname, rfl⟩ := List.mem_map.1 h
      rw [String.toList_ofList, hrest]
      exact List.subset_cons_of_subset _
        (List.Subset.trans (stripChars_subset name) (piecesAt_subset _ _ name hname))
    · simp [hfirst, Shape.texts] at h
    · simp [hfirst, Shape.texts] at h

/-- The texts of a step. -/
def Step.texts (step : Step) : List String := step.literals ++ step.placeholders

theorem subset_join {texts : List String} {t : String} (h : t ∈ texts) :
    t.toList ⊆ (String.join texts).toList := by
  induction texts with
  | nil => simp at h
  | cons text rest ih =>
    rw [String.join_cons, String.toList_append]
    rcases List.mem_cons.1 h with rfl | h
    · exact List.subset_append_left _ _
    · exact List.Subset.trans (ih h) (List.subset_append_right _ _)

theorem Step.subset_text {step : Step} {t : String} (h : t ∈ step.texts) :
    t.toList ⊆ step.text.toList := by
  have hslot : ∀ slot ∈ step.slots,
      slot.1.toList ⊆ step.text.toList ∧ slot.2.toList ⊆ step.text.toList := by
    intro slot hmem
    have hjoin : ("<" ++ slot.1 ++ ">" ++ slot.2).toList ⊆ step.text.toList := by
      have hmem' := List.mem_map_of_mem (f := fun slot : String × String =>
        "<" ++ slot.1 ++ ">" ++ slot.2) hmem
      rw [Step.text, String.toList_append (s := step.lead)]
      exact List.Subset.trans (subset_join hmem') (List.subset_append_right _ _)
    constructor <;> intro c hc <;> exact hjoin (by simp [hc])
  rw [Step.texts, Step.literals, Step.placeholders, List.cons_append, List.mem_cons,
    List.mem_append, List.mem_map, List.mem_map] at h
  rcases h with rfl | ⟨slot, hmem, rfl⟩ | ⟨slot, hmem, rfl⟩
  · rw [Step.text, String.toList_append]
    exact List.subset_append_left _ _
  · exact (hslot slot hmem).2
  · exact (hslot slot hmem).1

theorem Row.subset_of_decode {line t : String} {row : Row} (h : Row.decode line = .ok row)
    (ht : t ∈ row.cells) : t.toList ⊆ line.toList := by
  obtain ⟨segment, hsegment, rfl⟩ := Row.exists_segment_of_mem_cells h ht
  rw [String.toList_ofList]
  calc Row.unescape (stripChars segment) ⊆ stripChars segment := unescape_subset _
    _ ⊆ segment := stripChars_subset _
    _ ⊆ stripChars line.toList := segments_subset _ _ _ hsegment
    _ ⊆ line.toList := stripChars_subset _

/-! ## Lines of a file -/

/-- No character of the text ends a line. -/
def Unbroken (s : String) : Prop := ∀ c ∈ s.toList, isLineBreak c = false

instance (s : String) : Decidable (Unbroken s) :=
  decidable_of_iff (s.toList.any isLineBreak = false) (by simp [Unbroken])

section Lines

variable {source : String} {line : Line} {t : String}

/-- The shape of a line is that of its text. -/
theorem Line.shape_of_mem (h : line ∈ Line.ofSource source) :
    line.shape = Shape.ofText line.text := by
  obtain ⟨number, raw, rfl⟩ := Line.exists_ofText_of_mem h
  rw [Line.shape_ofText, Line.text_ofText]

/-- The text of a line is one of the lines of the source, trimmed. -/
theorem Line.exists_raw_of_mem (h : line ∈ Line.ofSource source) :
    ∃ raw ∈ lineChars (dropByteOrderMark source).toList, line.text.toList = stripChars raw := by
  obtain ⟨⟨number, text⟩, hkept, rfl⟩ := List.mem_map.1 h
  obtain ⟨⟨raw, position⟩, hraw, hsome⟩ := List.mem_filterMap.1 hkept
  simp only [Option.ite_none_right_eq_some, Option.some.injEq, Prod.mk.injEq] at hsome
  obtain ⟨-, -, rfl⟩ := hsome
  obtain ⟨cs, hcs, rfl⟩ := List.mem_map.1 (List.fst_mem_of_mem_zipIdx hraw)
  refine ⟨cs, hcs, ?_⟩
  show (Line.ofText number (strip (String.ofList cs))).text.toList = stripChars cs
  rw [Line.text_ofText, toList_strip, toList_strip, String.toList_ofList, stripChars_stripChars]

/-- No line holds a character that ends a line. -/
theorem Line.unbroken_of_mem (h : line ∈ Line.ofSource source) : Unbroken line.text := by
  obtain ⟨raw, hraw, htext⟩ := Line.exists_raw_of_mem h
  intro c hc
  rw [htext] at hc
  exact not_isLineBreak_of_mem_lineChars _ raw hraw c (stripChars_subset raw hc)

theorem Line.HoldsStep.subset {step : Step} (h : line.HoldsStep step)
    (hline : line ∈ Line.ofSource source) (ht : t ∈ step.texts) :
    t.toList ⊆ line.text.toList := by
  obtain ⟨content, shape, decoded⟩ := h
  have hcontent : content.toList ⊆ line.text.toList := by
    refine Shape.subset_of_mem_texts ?_
    rw [← Line.shape_of_mem hline, shape]
    exact List.mem_singleton_self content
  have htext : step.text.toList ⊆ content.toList := by
    rw [Step.text_of_decode decoded, toList_strip]
    exact stripChars_subset _
  exact List.Subset.trans (List.Subset.trans (Step.subset_text ht) htext) hcontent

theorem Line.subset_of_header {keyword : GroupKeyword} {title : String}
    (h : line.shape = .header keyword title) (hline : line ∈ Line.ofSource source) :
    title.toList ⊆ line.text.toList := by
  refine Shape.subset_of_mem_texts ?_
  rw [← Line.shape_of_mem hline, h]
  exact List.mem_singleton_self title

theorem TagSet.mem_names_insertAll {tags : TagSet} {names : List String} {x : String} :
    x ∈ (tags.insertAll names).names ↔ x ∈ tags.names ∨ x ∈ names := by
  induction names generalizing tags with
  | nil => simp [TagSet.insertAll]
  | cons name names ih =>
    have h : tags.insertAll (name :: names) = (tags.insert name).insertAll names := rfl
    rw [h, ih, TagSet.mem_names_insert, List.mem_cons, or_assoc]

/-- A tag stands on one of the lines that its set is made of. -/
theorem exists_line_of_mem_tags {lines : List Line} (hlines : lines ⊆ Line.ofSource source)
    (ht : t ∈ (TagSet.ofLines lines).names) : ∃ line ∈ lines, t.toList ⊆ line.text.toList := by
  rw [TagSet.ofLines, TagSet.ofList, TagSet.mem_names_insertAll] at ht
  obtain ht | ht := ht
  · simp [TagSet.empty] at ht
  · obtain ⟨line, hmem, hname⟩ := List.mem_flatMap.1 (List.mem_filter.1 ht).1
    refine ⟨line, hmem, Shape.subset_of_mem_texts ?_⟩
    rw [← Line.shape_of_mem (hlines hmem)]
    unfold Line.tagNames at hname
    split at hname
    · next names hshape => rwa [hshape]
    · simp at hname

end Lines

/-! ## Texts of a feature -/

/-- The texts of a table. -/
def ExampleBlock.texts (block : ExampleBlock) : List String :=
  block.tags.names ++ (block.labels :: block.rows).flatMap (·.cells)

/-- The texts of a group. -/
def Member.texts (member : Member) : List String :=
  member.title :: (member.tags.names ++ member.steps.flatMap Step.texts ++
    member.blocks.flatMap ExampleBlock.texts)

/-- The groups of a feature. -/
def Feature.members (feature : Feature) : List Member :=
  feature.background.toList.map .background ++ feature.items.map .item

/-- The texts of a feature. -/
def Feature.texts (feature : Feature) : List String :=
  feature.name :: (feature.tags.names ++ feature.description ++
    feature.members.flatMap Member.texts)

theorem Member.forall_mem_texts {member : Member} {p : String → Prop} :
    (∀ t ∈ member.texts, p t) ↔ p member.title ∧ (∀ t ∈ member.tags.names, p t) ∧
      (∀ step ∈ member.steps, ∀ t ∈ step.texts, p t) ∧
      ∀ block ∈ member.blocks, ∀ t ∈ block.texts, p t := by
  simp only [Member.texts, List.forall_mem_cons, List.forall_mem_append, List.forall_mem_flatMap,
    and_assoc]

theorem Feature.forall_mem_texts {feature : Feature} {p : String → Prop} :
    (∀ t ∈ feature.texts, p t) ↔ p feature.name ∧ (∀ t ∈ feature.tags.names, p t) ∧
      (∀ t ∈ feature.description, p t) ∧ ∀ member ∈ feature.members, ∀ t ∈ member.texts, p t := by
  simp only [Feature.texts, List.forall_mem_cons, List.forall_mem_append, List.forall_mem_flatMap,
    and_assoc]

section Features

variable {source t : String} {feature : Feature}

theorem TableLines.Holds.exists_line {table : TableLines} {block : ExampleBlock}
    (h : table.Holds block) (hlines : table.lines ⊆ Line.ofSource source)
    (ht : t ∈ block.texts) : ∃ line ∈ table.lines, t.toList ⊆ line.text.toList := by
  rw [TableLines.lines] at hlines ⊢
  rw [List.append_subset, List.cons_subset] at hlines
  rcases List.mem_append.1 ht with ht | ht
  · rw [h.tags] at ht
    obtain ⟨line, hmem, hsubset⟩ := exists_line_of_mem_tags hlines.1 ht
    exact ⟨line, List.mem_append_left _ hmem, hsubset⟩
  · obtain ⟨row, hrow, ht⟩ := List.mem_flatMap.1 ht
    obtain ⟨line, hmem, hholds⟩ := exists_of_forall₂_left h.rows.flip hrow
    exact ⟨line, List.mem_append_right _ (List.mem_cons_of_mem _ hmem),
      Row.subset_of_decode hholds.2 ht⟩

theorem GroupLines.Holds.exists_line {group : GroupLines} {member : Member}
    (h : group.Holds member) (hlines : group.lines ⊆ Line.ofSource source)
    (ht : t ∈ member.texts) : ∃ line ∈ group.lines, t.toList ⊆ line.text.toList := by
  rw [GroupLines.lines] at hlines ⊢
  rw [List.append_subset, List.cons_subset, List.append_subset] at hlines
  obtain ⟨habove, hheader, hsteps, htables⟩ := hlines
  rw [Member.texts, List.mem_cons, List.mem_append, List.mem_append] at ht
  rcases ht with rfl | (ht | ht) | ht
  · exact ⟨group.header, by simp, Line.subset_of_header h.header hheader⟩
  · rw [h.tags] at ht
    obtain ⟨line, hmem, hsubset⟩ := exists_line_of_mem_tags habove ht
    exact ⟨line, by simp [hmem], hsubset⟩
  · obtain ⟨step, hstep, ht⟩ := List.mem_flatMap.1 ht
    obtain ⟨line, hmem, hholds⟩ := exists_of_forall₂_left h.steps.flip hstep
    exact ⟨line, by simp [hmem], Line.HoldsStep.subset hholds (hsteps hmem) ht⟩
  · obtain ⟨block, hblock, ht⟩ := List.mem_flatMap.1 ht
    obtain ⟨table, hmem, hholds⟩ := exists_of_forall₂_left h.tables.flip hblock
    have hsubset : table.lines ⊆ group.tables.flatMap TableLines.lines := fun line hline =>
      List.mem_flatMap.2 ⟨table, hmem, hline⟩
    obtain ⟨line, hline, hspells⟩ :=
      TableLines.Holds.exists_line hholds (List.Subset.trans hsubset htables) ht
    exact ⟨line, List.mem_append_right _ (List.mem_cons_of_mem _
      (List.mem_append_right _ (hsubset hline))), hspells⟩

theorem mem_of_mem_members {members : List Member} {member : Member}
    (hbackground : members.filterMap Member.background? = feature.background.toList)
    (hitems : members.filterMap Member.item? = feature.items) (h : member ∈ feature.members) :
    member ∈ members := by
  rw [Feature.members, ← hbackground, ← hitems, List.mem_append, List.mem_map, List.mem_map] at h
  rcases h with ⟨scenario, h, rfl⟩ | ⟨item, h, rfl⟩
  · obtain ⟨member, hmem, hsome⟩ := List.mem_filterMap.1 h
    cases member with
    | background other =>
      cases hsome
      exact hmem
    | item other => simp [Member.background?] at hsome
  · obtain ⟨member, hmem, hsome⟩ := List.mem_filterMap.1 h
    cases member with
    | background other => simp [Member.item?] at hsome
    | item other =>
      cases hsome
      exact hmem

/-- Every text of a feature has its characters from one line of the file. -/
theorem exists_line_of_mem_texts (h : parse source = .ok feature) (ht : t ∈ feature.texts) :
    ∃ line ∈ Line.ofSource source, t.toList ⊆ line.text.toList := by
  obtain ⟨layout, hlayout, hlines⟩ := exists_layout_of_ofLines h
  obtain ⟨members, hmembers, hbackground, hitems⟩ := hlayout.groups
  have hsubset : layout.lines ⊆ Line.ofSource source := hlines ▸ List.Subset.refl _
  rw [Layout.lines, List.append_subset, List.cons_subset, List.append_subset] at hsubset
  obtain ⟨hpreamble, hheader, hdescription, hgroups⟩ := hsubset
  rw [Feature.texts, List.mem_cons, List.mem_append, List.mem_append] at ht
  rcases ht with rfl | (ht | ht) | ht
  · exact ⟨layout.header, hheader, Line.subset_of_header hlayout.header hheader⟩
  · rw [hlayout.tags] at ht
    obtain ⟨line, hmem, hspells⟩ := exists_line_of_mem_tags hpreamble ht
    exact ⟨line, hpreamble hmem, hspells⟩
  · rw [hlayout.texts] at ht
    obtain ⟨line, hmem, rfl⟩ := List.mem_map.1 ht
    have hline : line ∈ layout.preamble ++ layout.description := List.mem_of_mem_filter hmem
    exact ⟨line, List.append_subset.2 ⟨hpreamble, hdescription⟩ hline, List.Subset.refl _⟩
  · obtain ⟨member, hmember, ht⟩ := List.mem_flatMap.1 ht
    obtain ⟨group, hmem, hholds⟩ :=
      exists_of_forall₂_left hmembers.flip (mem_of_mem_members hbackground hitems hmember)
    have hgroup : group.lines ⊆ Line.ofSource source := fun line hline =>
      hgroups (List.mem_flatMap.2 ⟨group, hmem, hline⟩)
    obtain ⟨line, hline, hspells⟩ := GroupLines.Holds.exists_line hholds hgroup ht
    exact ⟨line, hgroup hline, hspells⟩

/-- No text of a feature that was read holds a character that ends a line. -/
theorem unbroken_of_mem_texts (h : parse source = .ok feature) (ht : t ∈ feature.texts) :
    Unbroken t := by
  obtain ⟨line, hline, hspells⟩ := exists_line_of_mem_texts h ht
  exact fun c hc => Line.unbroken_of_mem hline c (hspells hc)

end Features

end FeatureFile
