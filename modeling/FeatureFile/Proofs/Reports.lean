import FeatureFile.Proofs.FixtureLines
import FeatureFile.Proofs.Trail
import FeatureFile.Proofs.WellFormed
import FeatureFile.Report

set_option autoImplicit false

/-! # Reports that can be read back

A fault quotes titles, cells and whole lines of its file, and these hold whatever the file holds,
colons and tabs included. What they never hold is the end of a line, since each of them stands on
one line (`exists_line_of_quoted`). That is enough to take reports apart again: a colon at the
end of a line is a joint of the log, and the first two tabs of a report on one line are those
between its fields (`reports_of_parse`). -/

namespace FeatureFile

open Text

/-! ## The texts of a fault -/

/-- The texts of the file that a message quotes. -/
def Cause.texts : Cause → List String
  | expectedFeature found | expectedLabels found => found.toList
  | tagsAtEnd text | tagsBeforeNonHeader text | expectedGroup text | expectedStep text
  | expectedRow text | titledExamples text | misplacedGroup _ text | malformedRow text
  | unterminatedPlaceholder _ text | unrecognizedKeyword text => [text]
  | duplicateBackground title first _ => [title, first]
  | emptyRow => []
  | arity labels row => labels.cells ++ row.cells

/-- The texts of the file that the name of a scope quotes. -/
def Scope.texts : Scope → List String
  | feature title | background title | scenario title | outline title => [title]
  | block _ => []

/-- The texts of the file that a fault quotes. -/
def Fault.texts (fault : Fault) : List String :=
  fault.scopes.flatMap Scope.texts ++ fault.cause.texts

/-! ## Messages on one line -/

theorem isLineBreak_of_isDigit {c : Char} (h : c.isDigit = true) : isLineBreak c = false := by
  rw [Char.isDigit_iff_toNat] at h
  have hlow : 48 ≤ c.toNat := h.1
  have hhigh : c.toNat ≤ 57 := h.2
  -- the digits stand between the second and the third range
  rw [isLineBreak, lineBreakRanges, inRanges, if_neg (by omega), inRanges, if_neg (by omega),
    inRanges, if_pos (by omega), decide_eq_false (by omega)]

@[simp] theorem unbroken_toString (n : Nat) : Unbroken (toString n) := by
  intro c hc
  exact isLineBreak_of_isDigit (isDigit_of_mem_toString hc)

theorem Row.unbroken_text {row : Row} (h : ∀ cell ∈ row.cells, Unbroken cell) :
    Unbroken row.text := by
  have hcells : Unbroken (String.intercalate " | " row.cells) :=
    unbroken_intercalate (by decide) h
  exact unbroken_append.2 ⟨unbroken_append.2 ⟨by decide, hcells⟩, by decide⟩

namespace Cause

@[simp] theorem unbroken_quote {text : String} : Unbroken (quote text) ↔ Unbroken text := by
  have hmark : Unbroken "\"" := by decide
  rw [quote, unbroken_append, unbroken_append, and_iff_left hmark, and_iff_right hmark]

theorem unbroken_append_quote {front text : String} (hfront : Unbroken front)
    (h : ∀ quoted ∈ [text], Unbroken quoted) : Unbroken (front ++ quote text) :=
  unbroken_append.2 ⟨hfront, unbroken_quote.2 (h text (List.mem_singleton_self text))⟩

theorem unbroken_describe {found : Option String} (h : ∀ text ∈ found.toList, Unbroken text) :
    Unbroken (describe found) := by
  cases found with
  | none => decide +kernel
  | some text => exact unbroken_quote.2 (h text (List.mem_singleton_self text))

/-- A message breaks no line if the texts that it quotes break none. -/
theorem unbroken_message {cause : Cause} (h : ∀ text ∈ cause.texts, Unbroken text) :
    Unbroken cause.message := by
  cases cause with
  | expectedFeature found | expectedLabels found =>
    exact unbroken_append.2 ⟨by decide +kernel, unbroken_describe h⟩
  | tagsAtEnd text | tagsBeforeNonHeader text | expectedGroup text | expectedStep text
  | expectedRow text | titledExamples text | malformedRow text =>
    exact unbroken_append_quote (by decide +kernel) h
  | misplacedGroup keyword text =>
    have hword : Unbroken (quote (keyword.word ++ ":") ++
        " is not allowed at this position, found ") := by
      cases keyword <;> decide +kernel
    exact unbroken_append_quote hword h
  | duplicateBackground title first header =>
    have htitle : Unbroken title := h title List.mem_cons_self
    have hfirst : Unbroken first := h first (List.mem_cons_of_mem _ List.mem_cons_self)
    unfold message
    simp only [unbroken_append, unbroken_quote, htitle, hfirst]
    decide +kernel
  | emptyRow => decide +kernel
  | arity labels row =>
    have hlabels : Unbroken labels.text :=
      Row.unbroken_text fun cell hcell => h cell (List.mem_append_left _ hcell)
    have hrow : Unbroken row.text :=
      Row.unbroken_text fun cell hcell => h cell (List.mem_append_right _ hcell)
    unfold message
    simp only [unbroken_append, unbroken_toString, hlabels, hrow]
    decide +kernel
  | unterminatedPlaceholder keyword content =>
    have hcontent : Unbroken content := h content (List.mem_singleton_self content)
    have hword : Unbroken keyword.word := by cases keyword <;> decide +kernel
    unfold message stepText
    simp only [unbroken_append, unbroken_quote, hword, hcontent]
    decide +kernel
  | unrecognizedKeyword word =>
    have hword : Unbroken word := h word (List.mem_singleton_self word)
    unfold message
    simp only [unbroken_append, unbroken_quote, hword]
    decide +kernel

end Cause

theorem Scope.unbroken_describe {scope : Scope} (h : ∀ text ∈ scope.texts, Unbroken text) :
    Unbroken scope.describe := by
  cases scope with
  | feature title | background title | scenario title | outline title =>
    exact Cause.unbroken_append_quote (by decide +kernel) h
  | block number => exact unbroken_append.2 ⟨by decide +kernel, unbroken_toString number⟩

/-- No breadcrumb breaks a line if no text of the fault does. -/
theorem Fault.unbroken_of_mem_breadcrumbs {fault : Fault}
    (h : ∀ text ∈ fault.texts, Unbroken text) :
    ∀ crumb ∈ fault.diagnostic.breadcrumbs, Unbroken crumb := by
  intro crumb hcrumb
  rcases List.mem_append.1 hcrumb with hscope | hmessage
  · obtain ⟨scope, hmem, rfl⟩ := List.mem_map.1 hscope
    refine Scope.unbroken_describe fun text htext => h text ?_
    exact List.mem_append_left _ (List.mem_flatMap_of_mem hmem htext)
  · rw [List.mem_singleton.1 hmessage]
    exact Cause.unbroken_message fun text htext => h text (List.mem_append_right _ htext)

/-! ## Where the texts stand -/

/-- The text is made of characters of the line. -/
def Line.Spells (line : Line) (text : String) : Prop := text.toList ⊆ line.text.toList

/-- The texts of a feature that a fault further down can quote. -/
def Feature.quotable (feature : Feature) : List String :=
  feature.name :: (feature.background.map Scenario.name).toList

/-- The texts of an open group that a fault further down can quote. -/
def Place.quotable : Place → List String
  | .description => []
  | .tagged _ last => [last.text]
  | .steps _ scenario => [scenario.name]
  | .outlineSteps outline | .labels outline _ _ => [outline.name]
  | .outlineTagged outline _ last => [outline.name, last.text]
  | .rows outline block => outline.name :: block.labels.cells

/-- The texts above that a fault further down can quote. -/
def Draft.quotable : Draft → List String
  | .preamble _ _ => []
  | .body feature place => feature.quotable ++ place.quotable

theorem Place.name_mem_quotable {place : Place} {outline : Outline}
    (h : place.outline? = some outline) : outline.name ∈ place.quotable := by
  cases place with
  | outlineSteps outline | rows outline block =>
    cases h
    exact List.mem_cons_self
  | _ => cases h

/-- A place quotes the titles of its scopes. -/
theorem Place.texts_scopes (feature : Feature) (place : Place) :
    (place.scopes feature).flatMap Scope.texts ⊆ (Draft.body feature place).quotable := by
  have hname : ∀ titles, feature.name ∈ feature.quotable ++ titles :=
    fun titles => List.mem_append_left titles List.mem_cons_self
  cases place with
  | description | tagged pending last =>
    exact List.cons_subset.2 ⟨hname _, List.nil_subset _⟩
  | steps group scenario =>
    have htexts : (group.scope scenario.name).texts = [scenario.name] := by cases group <;> rfl
    show feature.name :: ((group.scope scenario.name).texts ++ []) ⊆ _
    rw [htexts]
    exact List.cons_subset.2 ⟨hname _, List.subset_append_right _ _⟩
  | outlineSteps outline | outlineTagged outline pending last | labels outline tags header
  | rows outline block =>
    refine List.cons_subset.2 ⟨hname _, List.cons_subset.2 ⟨?_, List.nil_subset _⟩⟩
    exact List.mem_append_right _ List.mem_cons_self

namespace Draft

variable {draft next : Draft} {line : Line} {lines : List Line} {feature closed : Feature}
  {place : Place} {fault : Fault} {keyword : GroupKeyword} {title source : String}
  {tags : TagSet} {P : String → Prop}

/-- Closing the open group quotes nothing new. -/
theorem quotable_of_finish (h : finish (.body feature place) = .ok closed) :
    closed.quotable ⊆ (Draft.body feature place).quotable := by
  cases place with
  | steps group scenario =>
    cases h
    cases group with
    | background =>
      exact List.cons_subset.2
        ⟨List.mem_append_left _ List.mem_cons_self, List.subset_append_right _ _⟩
    | scenario => exact List.subset_append_left _ _
  | description | outlineSteps outline | rows outline block =>
    cases h
    exact List.subset_append_left _ _
  | _ => cases h

theorem quotable_of_openGroup (h : openGroup feature tags line keyword title = .ok next) :
    next.quotable = feature.quotable ++ [title] := by
  rcases openGroup_eq_ok_iff.1 h with ⟨-, -, rfl⟩ | ⟨-, rfl⟩ | ⟨-, rfl⟩ <;> rfl

/-- What can be quoted below a line could be quoted above it or stands on the line. -/
theorem Moves.quotable (h : Moves draft line next) (hline : line ∈ Line.ofSource source)
    (hspelled : ∀ text, line.Spells text → P text) (habove : ∀ text ∈ draft.quotable, P text) :
    ∀ text ∈ next.quotable, P text := by
  have hread : P line.text := hspelled line.text (List.Subset.refl _)
  cases h with
  | preambleTags | preambleText => nofun
  | feature shape =>
    exact List.forall_mem_singleton.2 (hspelled _ (Line.subset_of_header shape hline))
  | describe | step | outlineStep | row => exact habove
  | labels shape decoded =>
    obtain ⟨hfeature, houtline⟩ := List.forall_mem_append.1 habove
    exact List.forall_mem_append.2 ⟨hfeature, List.forall_mem_cons.2
      ⟨houtline _ List.mem_cons_self, fun cell hcell =>
        hspelled cell (Row.subset_of_decode decoded hcell)⟩⟩
  | tags closes outside shape =>
    exact List.forall_mem_append.2 ⟨fun text htext => habove text (quotable_of_finish closes htext),
      List.forall_mem_singleton.2 hread⟩
  | moreTags shape =>
    obtain ⟨hfeature, -⟩ := List.forall_mem_append.1 habove
    exact List.forall_mem_append.2 ⟨hfeature, List.forall_mem_singleton.2 hread⟩
  | outlineTags inside shape =>
    obtain ⟨hfeature, hplace⟩ := List.forall_mem_append.1 habove
    exact List.forall_mem_append.2 ⟨hfeature, List.forall_mem_cons.2
      ⟨hplace _ (Place.name_mem_quotable inside), List.forall_mem_singleton.2 hread⟩⟩
  | moreOutlineTags shape =>
    obtain ⟨hfeature, hplace⟩ := List.forall_mem_append.1 habove
    exact List.forall_mem_append.2 ⟨hfeature, List.forall_mem_cons.2
      ⟨hplace _ List.mem_cons_self, List.forall_mem_singleton.2 hread⟩⟩
  | group closes shape opens =>
    rw [quotable_of_openGroup opens]
    exact List.forall_mem_append.2 ⟨fun text htext => habove text (quotable_of_finish closes htext),
      List.forall_mem_singleton.2 (hspelled _ (Line.subset_of_header shape hline))⟩
  | taggedGroup shape opens | outlineTaggedGroup shape opens =>
    obtain ⟨hfeature, -⟩ := List.forall_mem_append.1 habove
    rw [quotable_of_openGroup opens]
    exact List.forall_mem_append.2 ⟨hfeature,
      List.forall_mem_singleton.2 (hspelled _ (Line.subset_of_header shape hline))⟩
  | table inside shape =>
    obtain ⟨hfeature, hplace⟩ := List.forall_mem_append.1 habove
    exact List.forall_mem_append.2 ⟨hfeature,
      List.forall_mem_singleton.2 (hplace _ (Place.name_mem_quotable inside))⟩
  | taggedTable shape =>
    obtain ⟨hfeature, hplace⟩ := List.forall_mem_append.1 habove
    exact List.forall_mem_append.2 ⟨hfeature,
      List.forall_mem_singleton.2 (hplace _ List.mem_cons_self)⟩

/-- What can be quoted stands on a line that was read. -/
theorem exists_line_of_mem_quotable (h : start.run lines = .ok draft)
    (hlines : lines ⊆ Line.ofSource source) :
    ∀ text ∈ draft.quotable, ∃ line ∈ lines, line.Spells text := by
  have hstart : [] ⊆ Line.ofSource source →
      ∀ text ∈ start.quotable, ∃ line ∈ ([] : List Line), line.Spells text := nofun
  refine run_induction (P := fun draft lines => lines ⊆ Line.ofSource source →
    ∀ text ∈ draft.quotable, ∃ line ∈ lines, line.Spells text)
    (fun draft line next lines hread ih hlines => ?_) hstart h hlines
  obtain ⟨habove, hline⟩ := List.append_subset.1 hlines
  refine (read_eq_ok_iff.1 hread).quotable (hline (List.mem_singleton_self line)) ?_ ?_
  · intro text hspells
    exact ⟨line, List.mem_append_right lines (List.mem_singleton_self line), hspells⟩
  · intro text htext
    obtain ⟨other, hother, hspells⟩ := ih habove text htext
    exact ⟨other, List.mem_append_left [line] hother, hspells⟩

/-! ## What a fault quotes -/

/-- The scopes of a fault at a line are named as they were above the line. -/
theorem Fails.texts_scopes (h : Fails draft line fault) :
    fault.scopes.flatMap Scope.texts ⊆ draft.quotable := by
  have hopened : ∀ opened : Feature, opened.quotable ⊆ draft.quotable →
      [opened.scope].flatMap Scope.texts ⊆ draft.quotable :=
    fun opened hsubset => List.cons_subset.2 ⟨hsubset List.mem_cons_self, List.nil_subset _⟩
  cases h with
  | preamble => exact List.nil_subset _
  | @refused feature place => exact Place.texts_scopes feature place
  | @step feature group scenario => exact Place.texts_scopes feature (.steps group scenario)
  | @outlineStep feature outline => exact Place.texts_scopes feature (.outlineSteps outline)
  | @labels feature outline tags header =>
    exact Place.texts_scopes feature (.labels outline tags header)
  | @row feature outline block | @width feature outline block =>
    exact Place.texts_scopes feature (.rows outline block)
  | group closes shape outside fails =>
    rw [scopes_of_openGroup fails]
    exact hopened _ (quotable_of_finish closes)
  | taggedGroup shape fails | outlineTaggedGroup shape outside fails =>
    rw [scopes_of_openGroup fails]
    exact hopened _ (List.subset_append_left _ _)
  | titled inside shape titled =>
    exact List.cons_subset.2 ⟨List.mem_append_left _ List.mem_cons_self, List.cons_subset.2
      ⟨List.mem_append_right _ (Place.name_mem_quotable inside), List.nil_subset _⟩⟩
  | @taggedTitled feature outline pending last =>
    exact Place.texts_scopes feature (.outlineTagged outline pending last)

theorem texts_of_refusal {shape : Shape} {cause : String → Cause}
    (h : place.refusal? shape = some cause) (text : String) : (cause text).texts = [text] := by
  unfold Place.refusal? at h
  split at h <;> cases h <;> rfl

theorem texts_of_decode_step {keyword : StepKeyword} {content : String} {cause : Cause}
    (h : Step.decode keyword content = .error cause) : cause.texts = [content] := by
  unfold Step.decode at h
  split at h <;> cases h
  rfl

/-- A header that opens no group is quoted, or its title and that of the earlier background. -/
theorem texts_of_openGroup (h : openGroup feature tags line keyword title = .error fault)
    (hread : P line.text) (htitle : P title) (habove : ∀ text ∈ feature.quotable, P text) :
    ∀ text ∈ fault.cause.texts, P text := by
  rcases openGroup_eq_error_iff.1 h with ⟨first, -, hfirst, rfl⟩ | ⟨-, rfl⟩
  · have hname : first.name ∈ feature.quotable := by simp [Feature.quotable, hfirst]
    exact List.forall_mem_cons.2 ⟨htitle, List.forall_mem_singleton.2 (habove _ hname)⟩
  · exact List.forall_mem_singleton.2 hread

/-- What a fault at a line quotes could be quoted above the line or stands on it. -/
theorem Fails.texts (h : Fails draft line fault) (hline : line ∈ Line.ofSource source)
    (hspelled : ∀ text, line.Spells text → P text) (habove : ∀ text ∈ draft.quotable, P text) :
    ∀ text ∈ fault.texts, P text := by
  have hread : P line.text := hspelled line.text (List.Subset.refl _)
  refine List.forall_mem_append.2 ⟨fun text htext => habove text (h.texts_scopes htext), ?_⟩
  cases h with
  | preamble | titled | taggedTitled => exact List.forall_mem_singleton.2 hread
  | refused refusal =>
    rw [texts_of_refusal refusal]
    exact List.forall_mem_singleton.2 hread
  | step shape decoded | outlineStep shape decoded =>
    rw [texts_of_decode_step decoded]
    refine List.forall_mem_singleton.2 (hspelled _ (Shape.subset_of_mem_texts ?_))
    rw [← Line.shape_of_mem hline, shape]
    exact List.mem_singleton_self _
  | labels shape decoded | row shape decoded =>
    rw [cause_of_decode_row decoded]
    refine List.forall_mem_singleton.2 (hspelled _ ?_)
    rw [Line.Spells, toList_strip]
    exact stripChars_subset _
  | width shape decoded =>
    obtain ⟨-, hplace⟩ := List.forall_mem_append.1 habove
    exact List.forall_mem_append.2 ⟨(List.forall_mem_cons.1 hplace).2, fun cell hcell =>
      hspelled cell (Row.subset_of_decode decoded hcell)⟩
  | group closes shape outside fails =>
    exact texts_of_openGroup fails hread (hspelled _ (Line.subset_of_header shape hline))
      fun text htext => habove text (quotable_of_finish closes htext)
  | taggedGroup shape fails | outlineTaggedGroup shape outside fails =>
    exact texts_of_openGroup fails hread (hspelled _ (Line.subset_of_header shape hline))
      (List.forall_mem_append.1 habove).1

/-- What a fault of the end quotes could be quoted all along. -/
theorem texts_of_finish (h : draft.finish = .error fault) : fault.texts ⊆ draft.quotable := by
  cases draft with
  | preamble tags description =>
    cases h
    exact List.nil_subset _
  | body feature place =>
    have hscopes := Place.texts_scopes feature place
    cases place with
    | tagged pending last =>
      cases h
      exact List.append_subset.2 ⟨hscopes, List.subset_append_right _ _⟩
    | outlineTagged outline pending last =>
      cases h
      refine List.append_subset.2 ⟨hscopes, List.cons_subset.2 ⟨?_, List.nil_subset _⟩⟩
      exact List.mem_append_right _ (List.mem_cons_of_mem _ List.mem_cons_self)
    | labels outline tags header =>
      cases h
      exact List.append_subset.2 ⟨hscopes, List.nil_subset _⟩
    | _ => cases h

end Draft

/-- Every text that a fault quotes stands on one line of its file. -/
theorem exists_line_of_quoted {source : String} {fault : Fault}
    (h : parse source = .error fault) :
    ∀ text ∈ fault.texts, ∃ line ∈ Line.ofSource source, line.Spells text := by
  rw [parse, Feature.ofLines_eq, except_bind_eq_error_iff] at h
  rcases h with hrun | ⟨draft, hrun, hfinish⟩
  · obtain ⟨above, line, below, draft, hlines, hrun, hread⟩ := Draft.run_eq_error_iff.1 hrun
    have hline : line ∈ Line.ofSource source := by
      rw [hlines]
      exact List.mem_append_right above List.mem_cons_self
    have habove : above ⊆ Line.ofSource source := by
      rw [hlines]
      exact List.subset_append_left above _
    refine (Draft.fails_of_read hread).texts hline (fun text hspells => ⟨line, hline, hspells⟩) ?_
    intro text htext
    obtain ⟨other, hother, hspells⟩ :=
      Draft.exists_line_of_mem_quotable hrun habove text htext
    exact ⟨other, habove hother, hspells⟩
  · intro text htext
    exact Draft.exists_line_of_mem_quotable hrun (List.Subset.refl _) text
      (Draft.texts_of_finish hfinish htext)

/-- No breadcrumb of a fault breaks a line. -/
theorem unbroken_breadcrumbs_of_parse {source : String} {fault : Fault}
    (h : parse source = .error fault) :
    ∀ crumb ∈ fault.diagnostic.breadcrumbs, Unbroken crumb := by
  refine Fault.unbroken_of_mem_breadcrumbs fun text htext => ?_
  obtain ⟨line, hline, hspells⟩ := exists_line_of_quoted h text htext
  intro c hc
  exact Line.unbroken_of_mem hline c (hspells hc)

/-! ## Reading reports back -/

namespace Report

/-- The pieces of a log between its joints, which are the colons at the end of a line. -/
def entryChars : List Char → List (List Char)
  | [] => [[]]
  | ':' :: '\n' :: cs => [] :: entryChars cs
  | c :: cs => consFirst c (entryChars cs)

/-- The entries of a log. -/
def entries (log : String) : List String := (entryChars log.toList).map String.ofList

/-- The fields of a report on one line: what its first two tabs divide it into. -/
def fields? (report : String) : Option (String × String × String) := do
  let (location, rest) ← cutAt '\t' report.toList
  let (word, message) ← cutAt '\t' rest
  return (String.ofList location, String.ofList word, String.ofList message)

theorem entryChars_cons {c : Char} {cs : List Char} (h : cs.head? ≠ some '\n') :
    entryChars (c :: cs) = consFirst c (entryChars cs) := by
  rw [entryChars]
  rintro rest - rfl
  exact h rfl

theorem entryChars_of_no_newline {cs : List Char} (h : '\n' ∉ cs) : entryChars cs = [cs] := by
  induction cs with
  | nil => rfl
  | cons c cs ih =>
    rw [List.mem_cons, not_or] at h
    rw [entryChars_cons fun hhead => h.2 (List.mem_of_mem_head? hhead), ih h.2]
    rfl

/-- A joint ends an entry without line feeds. -/
theorem entryChars_append_joint {cs : List Char} (h : '\n' ∉ cs) (rest : List Char) :
    entryChars (cs ++ ':' :: '\n' :: rest) = cs :: entryChars rest := by
  induction cs with
  | nil => rfl
  | cons c cs ih =>
    rw [List.mem_cons, not_or] at h
    have hhead : (cs ++ ':' :: '\n' :: rest).head? ≠ some '\n' := by
      cases cs with
      | nil => simp
      | cons d cs =>
        intro hhead
        obtain rfl := Option.some.inj hhead
        exact h.2 List.mem_cons_self
    rw [List.cons_append, entryChars_cons hhead, ih h.2]
    rfl

/-- Texts without line feeds that are joined are the entries again. -/
theorem entries_intercalate {texts : List String} (hne : texts ≠ [])
    (h : ∀ text ∈ texts, '\n' ∉ text.toList) :
    entries (String.intercalate ":\n" texts) = texts := by
  induction texts with
  | nil => exact absurd rfl hne
  | cons text rest ih =>
    rw [List.forall_mem_cons] at h
    cases rest with
    | nil =>
      show entries text = [text]
      rw [entries, entryChars_of_no_newline h.1, List.map_singleton, String.ofList_toList]
    | cons next rest =>
      have hchars : (String.intercalate ":\n" (text :: next :: rest)).toList =
          text.toList ++ ':' :: '\n' :: (String.intercalate ":\n" (next :: rest)).toList := by
        rw [String.intercalate_cons_cons]
        simp
      rw [entries, hchars, entryChars_append_joint h.1, List.map_cons, String.ofList_toList]
      exact congrArg (text :: ·) (ih (List.cons_ne_nil _ _) h.2)

theorem inOneLine_eq_self {text : String} (h : '\n' ∉ text.toList) : inOneLine text = text := by
  have hchars : (text.toList.flatMap fun c => if c = '\n' then [':', ' '] else [c]) =
      text.toList.flatMap fun c => [c] := by
    refine List.flatMap_congr fun c hc => if_neg ?_
    rintro rfl
    exact h hc
  rw [inOneLine, hchars, List.flatMap_singleton', String.ofList_toList]

/-- The tabs between the fields are the first ones if the location has none. -/
theorem fields?_line {filename : String} {problem : Problem}
    (h : '\t' ∉ (location filename problem).toList) :
    fields? (line filename problem) =
      some (location filename problem, red "error", inOneLine problem.text) := by
  have hword : '\t' ∉ (red "error").toList := by decide +kernel
  have hchars : (line filename problem).toList = (location filename problem).toList ++
      '\t' :: ((red "error").toList ++ '\t' :: (inOneLine problem.text).toList) := by
    simp [line]
  simp only [fields?, hchars, cutAt_append_cons h, cutAt_append_cons hword, Option.bind_eq_bind,
    Option.bind_some, Option.pure_def, String.ofList_toList]

/-- The location of a fault: the file, and behind a colon the number of the line, if there is
    one. -/
theorem location_diagnostic (filename : String) (fault : Fault) :
    location filename fault.diagnostic.problem =
      match fault.number with
      | none => filename
      | some n => filename ++ ":" ++ toString n := by
  obtain ⟨cause, number, scopes⟩ := fault
  cases number <;> rfl

theorem tab_notMem_location {filename : String} (h : '\t' ∉ filename.toList) (fault : Fault) :
    '\t' ∉ (location filename fault.diagnostic.problem).toList := by
  rw [location_diagnostic]
  split
  · exact h
  · intro htab
    simp only [String.toList_append, List.mem_append] at htab
    rcases htab with (htab | htab) | htab
    · exact h htab
    · exact absurd htab (by decide)
    · have hdigit : '\t'.isDigit = true := isDigit_of_mem_toString htab
      exact absurd hdigit (by decide)

theorem unbroken_location {filename : String} (h : Unbroken filename) (fault : Fault) :
    Unbroken (location filename fault.diagnostic.problem) := by
  rw [location_diagnostic]
  split
  · exact h
  · exact unbroken_append.2 ⟨unbroken_append.2 ⟨h, by decide⟩, unbroken_toString _⟩

end Report

theorem newline_notMem_of_unbroken {text : String} (h : Unbroken text) : '\n' ∉ text.toList := by
  intro hnewline
  exact absurd (h _ hnewline) (by decide)

/-- The reports on a fault can be read back. The entries of its log are the file and the
    breadcrumbs. Its report on one line is one line, and has the location, the word for an error
    and the whole message as its fields. -/
theorem reports_of_parse {source : String} {fault : Fault} (h : parse source = .error fault) :
    (∀ path : Path, '\n' ∉ path.text.toList →
      Report.entries (Report.log path fault.diagnostic.problem) =
        ("Error parsing " ++ path.text) :: fault.diagnostic.breadcrumbs) ∧
    ∀ filename : String, '\t' ∉ filename.toList → Unbroken filename →
      Unbroken (Report.line filename fault.diagnostic.problem) ∧
      splitLines (Report.line filename fault.diagnostic.problem) =
        [Report.line filename fault.diagnostic.problem] ∧
      Report.fields? (Report.line filename fault.diagnostic.problem) =
        some (match fault.number with
            | none => filename
            | some n => filename ++ ":" ++ toString n,
          "\x1b[31merror\x1b[39m", fault.diagnostic.text) := by
  have hcrumbs := unbroken_breadcrumbs_of_parse h
  have htext : Unbroken fault.diagnostic.text := unbroken_intercalate (by decide) hcrumbs
  have hmessage : Report.inOneLine fault.diagnostic.problem.text = fault.diagnostic.text :=
    Report.inOneLine_eq_self (newline_notMem_of_unbroken htext)
  refine ⟨fun path hpath => ?_, fun filename htab hfilename => ?_⟩
  · refine Report.entries_intercalate (List.cons_ne_nil _ _) (List.forall_mem_cons.2 ⟨?_, ?_⟩)
    · rw [String.toList_append, List.mem_append, not_or]
      exact ⟨by decide, hpath⟩
    · exact fun crumb hcrumb => newline_notMem_of_unbroken (hcrumbs crumb hcrumb)
  · have hline : Unbroken (Report.line filename fault.diagnostic.problem) := by
      rw [Report.line, hmessage]
      simp only [unbroken_append, Report.unbroken_location hfilename, htext]
      decide +kernel
    have hfields := Report.fields?_line (Report.tab_notMem_location htab fault)
    refine ⟨hline, splitLines_unbroken hline fun hempty => ?_, ?_⟩
    · rw [hempty] at hfields
      cases hfields
    · rw [hfields, hmessage, Report.location_diagnostic]
      rfl

/-- A row among the steps, in a feature with colons and a tab in its title. -/
def colonSource : String := "Feature: a:\tb:\nScenario: s:\n|x|"

/-- The fault of `colonSource`. -/
def colonFault : Fault := ⟨.expectedStep "|x|", some 3, [.feature "a:\tb:", .scenario "s:"]⟩

theorem reports_colonSource :
    parse colonSource = .error colonFault ∧
    Report.entries (Report.log (.ofString "in/c:") colonFault.diagnostic.problem) =
      ["Error parsing in/c:", "while parsing feature \"a:\tb:\"", "while parsing scenario \"s:\"",
        "expected a step, tags or a group header, found \"|x|\""] ∧
    Unbroken (Report.line "c:" colonFault.diagnostic.problem) ∧
    splitLines (Report.line "c:" colonFault.diagnostic.problem) =
      [Report.line "c:" colonFault.diagnostic.problem] ∧
    Report.fields? (Report.line "c:" colonFault.diagnostic.problem) =
      some ("c::3", "\x1b[31merror\x1b[39m", colonFault.diagnostic.text) := by
  have hparse : parse colonSource = .error colonFault := by decide +kernel
  obtain ⟨hlog, hline⟩ := reports_of_parse hparse
  have hentries := hlog (.ofString "in/c:") (by decide +kernel)
  have hcrumbs : ("Error parsing " ++ (Path.ofString "in/c:").text) ::
      colonFault.diagnostic.breadcrumbs =
        ["Error parsing in/c:", "while parsing feature \"a:\tb:\"",
          "while parsing scenario \"s:\"",
          "expected a step, tags or a group header, found \"|x|\""] := by decide +kernel
  obtain ⟨hunbroken, hsplit, hfields⟩ := hline "c:" (by decide) (by decide)
  exact ⟨hparse, hentries.trans hcrumbs, hunbroken, hsplit, hfields⟩

end FeatureFile
