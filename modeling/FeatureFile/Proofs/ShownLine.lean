import FeatureFile.Proofs.Codecs
import FeatureFile.Proofs.FirstFault
import FeatureFile.Proofs.Shapes

set_option autoImplicit false

/-! # The line that a fault shows

A fault with a number is one of a line of the file, and most causes carry the text of that line as
it was read. Two are built from what was decoded: a row that does not fit its labels is written
again from its cells, and a step with an open placeholder from its keyword and its content. The text
that is shown then is the line only if the line was spaced the same way and no cell has a bar of its
own, since bars are not escaped again. `Cause.Rebuilt` says when it is another text, and
`shown_line_of_parse` that this happens in no other case. -/

namespace FeatureFile

open Text

/-! ## Rows written again -/

namespace Row

/-- Bars that are not escaped are bars of the line. -/
theorem length_segments_append_bar {flag : Bool} {cs : List Char} (h : AllBars false flag cs)
    (rest : List Char) :
    (segments flag (cs ++ ' ' :: '|' :: rest)).length =
      cs.count '|' + 1 + (segments false rest).length := by
  induction cs generalizing flag with
  | nil => simp [length_segments_cons]
  | cons c cs ih =>
    rw [List.cons_append, length_segments_cons, ih h.2]
    by_cases hc : c = '|'
    · rw [if_pos ⟨hc, h.1 hc⟩, hc, List.count_cons_self]
      omega
    · rw [if_neg fun hbar => hc hbar.1, List.count_cons_of_ne hc]
      omega

/-- The text of a row has as many segments as there are bars in it. -/
theorem length_segments_text {row : Row} (h : ∀ cell ∈ row.cells, IsNormal cell) :
    (segments false row.text.toList).length =
      (row.cells.flatMap String.toList).count '|' + row.width + 2 := by
  have hcells : ∀ cells : List String, (∀ cell ∈ cells, IsNormal cell) →
      (segments false (cells.flatMap fun cell => ' ' :: (cell.toList ++ [' ', '|']))).length =
        (cells.flatMap String.toList).count '|' + cells.length + 1 := by
    intro cells hnormal
    induction cells with
    | nil => rfl
    | cons cell cells ih =>
      rw [List.forall_mem_cons] at hnormal
      have hbars : AllBars false false (' ' :: cell.toList) :=
        ⟨fun _ => rfl, (isNormal_iff.1 hnormal.1).2⟩
      have hsplit : ∀ rest, ' ' :: (cell.toList ++ [' ', '|']) ++ rest =
          (' ' :: cell.toList) ++ ' ' :: '|' :: rest := by simp
      rw [List.flatMap_cons, hsplit, length_segments_append_bar hbars, ih hnormal.2,
        List.count_cons_of_ne (by decide), List.flatMap_cons, List.count_append, List.length_cons]
      omega
  rw [text, toList_barred row.nonempty, length_segments_cons, if_pos ⟨rfl, rfl⟩, width]
  have hrest := hcells row.cells h
  have hflag : (!false && '|' == '\\') = false := rfl
  rw [hflag, hrest]
  omega

theorem escape_eq_self {cs : List Char} (h : '|' ∉ cs) : escape cs = cs := by
  induction cs with
  | nil => rfl
  | cons c cs ih =>
    rw [List.mem_cons, not_or] at h
    rw [escape_cons (Ne.symm h.1), ih h.2]

/-- Without bars in its cells, a row is shown as it is written. -/
theorem text_eq_written {row : Row} (h : ∀ cell ∈ row.cells, '|' ∉ cell.toList) :
    row.text = row.written := by
  have hcells : (row.cells.map fun cell => String.ofList (escape cell.toList)) = row.cells := by
    refine (List.map_congr_left fun cell hcell => ?_).trans (List.map_id _)
    rw [escape_eq_self (h cell hcell), String.ofList_toList, id]
  rw [written, hcells, text]

/-- A row is shown as the line that it was read from exactly if the line is spaced as rows are
    written and no cell has a bar: such a bar is escaped in the line. -/
theorem text_eq_iff_of_decode {line : String} {row : Row} (hline : strip line = line)
    (h : decode line = .ok row) :
    row.text = line ↔ line = row.written ∧ ∀ cell ∈ row.cells, '|' ∉ cell.toList := by
  constructor
  · intro htext
    have hbars : ∀ cell ∈ row.cells, '|' ∉ cell.toList := by
      have hnormal : ∀ cell ∈ row.cells, IsNormal cell := fun cell => isNormal_of_decode h
      have hlength := length_segments_text hnormal
      have hwidth := width_of_decode h
      rw [htext, length_segments] at hlength
      rw [← toList_strip, hline] at hwidth
      have hcount : (row.cells.flatMap String.toList).count '|' = 0 := by omega
      intro cell hcell hbar
      exact List.count_eq_zero.1 hcount (List.mem_flatMap_of_mem hcell hbar)
    exact ⟨htext ▸ text_eq_written hbars, hbars⟩
  · rintro ⟨hwritten, hbars⟩
    rw [hwritten, text_eq_written hbars]

end Row

/-! ## Steps written again -/

/-- A trimmed text has no white space at its ends. -/
theorem pads_eq_nil {left middle right : List Char} (hleft : ∀ c ∈ left, isBlank c = true)
    (hright : ∀ c ∈ right, isBlank c = true)
    (h : stripChars (left ++ (middle ++ right)) = left ++ (middle ++ right)) :
    left = [] ∧ right = [] := by
  constructor
  · cases left with
    | nil => rfl
    | cons c left =>
      have hc : isBlank c = false := isBlank_of_head?_stripChars (by rw [h]; rfl)
      exact absurd (hleft c List.mem_cons_self) (by simp [hc])
  · by_contra hne
    have hlast : isBlank (right.getLast hne) = false := by
      refine @isBlank_of_getLast?_stripChars (left ++ (middle ++ right)) _ ?_
      rw [h, ← List.append_assoc, List.getLast?_append_of_ne_nil _ hne,
        List.getLast?_eq_some_getLast hne]
    exact absurd (hright _ (List.getLast_mem hne)) (by simp [hlast])

/-- A line that is a step is its keyword and its content with white space in between. -/
theorem exists_gap_of_step {text content : String} {keyword : StepKeyword}
    (htext : strip text = text) (h : Shape.ofText text = .step keyword content) :
    ∃ gap, (∀ c ∈ gap, isBlank c = true) ∧
      text.toList = keyword.word.toList ++ (gap ++ content.toList) := by
  obtain ⟨word, hopens, before, after, hcut, -, hword, hcontent⟩ :
      ∃ word, OpensStep word keyword ∧ IsCutTrimmed ' ' text word content := by
    rcases (Shape.ofText_eq_iff htext).1 h with hshows | ⟨hfree, -⟩
    · cases hshows with
      | step cut opens => exact ⟨_, opens, cut⟩
    · cases hfree
  have hkeyword : word = keyword.word := by cases hopens <;> rfl
  obtain ⟨left, inner, hbefore, hleft, hinner⟩ := exists_pads_of_stripChars before
  obtain ⟨outer, right, hafter, houter, hright⟩ := exists_pads_of_stripChars after
  have hparts : text.toList =
      left ++ (stripChars before ++ (inner ++ ' ' :: outer) ++ stripChars after ++ right) := by
    rw [hcut]
    conv_lhs => rw [hbefore, hafter]
    simp
  -- the line is trimmed, so there is no white space before the keyword or behind the content
  obtain ⟨rfl, rfl⟩ := pads_eq_nil hleft hright (by rw [← hparts, ← toList_strip, htext])
  refine ⟨inner ++ ' ' :: outer, fun c hc => ?_, ?_⟩
  · rcases List.mem_append.1 hc with hc | hc
    · exact hinner c hc
    · rcases List.mem_cons.1 hc with rfl | hc
      · decide
      · exact houter c hc
  · rw [hparts, ← hkeyword, hword, hcontent]
    simp

/-! ## What a cause knows of its line -/

/-- The cause shows a text that was built from a line and is not the line. -/
inductive Cause.Rebuilt (text : String) : Cause → Prop where
  /-- The cells were spaced in another way, or some of their bars were escaped. -/
  | row {labels row : Row} (decoded : Row.decode text = .ok row)
      (other : text ≠ row.written ∨ ∃ cell ∈ row.cells, '|' ∈ cell.toList) :
      Rebuilt text (.arity labels row)
  /-- Not just one space stands between the keyword and the content. -/
  | step {keyword : StepKeyword} {content : String} {gap : List Char}
      (shape : Shape.ofText text = .step keyword content) (blank : ∀ c ∈ gap, isBlank c = true)
      (parts : text.toList = keyword.word.toList ++ (gap ++ content.toList))
      (other : gap ≠ [' ']) : Rebuilt text (.unterminatedPlaceholder keyword content)

/-- How the cause of a fault depends on the text of its line. -/
inductive Cause.Cites (text : String) : Cause → Prop where
  | line {cause : Cause} (shown : cause.line = none ∨ cause.line = some text)
      (copied : ¬cause.Rebuilt text) : Cites text cause
  | row {labels row : Row} (decoded : Row.decode text = .ok row) : Cites text (.arity labels row)
  | step {keyword : StepKeyword} {content : String}
      (shape : Shape.ofText text = .step keyword content) :
      Cites text (.unterminatedPlaceholder keyword content)

/-- The line is not shown as it is exactly if the text is built from it and comes out different. -/
theorem Cause.Cites.line_iff {text : String} {cause : Cause} (htext : strip text = text)
    (h : cause.Cites text) :
    (cause.line = none ∨ cause.line = some text) ↔ ¬cause.Rebuilt text := by
  cases h with
  | line shown copied => exact iff_of_true shown copied
  | @row labels row decoded =>
    have hrow := Row.text_eq_iff_of_decode htext decoded
    simp only [Cause.line, reduceCtorEq, false_or, Option.some.injEq, hrow]
    constructor
    · rintro ⟨hwritten, hbars⟩ hrebuilt
      cases hrebuilt with
      | row _ other =>
        rcases other with hother | ⟨cell, hcell, hbar⟩
        · exact hother hwritten
        · exact hbars cell hcell hbar
    · intro hcopied
      by_contra hother
      rw [Classical.not_and_iff_not_or_not] at hother
      exact hcopied (.row decoded (by simpa using hother))
  | @step keyword content shape =>
    obtain ⟨gap, hblank, hparts⟩ := exists_gap_of_step htext shape
    have hstep : Cause.stepText keyword content = text ↔ gap = [' '] := by
      rw [← String.toList_inj, hparts, Cause.stepText, String.append_assoc, String.toList_append,
        List.append_cancel_left_eq, String.toList_append, List.append_cancel_right_eq, eq_comm]
      rfl
    simp only [Cause.line, reduceCtorEq, false_or, Option.some.injEq, hstep]
    constructor
    · rintro hgap hrebuilt
      cases hrebuilt with
      | step _ _ parts other =>
        rw [hparts, List.append_cancel_left_eq, List.append_cancel_right_eq] at parts
        exact other (parts ▸ hgap)
    · intro hcopied
      by_contra hother
      exact hcopied (.step shape hblank hparts hother)

/-! ## The lines of faults -/

namespace Draft

variable {draft next : Draft} {line held : Line} {lines : List Line} {feature : Feature}
  {fault : Fault} {keyword : GroupKeyword} {title : String} {tags : TagSet}

/-- The line that a draft keeps until what it announces has come. -/
def held? : Draft → Option Line
  | .body _ (.tagged _ last) | .body _ (.outlineTagged _ _ last) => some last
  | .body _ (.labels _ _ header) => some header
  | _ => none

theorem held?_of_openGroup (h : openGroup feature tags line keyword title = .ok next) :
    next.held? = none := by
  rcases openGroup_eq_ok_iff.1 h with ⟨-, -, rfl⟩ | ⟨-, rfl⟩ | ⟨-, rfl⟩ <;> rfl

/-- A line that is kept is the one that was just read. -/
theorem Moves.held?_eq (h : Moves draft line next) (hheld : next.held? = some held) :
    held = line := by
  cases h with
  | group _ _ opens | taggedGroup _ opens | outlineTaggedGroup _ opens =>
    rw [held?_of_openGroup opens] at hheld
    cases hheld
  | preambleTags | preambleText | feature | describe | step | outlineStep | labels | row =>
    cases hheld
  | tags | moreTags | outlineTags | moreOutlineTags | table | taggedTable =>
    cases hheld
    rfl

theorem mem_of_held? (h : start.run lines = .ok draft) (hheld : draft.held? = some held) :
    held ∈ lines := by
  have hstart : ∀ held, start.held? = some held → held ∈ ([] : List Line) := by
    intro held hheld
    cases hheld
  refine run_induction (P := fun draft lines => ∀ held, draft.held? = some held → held ∈ lines)
    (fun draft line next lines hread _ held hheld => ?_) hstart h held hheld
  rw [(read_eq_ok_iff.1 hread).held?_eq hheld]
  exact List.mem_append_right lines (List.mem_singleton_self line)

/-- A fault of the end that has a number is one of the line that is kept. -/
theorem exists_held_of_finish {n : Nat} (h : draft.finish = .error fault)
    (hnumber : fault.number = some n) :
    ∃ held, draft.held? = some held ∧ n = held.number ∧ fault.cause.Cites held.text := by
  rcases draft with _ | ⟨feature, place⟩
  · cases h
    cases hnumber
  · cases place with
    | tagged pending last | outlineTagged outline pending last =>
      cases h
      cases hnumber
      exact ⟨last, rfl, rfl, .line (.inr rfl) nofun⟩
    | labels outline tags header =>
      cases h
      cases hnumber
      exact ⟨header, rfl, rfl, .line (.inl rfl) nofun⟩
    | _ => cases h

theorem cites_of_refusal {place : Place} {shape : Shape} {cause : String → Cause}
    (h : place.refusal? shape = some cause) (text : String) : (cause text).Cites text := by
  unfold Place.refusal? at h
  split at h <;> cases h <;> exact .line (.inr rfl) nofun

theorem cites_of_openGroup (h : openGroup feature tags line keyword title = .error fault) :
    fault.cause.Cites line.text := by
  rcases openGroup_eq_error_iff.1 h with ⟨first, -, -, rfl⟩ | ⟨-, rfl⟩ <;>
    exact .line (.inr rfl) nofun

theorem cites_of_decode_row {text : String} {cause : Cause} (htext : strip text = text)
    (h : Row.decode text = .error cause) : cause.Cites text := by
  rw [cause_of_decode_row h]
  exact .line (.inr (by rw [Cause.line, htext])) nofun

theorem cites_of_decode_step {text content : String} {keyword : StepKeyword} {cause : Cause}
    (shape : Shape.ofText text = .step keyword content)
    (h : Step.decode keyword content = .error cause) : cause.Cites text := by
  unfold Step.decode at h
  split at h <;> cases h
  exact .step shape

/-- Whatever is wrong with a line, the cause depends on its text alone. -/
theorem Fails.cites (h : Fails draft line fault) (htext : strip line.text = line.text)
    (hshape : line.shape = Shape.ofText line.text) : fault.cause.Cites line.text := by
  cases h with
  | preamble | titled | taggedTitled => exact .line (.inr rfl) nofun
  | refused refusal => exact cites_of_refusal refusal line.text
  | step shape decoded | outlineStep shape decoded =>
    exact cites_of_decode_step (hshape.symm.trans shape) decoded
  | labels _ decoded | row _ decoded => exact cites_of_decode_row htext decoded
  | width _ decoded _ => exact .row decoded
  | group _ _ _ fails | taggedGroup _ fails | outlineTaggedGroup _ _ fails =>
    exact cites_of_openGroup fails

end Draft

/-! ## Whole files -/

/-- The lines of a source are its kept lines as they are, which are trimmed. -/
theorem Line.mem_keptLines {source : String} {line : Line} (h : line ∈ Line.ofSource source) :
    (line.number, line.text) ∈ keptLines source ∧ strip line.text = line.text ∧
      line.shape = Shape.ofText line.text := by
  obtain ⟨⟨number, text⟩, hkept, rfl⟩ := List.mem_map.1 h
  have htext : strip text = text := by
    obtain ⟨⟨raw, index⟩, -, hraw⟩ := List.mem_filterMap.1 hkept
    simp only [Option.ite_none_right_eq_some, Option.some.injEq, Prod.mk.injEq] at hraw
    rw [← hraw.2.2, strip_strip]
  rw [Line.text_ofText, Line.shape_ofText, htext]
  exact ⟨hkept, htext, rfl⟩

/-- A line number stands for one text. -/
theorem mem_keptLines_iff {source text other : String} {n : Nat}
    (h : (n, text) ∈ keptLines source) : (n, other) ∈ keptLines source ↔ other = text := by
  constructor
  · intro hother
    have hnodup : ((keptLines source).map Prod.fst).Nodup :=
      List.pairwise_map.2 ((pairwise_keptLines source).imp Nat.ne_of_lt)
    exact (Prod.mk.inj (List.inj_on_of_nodup_map hnodup hother h rfl)).2
  · rintro rfl
    exact h

/-- A fault with a number is one of a kept line, which is the only one of that number. It shows this
    line as it stands, or none, unless it shows a row or a step that is built from the line and
    comes out different. -/
theorem shown_line_of_parse {source : String} {fault : Fault} {n : Nat}
    (h : parse source = .error fault) (hnumber : fault.number = some n) :
    ∃ text, (∀ other, (n, other) ∈ keptLines source ↔ other = text) ∧
      ((fault.diagnostic.line = none ∨ fault.diagnostic.line = some text) ↔
        ¬fault.cause.Rebuilt text) := by
  obtain ⟨line, hline, rfl, hcites⟩ : ∃ line ∈ Line.ofSource source, n = line.number ∧
      (strip line.text = line.text → line.shape = Shape.ofText line.text →
        fault.cause.Cites line.text) := by
    rw [parse, Feature.ofLines_eq, except_bind_eq_error_iff] at h
    rcases h with hrun | ⟨draft, hrun, hfinish⟩
    · obtain ⟨above, line, below, draft, hlines, -, hread⟩ := Draft.run_eq_error_iff.1 hrun
      have hblamed : some n = some line.number :=
        hnumber.symm.trans (Draft.blames_of_read hread).1
      rw [hlines]
      exact ⟨line, by simp, Option.some.inj hblamed, (Draft.fails_of_read hread).cites⟩
    · obtain ⟨held, hheld, hn, hcites⟩ := Draft.exists_held_of_finish hfinish hnumber
      exact ⟨held, Draft.mem_of_held? hrun hheld, hn, fun _ _ => hcites⟩
  obtain ⟨hkept, htext, hshape⟩ := Line.mem_keptLines hline
  exact ⟨line.text, fun other => mem_keptLines_iff hkept, (hcites htext hshape).line_iff htext⟩

/-- A row of one cell below two labels, written without spaces. -/
def narrowRowSource : String := "Feature: f\nScenario Outline: o\nExamples:\n|low|high|\n\n |5|"

/-- The fault of `narrowRowSource`. -/
def narrowRowFault : Fault :=
  ⟨.arity ⟨["low", "high"], by decide⟩ ⟨["5"], by decide⟩, some 6,
    [.feature "f", .outline "o", .block 1]⟩

/-- The row is shown with spaces around its cell. -/
theorem rebuilt_narrowRowSource :
    parse narrowRowSource = .error narrowRowFault ∧ narrowRowFault.number = some 6 ∧
      narrowRowFault.diagnostic.line = some "| 5 |" ∧ narrowRowFault.cause.Rebuilt "|5|" := by
  have hparse : parse narrowRowSource = .error narrowRowFault := by decide +kernel
  have hkept : (6, "|5|") ∈ keptLines narrowRowSource := by decide +kernel
  have hline : narrowRowFault.diagnostic.line = some "| 5 |" := by decide +kernel
  refine ⟨hparse, rfl, hline, ?_⟩
  obtain ⟨text, hunique, hshown⟩ := shown_line_of_parse hparse rfl
  obtain rfl := (hunique "|5|").1 hkept
  rw [hline] at hshown
  by_contra hcopied
  exact absurd (hshown.2 hcopied) (by decide)

/-- A fault shows a text that is no line of the file. -/
theorem not_shown_of_line {source shown : String} {fault : Fault} {n : Nat}
    (hline : fault.diagnostic.line = some shown) (hshown : (n, shown) ∉ keptLines source) :
    ¬∃ text, (n, text) ∈ keptLines source ∧
      (fault.diagnostic.line = none ∨ fault.diagnostic.line = some text) := by
  rintro ⟨text, hkept, hcopied⟩
  rw [hline] at hcopied
  obtain rfl := Option.some.inj (hcopied.resolve_left (by simp))
  exact hshown hkept

/-- A step with two spaces behind its keyword, and an open placeholder. -/
def wideStepSource : String := "Feature: f\nScenario: s\nGiven  a <b"

/-- The fault of `wideStepSource`. -/
def wideStepFault : Fault :=
  ⟨.unterminatedPlaceholder .given "a <b", some 3, [.feature "f", .scenario "s"]⟩

/-- Neither the row nor the step is shown as it stands. -/
theorem not_shown_narrowRow_wideStep :
    (parse narrowRowSource = .error narrowRowFault ∧ narrowRowFault.number = some 6 ∧
      ¬∃ text, (6, text) ∈ keptLines narrowRowSource ∧
        (narrowRowFault.diagnostic.line = none ∨ narrowRowFault.diagnostic.line = some text)) ∧
    parse wideStepSource = .error wideStepFault ∧ wideStepFault.number = some 3 ∧
      ¬∃ text, (3, text) ∈ keptLines wideStepSource ∧
        (wideStepFault.diagnostic.line = none ∨ wideStepFault.diagnostic.line = some text) := by
  refine ⟨⟨by decide +kernel, rfl, ?_⟩, by decide +kernel, rfl, ?_⟩
  · have hline : narrowRowFault.diagnostic.line = some "| 5 |" := by decide +kernel
    exact not_shown_of_line hline (by decide +kernel)
  · have hline : wideStepFault.diagnostic.line = some "Given a <b" := by decide +kernel
    exact not_shown_of_line hline (by decide +kernel)

end FeatureFile
