import FeatureFile.Proofs.Presentation

set_option autoImplicit false

/-! # Writing what is read

A row is written between bars, with a backslash before every bar of a cell, and a step with its
placeholders in brackets. Reading undoes writing for all cells and steps that reading can give at
all, and these are described here without the decoders: a cell is trimmed, and each of its bars
stands behind an even number of backslashes (`Row.IsNormal`); a step is trimmed, and has no opening
bracket in a literal and no closing one in a placeholder (`Step.IsNormal`). The main results are
`Row.decode_written_cells` and `Step.decode_step_text`. -/

namespace FeatureFile

open Text

namespace Row

/-! ## Escaped bars -/

/-- All bars of a text are escaped, or none is, as `escaped` says; `flag` says it of the first
    character. -/
def AllBars (escaped : Bool) : Bool → List Char → Prop
  | _, [] => True
  | flag, c :: cs => (c = '|' → flag = escaped) ∧ AllBars escaped (!flag && c == '\\') cs

instance decidableAllBars (escaped : Bool) :
    (flag : Bool) → (cs : List Char) → Decidable (AllBars escaped flag cs)
  | _, [] => inferInstanceAs (Decidable True)
  | flag, c :: cs =>
    have := decidableAllBars escaped (!flag && c == '\\') cs
    inferInstanceAs (Decidable ((c = '|' → flag = escaped) ∧ _))

/-- A bar is escaped exactly if an odd number of backslashes stands right before it. -/
theorem allBars_iff {escaped : Bool} {above cs : List Char} :
    AllBars escaped (flagBehind above) cs ↔
      ∀ before after, cs = before ++ '|' :: after → flagBehind (above ++ before) = escaped := by
  induction cs generalizing above with
  | nil => simp [AllBars]
  | cons c cs ih =>
    rw [AllBars, ← flagBehind_append, ih]
    constructor
    · rintro ⟨hfirst, hrest⟩ before after h
      cases before with
      | nil =>
        obtain ⟨hc, -⟩ := List.cons.inj h
        rw [List.append_nil]
        exact hfirst hc
      | cons b before =>
        obtain ⟨rfl, hcs⟩ := List.cons.inj h
        rw [List.append_cons]
        exact hrest before after hcs
    · intro h
      refine ⟨fun hc => ?_, fun before after hcs => ?_⟩
      · have hflag := h [] cs (by rw [hc]; rfl)
        rwa [List.append_nil] at hflag
      · rw [← List.append_cons]
        exact h (c :: before) after (by rw [hcs]; rfl)

section Texts

variable {escaped flag : Bool} {cs ds : List Char}

theorem AllBars.of_append (h : AllBars escaped flag (cs ++ ds)) : AllBars escaped flag cs := by
  induction cs generalizing flag with
  | nil => trivial
  | cons c cs ih => exact ⟨h.1, ih h.2⟩

/-- A bar at the start of a text is escaped only by what stands before it. -/
theorem AllBars.head?_ne (h : AllBars true false cs) : cs.head? ≠ some '|' := by
  intro hbar
  obtain ⟨rest, rfl⟩ := List.head?_eq_some_iff.1 hbar
  exact absurd (h.1 rfl) (by decide)

/-- No blank is a backslash, so trimming takes no bar its escape. -/
theorem AllBars.stripChars (h : AllBars escaped false cs) :
    AllBars escaped false (stripChars cs) := by
  have hfront : AllBars escaped false (cs.dropWhile isBlank) := by
    induction cs with
    | nil => trivial
    | cons c cs ih =>
      by_cases hc : isBlank c = true
      · have hslash : (c == '\\') = false := by
          refine beq_false_of_ne ?_
          rintro rfl
          exact absurd hc (by decide)
        rw [List.dropWhile_cons_of_pos hc]
        exact ih (by simpa [hslash] using h.2)
      · rwa [List.dropWhile_cons_of_neg hc]
  obtain ⟨cut, hcut⟩ := stripChars_prefix cs
  rw [← hcut] at hfront
  exact hfront.of_append

/-- A segment goes from one unescaped bar to the next, so all its own bars are escaped. -/
theorem allBars_segments {first : List Char} {rest : List (List Char)}
    (h : segments flag cs = first :: rest) :
    AllBars true flag first ∧ ∀ segment ∈ rest, AllBars true false segment := by
  induction cs generalizing flag first rest with
  | nil =>
    obtain ⟨rfl, rfl⟩ := List.cons.inj h
    exact ⟨trivial, by simp⟩
  | cons c cs ih =>
    rw [segments_cons] at h
    split at h
    · obtain ⟨rfl, rfl⟩ := List.cons.inj h
      obtain ⟨second, more, hmore⟩ := List.exists_cons_of_ne_nil (segments_ne_nil false cs)
      rw [hmore, List.forall_mem_cons]
      exact ⟨trivial, ih hmore⟩
    · next hbar =>
      obtain ⟨piece, more, hmore⟩ :=
        List.exists_cons_of_ne_nil (segments_ne_nil (!flag && c == '\\') cs)
      rw [hmore] at h
      obtain ⟨rfl, rfl⟩ := List.cons.inj h
      obtain ⟨hpiece, hrest⟩ := ih hmore
      have hfirst : c = '|' → flag = true := by
        intro hc
        exact Bool.of_not_eq_false fun hflag => hbar ⟨hc, hflag⟩
      exact ⟨⟨hfirst, hpiece⟩, hrest⟩

theorem allBars_of_mem_segments {segment : List Char} (h : segment ∈ segments false cs) :
    AllBars true false segment := by
  obtain ⟨first, rest, hsegments⟩ := List.exists_cons_of_ne_nil (segments_ne_nil false cs)
  obtain ⟨hfirst, hrest⟩ := allBars_segments hsegments
  rw [hsegments] at h
  exact List.forall_mem_cons.2 ⟨hfirst, hrest⟩ segment h

/-- A segment ends at the bar behind it; the blank before that bar keeps it from being escaped. -/
theorem segments_append_bar_of_allBars (h : AllBars true flag cs) (rest : List Char) :
    segments flag (cs ++ ' ' :: '|' :: rest) = (cs ++ [' ']) :: segments false rest := by
  induction cs generalizing flag with
  | nil => simp [segments_cons, consFirst]
  | cons c cs ih =>
    have hbar : ¬(c = '|' ∧ flag = false) := by
      rintro ⟨hc, hflag⟩
      exact absurd (hflag.symm.trans (h.1 hc)) (by decide)
    rw [List.cons_append, segments_cons, if_neg hbar, ih h.2]
    rfl

/-! ## Escaping -/

/-- Writes a backslash before every bar. -/
def escape (cs : List Char) : List Char := cs.flatMap fun c => if c = '|' then ['\\', c] else [c]

theorem escape_cons_bar (cs : List Char) : escape ('|' :: cs) = '\\' :: '|' :: escape cs := rfl

theorem escape_cons {c : Char} (h : c ≠ '|') (cs : List Char) :
    escape (c :: cs) = c :: escape cs := by
  rw [escape, List.flatMap_cons, if_neg h]
  rfl

theorem head?_escape (cs : List Char) : (escape cs).head? ≠ some '|' := by
  cases cs with
  | nil => simp [escape]
  | cons c cs =>
    by_cases hc : c = '|'
    · rw [hc, escape_cons_bar]
      simp
    · rw [escape_cons hc, List.head?_cons]
      simpa using hc

theorem unescape_cons {c : Char} (h : c = '\\' → cs.head? ≠ some '|') :
    unescape (c :: cs) = c :: unescape cs := by
  rw [unescape]
  rintro rest hc rfl
  exact h hc rfl

theorem unescape_escape (cs : List Char) : unescape (escape cs) = cs := by
  induction cs with
  | nil => rfl
  | cons c cs ih =>
    by_cases hc : c = '|'
    · rw [hc, escape_cons_bar, unescape, ih]
    · rw [escape_cons hc, unescape_cons fun _ => head?_escape cs, ih]

/-- The backslash that is written before a bar makes its flag the other one. -/
theorem allBars_escape_iff : AllBars true flag (escape cs) ↔ AllBars false flag cs := by
  induction cs generalizing flag with
  | nil => rfl
  | cons c cs ih =>
    by_cases hc : c = '|'
    · simp [hc, escape_cons_bar, AllBars, ih]
    · simp [escape_cons hc, AllBars, hc, ih]

/-- If all bars are escaped, each has a backslash before it, which escaping puts back. -/
theorem escape_unescape (h : AllBars true flag cs) (hhead : cs.head? ≠ some '|') :
    escape (unescape cs) = cs := by
  fun_induction unescape cs generalizing flag with
  | case1 => rfl
  | case2 cs ih =>
    have hrest : AllBars true false cs := by simpa using h.2.2
    rw [escape_cons_bar, ih hrest hrest.head?_ne]
  | case3 c cs hpair ih =>
    have hc : c ≠ '|' := by simpa using hhead
    -- a bar right behind a character that is no backslash would not be escaped
    have hnext : cs.head? ≠ some '|' := by
      intro hbar
      obtain ⟨rest, rfl⟩ := List.head?_eq_some_iff.1 hbar
      have hslash : (c == '\\') = false := beq_false_of_ne fun hslash => hpair rest hslash rfl
      have hflag := h.2.1 rfl
      simp [hslash] at hflag
    rw [escape_cons hc, ih h.2 hnext]

end Texts

/-! ## Cells -/

/-- A cell as it can be read: trimmed, and each bar directly behind an even number of
    backslashes. -/
structure IsNormal (cell : String) : Prop where
  trimmed : strip cell = cell
  bars : ∀ before after, cell.toList = before ++ '|' :: after → slashesAtEnd before % 2 = 0

theorem isNormal_iff {cell : String} :
    IsNormal cell ↔ strip cell = cell ∧ AllBars false false cell.toList := by
  have hbars : AllBars false false cell.toList ↔ ∀ before after,
      cell.toList = before ++ '|' :: after → slashesAtEnd before % 2 = 0 := by
    have hflag : ∀ before, flagBehind before = false ↔ slashesAtEnd before % 2 = 0 := by
      simp [flagBehind]
    have hall := @allBars_iff false [] cell.toList
    simp only [List.nil_append, hflag] at hall
    exact hall
  rw [hbars]
  exact ⟨fun h => ⟨h.trimmed, h.bars⟩, fun h => ⟨h.1, h.2⟩⟩

instance (cell : String) : Decidable (IsNormal cell) := decidable_of_iff _ isNormal_iff.symm

theorem getLast?_escape (cs : List Char) : (escape cs).getLast? = cs.getLast? := by
  rw [← getLast?_unescape, unescape_escape]

/-- Escaping a trimmed cell leaves it trimmed. -/
theorem stripChars_escape {cs : List Char} (h : stripChars cs = cs) :
    stripChars (escape cs) = escape cs := by
  refine stripChars_of_ends (fun c hc => ?_) (fun c hc => ?_)
  · cases cs with
    | nil => simp [escape] at hc
    | cons d cs =>
      by_cases hd : d = '|'
      · rw [hd, escape_cons_bar, List.head?_cons, Option.some.injEq] at hc
        rw [← hc]
        decide
      · rw [escape_cons hd, List.head?_cons] at hc
        exact @isBlank_of_head?_stripChars (d :: cs) c (by rw [h]; exact hc)
  · rw [getLast?_escape] at hc
    exact @isBlank_of_getLast?_stripChars cs c (by rw [h]; exact hc)

/-- A cell that is read is normal: its bars were escaped, and have lost one backslash each. -/
theorem isNormal_of_decode {line cell : String} {row : Row} (h : decode line = .ok row)
    (hcell : cell ∈ row.cells) : IsNormal cell := by
  refine isNormal_iff.2 ⟨strip_of_mem_cells h hcell, ?_⟩
  obtain ⟨segment, hsegment, rfl⟩ := exists_segment_of_mem_cells h hcell
  have hescaped : AllBars true false (stripChars segment) :=
    (allBars_of_mem_segments hsegment).stripChars
  rw [String.toList_ofList, ← allBars_escape_iff, escape_unescape hescaped hescaped.head?_ne]
  exact hescaped

/-! ## Rows -/

/-- A row as a line of a table, with the bars inside its cells escaped. -/
def written (row : Row) : String :=
  "| " ++ String.intercalate " | " (row.cells.map fun cell => String.ofList (escape cell.toList)) ++
    " |"

/-- A cell in its line, from the bar before it to the bar behind it. -/
def padded (cell : String) : List Char := ' ' :: (escape cell.toList ++ [' '])

/-- A line of cells between bars, cell by cell. -/
theorem toList_barred {cells : List String} (h : cells ≠ []) :
    ("| " ++ String.intercalate " | " cells ++ " |").toList =
      '|' :: cells.flatMap fun cell => ' ' :: (cell.toList ++ [' ', '|']) := by
  have hcells : ' ' :: ((String.intercalate " | " cells).toList ++ [' ', '|']) =
      cells.flatMap fun cell => ' ' :: (cell.toList ++ [' ', '|']) := by
    induction cells with
    | nil => exact absurd rfl h
    | cons cell cells ih =>
      cases cells with
      | nil => simp
      | cons next cells =>
        rw [List.flatMap_cons, ← ih (by simp), String.intercalate_cons_cons]
        simp
  rw [← hcells]
  simp

theorem toList_written (row : Row) :
    row.written.toList = '|' :: row.cells.flatMap fun cell => padded cell ++ ['|'] := by
  rw [written, toList_barred (by simpa using row.nonempty), List.flatMap_map]
  simp [padded]

/-- The cells of the line are its segments, but for the empty ones before and behind the row. -/
theorem segments_written {row : Row} (h : ∀ cell ∈ row.cells, IsNormal cell) :
    segments false row.written.toList = [] :: (row.cells.map padded ++ [[]]) := by
  have hcells : ∀ cells : List String, (∀ cell ∈ cells, IsNormal cell) →
      segments false (cells.flatMap fun cell => padded cell ++ ['|']) =
        cells.map padded ++ [[]] := by
    intro cells hnormal
    induction cells with
    | nil => rfl
    | cons cell cells ih =>
      rw [List.forall_mem_cons] at hnormal
      have hbars : AllBars true false (' ' :: escape cell.toList) :=
        ⟨by simp, allBars_escape_iff.2 (isNormal_iff.1 hnormal.1).2⟩
      have hsplit : ∀ rest, padded cell ++ ['|'] ++ rest =
          (' ' :: escape cell.toList) ++ ' ' :: '|' :: rest := by simp [padded]
      rw [List.flatMap_cons, hsplit, segments_append_bar_of_allBars hbars, ih hnormal.2]
      rfl
  rw [toList_written, segments_cons, if_pos ⟨rfl, rfl⟩, hcells row.cells h]

theorem stripChars_written (row : Row) : stripChars row.written.toList = row.written.toList := by
  refine stripChars_of_ends (fun c hc => ?_) (fun c hc => ?_)
  · rw [toList_written, List.head?_cons, Option.some.injEq] at hc
    rw [← hc]
    decide
  · have hlast : row.written.toList.getLast? = some '|' := by
      rw [written, String.toList_append, List.getLast?_append_of_ne_nil _ (by decide)]
      rfl
    rw [hlast, Option.some.injEq] at hc
    rw [← hc]
    decide

theorem stripChars_padded {cell : String} (h : strip cell = cell) :
    stripChars (padded cell) = escape cell.toList := by
  have hblank : IsPadding [' '] := by
    intro c hc
    rw [List.mem_singleton.1 hc]
    decide
  have hcell : stripChars cell.toList = cell.toList := by rw [← toList_strip, h]
  have hpadded : padded cell = [' '] ++ escape cell.toList ++ [' '] := rfl
  rw [hpadded, stripChars_pad hblank hblank, stripChars_escape hcell]

/-- A row of normal cells is read as it was written. -/
theorem decode_written {row : Row} (h : ∀ cell ∈ row.cells, IsNormal cell) :
    decode row.written = .ok row := by
  have hcell : ∀ cell ∈ row.cells,
      String.ofList (unescape (stripChars (padded cell))) = cell := by
    intro cell hmem
    rw [stripChars_padded (h cell hmem).trimmed, unescape_escape, String.ofList_toList]
  have hcells : (cellChars (stripChars row.written.toList)).map String.ofList = row.cells := by
    rw [stripChars_written, cellChars, segments_written h, List.tail_cons, List.dropLast_concat,
      List.map_map, List.map_map]
    exact (List.map_congr_left hcell).trans (List.map_id _)
  rw [decode, hcells, ofCells?, dif_pos row.nonempty]

/-- A line that cannot be read has fewer than two unescaped bars. -/
theorem decode_eq_error_iff {line : String} :
    decode line = .error (.malformedRow (strip line)) ↔
      unescapedBars (stripChars line.toList) < 2 := by
  rw [← Nat.not_le, ← decode_isOk_iff]
  cases h : decode line with
  | ok row => simp
  | error cause => simp [cause_of_decode_row h]

theorem width_of_decode {line : String} {row : Row} (h : decode line = .ok row) :
    row.width + 1 = unescapedBars (stripChars line.toList) := by
  have hbars : 2 ≤ unescapedBars (stripChars line.toList) := decode_isOk_iff.1 ⟨row, h⟩
  rw [width, cells_of_decode h, List.length_map, length_cellChars]
  omega

/-- Reading and writing rows. A row of normal cells is read as it was written. Whatever is read is
    such a row, so writing and reading it again changes nothing. A line is refused exactly if it has
    fewer than two unescaped bars, and has one cell fewer than unescaped bars otherwise. -/
theorem decode_written_cells :
    (∀ row : Row, (∀ cell ∈ row.cells, IsNormal cell) → decode row.written = .ok row) ∧
    (∀ line row, decode line = .ok row →
      (∀ cell ∈ row.cells, IsNormal cell) ∧ decode row.written = .ok row) ∧
    ∀ line,
      (decode line = .error (.malformedRow (strip line)) ↔
        unescapedBars (stripChars line.toList) < 2) ∧
      (2 ≤ unescapedBars (stripChars line.toList) →
        ∃ row, decode line = .ok row ∧ row.width + 1 = unescapedBars (stripChars line.toList)) := by
  refine ⟨fun row => decode_written, ?_, ?_⟩
  · intro line row h
    have hnormal : ∀ cell ∈ row.cells, IsNormal cell := fun cell => isNormal_of_decode h
    exact ⟨hnormal, decode_written hnormal⟩
  · intro line
    refine ⟨decode_eq_error_iff, fun hbars => ?_⟩
    obtain ⟨row, hrow⟩ := decode_isOk_iff.2 hbars
    exact ⟨row, hrow, width_of_decode hrow⟩

/-- A row with an empty cell, bars behind none and two backslashes, and a backslash at the end of a
    cell. -/
def slashedRow : Row := ⟨["", "|", "a\\\\|b\\", "c\\ d"], by decide⟩

/-- The row is read as it was written, and so is what is read of a line with text outside of its
    bars, escaped ones among these. -/
theorem decode_written_slashedRow :
    (∀ cell ∈ slashedRow.cells, IsNormal cell) ∧
    slashedRow.written = "|  | \\| | a\\\\\\|b\\ | c\\ d |" ∧
    decode slashedRow.written = .ok slashedRow ∧
    decode " x |a\\|b|\\\\| y\\| " = .ok ⟨["a|b", "\\\\"], by decide⟩ ∧
    decode (written ⟨["a|b", "\\\\"], by decide⟩) = .ok ⟨["a|b", "\\\\"], by decide⟩ ∧
    unescapedBars (stripChars "|a\\|".toList) < 2 ∧
    decode "|a\\|" = .error (.malformedRow "|a\\|") := by
  have hnormal : ∀ cell ∈ slashedRow.cells, IsNormal cell := by decide +kernel
  have hread : decode " x |a\\|b|\\\\| y\\| " = .ok ⟨["a|b", "\\\\"], by decide⟩ := by
    decide +kernel
  have hfew : unescapedBars (stripChars "|a\\|".toList) < 2 := by decide +kernel
  obtain ⟨hwritten, hnormalized, hcounted⟩ := decode_written_cells
  exact ⟨hnormal, by decide +kernel, hwritten slashedRow hnormal, hread,
    (hnormalized _ _ hread).2, hfew, (hcounted "|a\\|").1.2 hfew⟩

end Row

namespace Step

/-! ## Steps -/

/-- A step as it can be read: a bracket neither opens a placeholder inside a literal nor closes one
    before its end, and the text is trimmed. -/
structure IsNormal (step : Step) : Prop where
  literals : ∀ t ∈ step.literals, '<' ∉ t.toList
  placeholders : ∀ t ∈ step.placeholders, '>' ∉ t.toList
  trimmed : strip step.text = step.text

instance (step : Step) : Decidable step.IsNormal :=
  decidable_of_iff
    ((∀ t ∈ step.literals, '<' ∉ t.toList) ∧ (∀ t ∈ step.placeholders, '>' ∉ t.toList) ∧
      strip step.text = step.text)
    ⟨fun h => ⟨h.1, h.2.1, h.2.2⟩, fun h => ⟨h.literals, h.placeholders, h.trimmed⟩⟩

/-- Characters before the next opening bracket belong to the literal. -/
theorem literalChars_append {lead : List Char} (h : '<' ∉ lead) (cs : List Char) :
    literalChars (lead ++ cs) = (literalChars cs).map fun rest => (lead ++ rest.1, rest.2) := by
  induction lead with
  | nil => simp
  | cons c lead ih =>
    rw [List.mem_cons, not_or] at h
    rw [List.cons_append, literalChars, if_neg (Ne.symm h.1), ih h.2, Option.map_map]
    rfl

/-- Characters before the next closing bracket belong to the placeholder. -/
theorem placeholderChars_append {name : List Char} (h : '>' ∉ name) (cs : List Char) :
    placeholderChars (name ++ '>' :: cs) =
      (literalChars cs).map fun rest => (name, rest.1) :: rest.2 := by
  induction name with
  | nil => rw [List.nil_append, placeholderChars, if_pos rfl]
  | cons c name ih =>
    rw [List.mem_cons, not_or] at h
    rw [List.cons_append, placeholderChars, if_neg (Ne.symm h.1), ih h.2, Option.map_map]
    rfl

/-- Literals and placeholders that avoid each other's brackets are cut where they were joined. -/
theorem literalChars_slotChars {lead : List Char} {slots : List (List Char × List Char)}
    (hlead : '<' ∉ lead) (hslots : ∀ slot ∈ slots, '>' ∉ slot.1 ∧ '<' ∉ slot.2) :
    literalChars (lead ++ slotChars slots) = some (lead, slots) := by
  induction slots generalizing lead with
  | nil =>
    rw [literalChars_append hlead]
    simp [slotChars, literalChars]
  | cons slot slots ih =>
    rw [List.forall_mem_cons] at hslots
    obtain ⟨⟨hname, hliteral⟩, hrest⟩ := hslots
    have hchars : slotChars (slot :: slots) =
        '<' :: (slot.1 ++ '>' :: (slot.2 ++ slotChars slots)) := by simp [slotChars]
    rw [literalChars_append hlead, hchars, literalChars, if_pos rfl,
      placeholderChars_append hname, ih hliteral hrest]
    simp

theorem toList_text (step : Step) :
    step.text.toList = step.lead.toList ++
      slotChars (step.slots.map fun slot => (slot.1.toList, slot.2.toList)) := by
  rw [text, String.toList_append, ← toList_join_slots, List.map_map]
  simp only [Function.comp_def, String.ofList_toList]

theorem literalChars_text {step : Step} (h : step.IsNormal) :
    literalChars step.text.toList =
      some (step.lead.toList, step.slots.map fun slot => (slot.1.toList, slot.2.toList)) := by
  have hliterals := h.literals
  have hplaceholders := h.placeholders
  rw [Step.literals, List.forall_mem_cons, List.forall_mem_map] at hliterals
  rw [Step.placeholders, List.forall_mem_map] at hplaceholders
  rw [toList_text]
  refine literalChars_slotChars hliterals.1 ?_
  rw [List.forall_mem_map]
  exact fun slot hslot => ⟨hplaceholders slot hslot, hliterals.2 slot hslot⟩

/-- A content is read as a step exactly if that step is normal and has the content for its text. -/
theorem decode_eq_ok_iff {keyword : StepKeyword} {content : String} {step : Step} :
    decode keyword content = .ok step ↔
      step.keyword = keyword ∧ step.text = strip content ∧ step.IsNormal := by
  constructor
  · intro h
    have htext : step.text = strip content := text_of_decode h
    have htrimmed : strip step.text = step.text := by
      rw [htext, strip, toList_strip, stripChars_stripChars, strip]
    obtain ⟨hliterals, hplaceholders⟩ := brackets_of_decode h
    exact ⟨keyword_of_decode h, htext, hliterals, hplaceholders, htrimmed⟩
  · rintro ⟨rfl, htext, hnormal⟩
    have hcut := literalChars_text hnormal
    rw [htext, toList_strip] at hcut
    rw [decode, hcut]
    simp [Function.comp_def]

/-- A content is refused exactly if no normal step has it for its text. -/
theorem decode_eq_error_iff {keyword : StepKeyword} {content : String} :
    decode keyword content = .error (.unterminatedPlaceholder keyword content) ↔
      ¬∃ step : Step, step.IsNormal ∧ step.text = strip content := by
  constructor
  · rintro h ⟨step, hnormal, htext⟩
    have hread : decode keyword content = .ok { step with keyword := keyword } :=
      decode_eq_ok_iff.2 ⟨rfl, htext, hnormal.literals, hnormal.placeholders, hnormal.trimmed⟩
    rw [h] at hread
    cases hread
  · intro h
    cases hread : decode keyword content with
    | ok step =>
      obtain ⟨-, htext, hnormal⟩ := decode_eq_ok_iff.1 hread
      exact absurd ⟨step, hnormal, htext⟩ h
    | error cause =>
      unfold decode at hread
      split at hread <;> cases hread
      rfl

/-- Reading a step and taking its text are inverse to each other. A step that is read has the
    keyword and the trimmed content that it was read from, and no bracket inside its parts; a step
    with no bracket inside its parts and a trimmed text is read from its own text. So a content is
    refused exactly if it is the text of no such step. -/
theorem decode_step_text :
    (∀ keyword content step, decode keyword content = .ok step →
      step.keyword = keyword ∧ step.text = strip content ∧
        (∀ t ∈ step.literals, '<' ∉ t.toList) ∧ ∀ t ∈ step.placeholders, '>' ∉ t.toList) ∧
    (∀ step : Step, step.IsNormal → decode step.keyword step.text = .ok step) ∧
    ∀ keyword content,
      decode keyword content = .error (.unterminatedPlaceholder keyword content) ↔
        ¬∃ step : Step, step.IsNormal ∧ step.text = strip content := by
  refine ⟨?_, ?_, fun keyword content => decode_eq_error_iff⟩
  · intro keyword content step h
    obtain ⟨hkeyword, htext, hnormal⟩ := decode_eq_ok_iff.1 h
    exact ⟨hkeyword, htext, hnormal.literals, hnormal.placeholders⟩
  · intro step h
    exact decode_eq_ok_iff.2 ⟨rfl, h.trimmed.symm, h⟩

/-- A step with brackets of the other kind in its parts, and empty parts. -/
def bracketedStep : Step := ⟨.when_, "a > b", [("", ""), ("x<y", " >")]⟩

theorem decode_bracketedStep_text :
    bracketedStep.IsNormal ∧ bracketedStep.text = "a > b<><x<y> >" ∧
    decode .when_ "a > b<><x<y> >" = .ok bracketedStep ∧
    decode .but " a<b " = .error (.unterminatedPlaceholder .but " a<b ") ∧
    ¬∃ step : Step, step.IsNormal ∧ step.text = "a<b" := by
  have hnormal : bracketedStep.IsNormal := by decide +kernel
  have hrefused : decode .but " a<b " = .error (.unterminatedPlaceholder .but " a<b ") := by
    decide +kernel
  obtain ⟨-, hread, hfails⟩ := decode_step_text
  exact ⟨hnormal, by decide +kernel, hread bracketedStep hnormal, hrefused,
    (hfails .but " a<b ").1 hrefused⟩

end Step

end FeatureFile
