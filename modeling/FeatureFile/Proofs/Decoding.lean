import FeatureFile.Step
import FeatureFile.Table
import Mathlib.Data.List.DropRight

set_option autoImplicit false

/-! # When steps and rows can be read

A step can be read if every bracket that opens a placeholder is closed, and a table row if it has
two unescaped bars. Both conditions are stated here on the characters alone, and then proved to be
what the two decoders accept. A step that is read has its own text. -/

namespace FeatureFile

open Text

namespace Step

/-! ## Placeholders -/

/-- Every opening bracket has a closing one somewhere after it. -/
def PlaceholdersClosed (cs : List Char) : Prop :=
  ∀ before after, cs = before ++ '<' :: after → '>' ∈ after

theorem placeholdersClosed_nil : PlaceholdersClosed [] := by
  intro before after h
  simp at h

theorem placeholdersClosed_cons_iff {c : Char} {cs : List Char} :
    PlaceholdersClosed (c :: cs) ↔ (c = '<' → '>' ∈ cs) ∧ PlaceholdersClosed cs := by
  constructor
  · intro h
    refine ⟨fun hc => h [] cs (by rw [hc]; rfl), fun before after hcs => ?_⟩
    exact h (c :: before) after (by rw [hcs]; rfl)
  · rintro ⟨hopen, hrest⟩ before after h
    cases before with
    | nil =>
      simp only [List.nil_append, List.cons.injEq] at h
      exact h.2 ▸ hopen h.1
    | cons b before =>
      simp only [List.cons_append, List.cons.injEq] at h
      exact hrest before after h.2

/-- A text can be cut at its placeholders exactly if they are all closed; from inside a placeholder,
    if moreover that one is closed. -/
theorem isSome_cut_iff (cs : List Char) :
    ((literalChars cs).isSome ↔ PlaceholdersClosed cs) ∧
      ((placeholderChars cs).isSome ↔ '>' ∈ cs ∧ PlaceholdersClosed cs) := by
  induction cs with
  | nil => simp [literalChars, placeholderChars, placeholdersClosed_nil]
  | cons c cs ih =>
    obtain ⟨hliteral, hplaceholder⟩ := ih
    rw [placeholdersClosed_cons_iff]
    constructor
    · by_cases hc : c = '<'
      · simp [literalChars, hc, hplaceholder]
      · simp [literalChars, hc, hliteral]
    · by_cases hc : c = '>'
      · simp [placeholderChars, hc, hliteral]
      · have hmem : '>' ∈ c :: cs ↔ '>' ∈ cs := by simp [Ne.symm hc]
        simp only [placeholderChars, hc, if_false, Option.isSome_map, hplaceholder, hmem]
        tauto

/-- The content of a step line is read exactly if all its placeholders are closed. -/
theorem decode_isOk_iff {keyword : StepKeyword} {content : String} :
    (∃ step, decode keyword content = .ok step) ↔
      PlaceholdersClosed (stripChars content.toList) := by
  rw [← (isSome_cut_iff _).1]
  unfold decode
  cases literalChars (stripChars content.toList) <;> simp

/-! ## The text of a step -/

/-- The characters of the placeholders and of the literals after them. -/
def slotChars (slots : List (List Char × List Char)) : List Char :=
  slots.flatMap fun slot => '<' :: (slot.1 ++ '>' :: slot.2)

/-- Cutting a text at its placeholders loses nothing; from inside a placeholder only its opening
    bracket is missing. -/
theorem chars_of_cut (cs : List Char) :
    (∀ lead slots, literalChars cs = some (lead, slots) → lead ++ slotChars slots = cs) ∧
      (∀ slots, placeholderChars cs = some slots → slotChars slots = '<' :: cs) := by
  induction cs with
  | nil => simp [literalChars, placeholderChars, slotChars]
  | cons c cs ih =>
    obtain ⟨hliteral, hplaceholder⟩ := ih
    constructor
    · intro lead slots h
      rw [literalChars] at h
      split at h
      · next hc =>
        obtain ⟨more, hmore, heq⟩ := Option.map_eq_some_iff.1 h
        simp only [Prod.mk.injEq] at heq
        obtain ⟨rfl, rfl⟩ := heq
        rw [hplaceholder more hmore, hc]
        rfl
      · obtain ⟨rest, hrest, heq⟩ := Option.map_eq_some_iff.1 h
        cases heq
        rw [List.cons_append, hliteral rest.1 rest.2 hrest]
    · intro slots h
      rw [placeholderChars] at h
      split at h
      · next hc =>
        obtain ⟨rest, hrest, rfl⟩ := Option.map_eq_some_iff.1 h
        have := hliteral rest.1 rest.2 hrest
        simp only [slotChars, List.flatMap_cons] at this ⊢
        simp [this, hc]
      · obtain ⟨more, hmore, rfl⟩ := Option.map_eq_some_iff.1 h
        have := hplaceholder more hmore
        cases more with
        | nil => simp [slotChars] at this
        | cons slot rest =>
          simp only [slotChars, List.flatMap_cons, List.cons_append, List.cons.injEq,
            true_and] at this ⊢
          rw [this]

theorem toList_join_slots (slots : List (List Char × List Char)) :
    (String.join (slots.map fun slot =>
      "<" ++ String.ofList slot.1 ++ ">" ++ String.ofList slot.2)).toList = slotChars slots := by
  induction slots with
  | nil => simp [slotChars]
  | cons slot rest ih =>
    simp only [List.map_cons, String.join_cons, String.toList_append, ih, String.toList_ofList]
    simp [slotChars]

/-- A step that is read has the text of its line, without the blanks at its ends. -/
theorem text_of_decode {keyword : StepKeyword} {content : String} {step : Step}
    (h : decode keyword content = .ok step) : step.text = strip content := by
  unfold decode at h
  split at h
  · simp at h
  · next lead slots hcut =>
    cases h
    apply String.toList_injective
    have := (chars_of_cut _).1 lead slots hcut
    simp only [text, String.toList_append, String.toList_ofList, List.map_map, toList_strip,
      Function.comp_def, toList_join_slots]
    exact this

end Step

namespace Row

/-! ## Unescaped bars -/

/-- The number of backslashes at the end of a text. -/
def slashesAtEnd (cs : List Char) : Nat := (cs.rtakeWhile fun c => c == '\\').length

/-- The number of unescaped bars in a text below `before`: those right behind an even number of
    backslashes. -/
def barsBelow (before : List Char) : List Char → Nat
  | [] => 0
  | c :: cs =>
    (if c = '|' ∧ slashesAtEnd before % 2 = 0 then 1 else 0) + barsBelow (before ++ [c]) cs

/-- The number of unescaped bars in a text. -/
def unescapedBars (cs : List Char) : Nat := barsBelow [] cs

theorem slashesAtEnd_append (cs : List Char) (c : Char) :
    slashesAtEnd (cs ++ [c]) = if c = '\\' then slashesAtEnd cs + 1 else 0 := by
  rw [slashesAtEnd, List.rtakeWhile_concat]
  by_cases hc : c = '\\' <;> simp [hc, slashesAtEnd]

theorem length_consFirst {c : Char} {pieces : List (List Char)} (h : pieces ≠ []) :
    (consFirst c pieces).length = pieces.length := by
  cases pieces with
  | nil => exact absurd rfl h
  | cons piece rest => rfl

theorem segments_ne_nil (escaped : Bool) (cs : List Char) : segments escaped cs ≠ [] := by
  cases cs with
  | nil => simp [segments]
  | cons c cs =>
    rw [segments]
    split_ifs <;> cases segments _ cs <;> simp [consFirst]

/-- One character of the scan: an unescaped bar starts a segment, and only an unescaped backslash
    escapes what follows. -/
theorem segments_cons (escaped : Bool) (c : Char) (cs : List Char) :
    segments escaped (c :: cs) =
      if c = '|' ∧ escaped = false then [] :: segments false cs
      else consFirst c (segments (!escaped && c == '\\') cs) := by
  rw [segments]
  cases escaped with
  | true => simp
  | false =>
    by_cases hslash : c = '\\'
    · simp [hslash]
    · by_cases hbar : c = '|'
      · simp [hbar]
      · have hflag : (c == '\\') = false := beq_false_of_ne hslash
        simp [hslash, hflag, hbar]

theorem length_segments_cons (escaped : Bool) (c : Char) (cs : List Char) :
    (segments escaped (c :: cs)).length =
      (if c = '|' ∧ escaped = false then 1 else 0) +
        (segments (!escaped && c == '\\') cs).length := by
  rw [segments_cons]
  split
  · next hbar =>
    obtain ⟨rfl, rfl⟩ := hbar
    exact Nat.add_comm _ _
  · rw [length_consFirst (segments_ne_nil _ _), Nat.zero_add]

/-- The flag of the scan behind a text: whether the text ends with an odd number of backslashes. -/
def flagBehind (before : List Char) : Bool := decide (slashesAtEnd before % 2 = 1)

theorem flagBehind_append (before : List Char) (c : Char) :
    flagBehind (before ++ [c]) = (!flagBehind before && c == '\\') := by
  unfold flagBehind
  rw [slashesAtEnd_append]
  by_cases hc : c = '\\'
  · simp only [hc, if_true, beq_self_eq_true, Bool.and_true, ← decide_not]
    exact decide_eq_decide.2 (by omega)
  · simp [hc]

/-- The flag of the scan is the parity of the backslashes behind it, so there is one segment more
    than there are unescaped bars. -/
theorem length_segments_eq_barsBelow (before cs : List Char) :
    (segments (flagBehind before) cs).length = barsBelow before cs + 1 := by
  induction cs generalizing before with
  | nil => simp [segments, barsBelow]
  | cons c cs ih =>
    have hbar : (c = '|' ∧ flagBehind before = false) ↔
        (c = '|' ∧ slashesAtEnd before % 2 = 0) := by simp [flagBehind]
    rw [length_segments_cons, ← flagBehind_append, ih, barsBelow, if_congr hbar rfl rfl,
      Nat.add_assoc]

theorem length_segments (cs : List Char) :
    (segments false cs).length = unescapedBars cs + 1 :=
  length_segments_eq_barsBelow [] cs

theorem ofCells?_eq_none_iff {cells : List String} : ofCells? cells = none ↔ cells = [] := by
  unfold ofCells?
  split <;> simp_all

/-- A row that is read has the cells of its line. -/
theorem cells_of_decode {line : String} {row : Row} (h : decode line = .ok row) :
    row.cells = (cellChars (stripChars line.toList)).map String.ofList := by
  unfold decode ofCells? at h
  split at h
  · next row' hrow =>
    cases h
    split at hrow
    · cases hrow
      rfl
    · simp at hrow
  · simp at h

/-- Each cell is a segment of the line, trimmed and then unescaped. -/
theorem exists_segment_of_mem_cells {line cell : String} {row : Row} (h : decode line = .ok row)
    (hcell : cell ∈ row.cells) :
    ∃ segment ∈ segments false (stripChars line.toList),
      cell = String.ofList (unescape (stripChars segment)) := by
  rw [cells_of_decode h] at hcell
  obtain ⟨chars, hchars, rfl⟩ := List.mem_map.1 hcell
  obtain ⟨segment, hsegment, rfl⟩ := List.mem_map.1 hchars
  exact ⟨segment, List.mem_of_mem_tail (List.dropLast_subset _ hsegment), rfl⟩

/-- The cells stand between the unescaped bars. -/
theorem length_cellChars (cs : List Char) : (cellChars cs).length = unescapedBars cs - 1 := by
  simp [cellChars, length_segments]

/-- A line is read as a row exactly if it has two unescaped bars. -/
theorem decode_isOk_iff {line : String} :
    (∃ row, decode line = .ok row) ↔ 2 ≤ unescapedBars (stripChars line.toList) := by
  have hnone : ofCells? ((cellChars (stripChars line.toList)).map String.ofList) = none ↔
      unescapedBars (stripChars line.toList) - 1 = 0 := by
    rw [ofCells?_eq_none_iff, List.map_eq_nil_iff, ← List.length_eq_zero_iff, length_cellChars]
  unfold decode
  cases h : ofCells? ((cellChars (stripChars line.toList)).map String.ofList) with
  | none =>
    have := hnone.1 h
    simp only [reduceCtorEq, exists_false, false_iff]
    omega
  | some row =>
    have : ¬unescapedBars (stripChars line.toList) - 1 = 0 := fun h0 => by simp [hnone.2 h0] at h
    simp only [Except.ok.injEq, exists_eq', true_iff]
    omega

end Row

end FeatureFile
