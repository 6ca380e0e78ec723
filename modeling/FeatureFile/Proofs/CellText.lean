import FeatureFile.Proofs.Codecs
import FeatureFile.Proofs.Shapes

set_option autoImplicit false

/-! # Where the text of a row goes

The text of a table row is what is left of the line without its white space, its unescaped bars, and
the backslashes that escape the others (`Row.lineText`). Cutting the line at its bars, trimming the
segments and taking the backslashes away again keeps all of this text in its order
(`Row.textBelow_eq`). What stands behind the last unescaped bar is not a cell, though, and is
dropped. So the cells hold the text of the line up to that bar, and all of its text exactly if the
line ends there (`Row.cells_hold_text`). -/

namespace FeatureFile

open Text

namespace Row

/-! ## Visible characters -/

/-- The characters that are not white space. -/
def visible (cs : List Char) : List Char := cs.filter fun c => !isBlank c

theorem visible_append (cs ds : List Char) : visible (cs ++ ds) = visible cs ++ visible ds :=
  List.filter_append ..

theorem visible_eq_nil {cs : List Char} (h : ∀ c ∈ cs, isBlank c = true) : visible cs = [] :=
  List.filter_eq_nil_iff.2 fun c hc => by simp [h c hc]

/-- A backslash and the bar behind it are never torn apart if the second text starts with no bar. -/
theorem unescape_append {cs ds : List Char} (h : ds.head? ≠ some '|') :
    unescape (cs ++ ds) = unescape cs ++ unescape ds := by
  fun_induction unescape cs with
  | case1 => rfl
  | case2 cs ih => rw [List.cons_append, List.cons_append, unescape, ih, List.cons_append]
  | case3 c cs hpair ih =>
    rw [List.cons_append, unescape_cons, ih, List.cons_append]
    intro hslash hbar
    rcases cs with _ | ⟨d, cs⟩
    · exact h hbar
    · rw [List.cons_append, List.head?_cons, Option.some.injEq] at hbar
      exact hpair cs hslash (by rw [hbar])

/-- White space has nothing to unescape. -/
theorem unescape_of_blank {cs : List Char} (h : ∀ c ∈ cs, isBlank c = true) : unescape cs = cs := by
  refine unescape_eq_self fun hslash => ?_
  exact absurd (h _ hslash) (by decide)

theorem head?_ne_bar_of_blank {cs : List Char} (h : ∀ c ∈ cs, isBlank c = true) :
    cs.head? ≠ some '|' := by
  intro hbar
  exact absurd (h _ (List.mem_of_mem_head? hbar)) (by decide)

/-- Trimming a segment takes only white space from its cell. -/
theorem visible_unescape_stripChars (cs : List Char) :
    visible (unescape (stripChars cs)) = visible (unescape cs) := by
  obtain ⟨left, right, hcs, hleft, hright⟩ := exists_pads_of_stripChars cs
  have hfront : ∀ ds, visible (unescape (left ++ ds)) = visible (unescape ds) := by
    intro ds
    clear hcs
    induction left with
    | nil => rfl
    | cons c left ih =>
      rw [List.forall_mem_cons] at hleft
      have hslash : c ≠ '\\' := by
        rintro rfl
        exact absurd hleft.1 (by decide)
      rw [List.cons_append, unescape_cons (absurd · hslash), ← ih hleft.2]
      exact List.filter_cons_of_neg (by simp [hleft.1])
  conv_rhs => rw [hcs]
  rw [hfront, unescape_append (head?_ne_bar_of_blank hright), visible_append,
    unescape_of_blank hright, visible_eq_nil hright, List.append_nil]

/-! ## The text of a line -/

/-- The text of a line below `before`: its visible characters, but no unescaped bar, and no
    backslash that escapes the bar behind it. -/
def textBelow (before : List Char) : List Char → List Char
  | [] => []
  | c :: cs =>
    (if isBlank c = true ∨
        slashesAtEnd before % 2 = 0 ∧ (c = '|' ∨ c = '\\' ∧ cs.head? = some '|') then []
      else [c]) ++ textBelow (before ++ [c]) cs

/-- The text of a line. -/
def lineText (cs : List Char) : List Char := textBelow [] cs

theorem flagBehind_eq_false_iff {cs : List Char} :
    flagBehind cs = false ↔ slashesAtEnd cs % 2 = 0 := by
  simp [flagBehind]

/-- The first segment starts with a bar exactly if the line does and the bar is escaped. -/
theorem head?_of_segments {flag : Bool} {cs first : List Char} {rest : List (List Char)}
    (h : segments flag cs = first :: rest) :
    first.head? = some '|' ↔ flag = true ∧ cs.head? = some '|' := by
  cases cs with
  | nil =>
    obtain ⟨rfl, -⟩ := List.cons.inj h
    simp
  | cons c cs =>
    rw [segments_cons] at h
    split_ifs at h with hc
    · obtain ⟨rfl, -⟩ := List.cons.inj h
      simp [hc.2]
    · obtain ⟨piece, more, hmore⟩ :=
        List.exists_cons_of_ne_nil (segments_ne_nil (!flag && c == '\\') cs)
      rw [hmore] at h
      obtain ⟨rfl, -⟩ := List.cons.inj h
      rw [List.head?_cons, List.head?_cons, Option.some.injEq, iff_and_self]
      intro hbar
      exact Bool.of_not_eq_false fun hflag => hc ⟨hbar, hflag⟩

/-- A character of a cell is seen unless it is white space or escapes the bar behind it. -/
theorem visible_unescape_cons (c : Char) (cs : List Char) :
    visible (unescape (c :: cs)) =
      (if isBlank c = true ∨ c = '\\' ∧ cs.head? = some '|' then [] else [c]) ++
        visible (unescape cs) := by
  by_cases hpair : c = '\\' ∧ cs.head? = some '|'
  · obtain ⟨rfl, hbar⟩ := hpair
    obtain ⟨rest, rfl⟩ := List.head?_eq_some_iff.1 hbar
    rw [if_pos (.inr ⟨rfl, hbar⟩), List.nil_append, unescape, unescape_cons (by simp)]
  · rw [unescape_cons fun hslash hbar => hpair ⟨hslash, hbar⟩]
    by_cases hblank : isBlank c = true
    · rw [if_pos (.inl hblank)]
      exact List.filter_cons_of_neg (by simp [hblank])
    · rw [if_neg (not_or.2 ⟨hblank, hpair⟩)]
      exact List.filter_cons_of_pos (by simpa using hblank)

/-- Cutting a line at its bars and unescaping the segments keeps its text. -/
theorem textBelow_eq (before cs : List Char) :
    textBelow before cs =
      (segments (flagBehind before) cs).flatMap fun segment => visible (unescape segment) := by
  induction cs generalizing before with
  | nil => rfl
  | cons c cs ih =>
    rw [textBelow, ih, segments_cons, flagBehind_append]
    by_cases hbar : c = '|' ∧ flagBehind before = false
    · rw [if_pos hbar, if_pos (.inr ⟨flagBehind_eq_false_iff.1 hbar.2, .inl hbar.1⟩), hbar.1]
      simp [visible, unescape]
    · obtain ⟨first, rest, hrest⟩ :=
        List.exists_cons_of_ne_nil (segments_ne_nil (!flagBehind before && c == '\\') cs)
      -- what the line leaves out of its text here is what the segment does not show
      have hleft : (isBlank c = true ∨
          slashesAtEnd before % 2 = 0 ∧ (c = '|' ∨ c = '\\' ∧ cs.head? = some '|')) ↔
          (isBlank c = true ∨ c = '\\' ∧ first.head? = some '|') := by
        rw [head?_of_segments hrest, ← flagBehind_eq_false_iff, Bool.and_eq_true,
          Bool.not_eq_true', beq_iff_eq]
        tauto
      rw [if_neg hbar, hrest, consFirst, List.flatMap_cons, List.flatMap_cons,
        visible_unescape_cons, List.append_assoc, if_congr hleft rfl rfl]

/-! ## The last bar -/

theorem eq_of_segments_singleton {flag : Bool} {cs last : List Char}
    (h : segments flag cs = [last]) : last = cs := by
  induction cs generalizing flag last with
  | nil => exact (List.singleton_inj.1 h).symm
  | cons c cs ih =>
    rw [segments_cons] at h
    split_ifs at h with hc
    · exact absurd (List.cons.inj h).2 (segments_ne_nil false cs)
    · obtain ⟨piece, more, hmore⟩ :=
        List.exists_cons_of_ne_nil (segments_ne_nil (!flag && c == '\\') cs)
      rw [hmore] at h
      obtain ⟨rfl, rfl⟩ := List.cons.inj h
      rw [ih hmore]

/-- The last segment is what stands behind the last unescaped bar. -/
theorem exists_bar_before_last {before cs last : List Char} {front : List (List Char)}
    (h : segments (flagBehind before) cs = front ++ [last]) (hfront : front ≠ []) :
    ∃ inside, cs = inside ++ '|' :: last ∧ flagBehind (before ++ inside) = false := by
  obtain ⟨first, more, rfl⟩ := List.exists_cons_of_ne_nil hfront
  clear hfront
  induction cs generalizing before first more with
  | nil =>
    rw [List.cons_append] at h
    exact absurd (List.cons.inj h).2.symm (by simp)
  | cons c cs ih =>
    rw [segments_cons] at h
    split_ifs at h with hc
    · obtain ⟨rfl, hflag⟩ := hc
      obtain ⟨rfl, hrest⟩ := List.cons.inj h
      have hbehind : flagBehind (before ++ ['|']) = false := by simp [flagBehind_append]
      rcases more with _ | ⟨second, more⟩
      · exact ⟨[], by rw [eq_of_segments_singleton hrest]; rfl, by rwa [List.append_nil]⟩
      · rw [← hbehind] at hrest
        obtain ⟨inside, rfl, hinside⟩ := ih second more hrest
        exact ⟨'|' :: inside, rfl, by rwa [List.append_cons]⟩
    · rw [← flagBehind_append] at h
      obtain ⟨piece, others, hothers⟩ :=
        List.exists_cons_of_ne_nil (segments_ne_nil (flagBehind (before ++ [c])) cs)
      rw [hothers] at h
      obtain ⟨rfl, rfl⟩ := List.cons.inj h
      obtain ⟨inside, rfl, hinside⟩ := ih piece more hothers
      exact ⟨c :: inside, rfl, by rwa [List.append_cons]⟩

/-- A text whose bars are all escaped is one segment. -/
theorem segments_of_allBars {flag : Bool} {cs : List Char} (h : AllBars true flag cs) :
    segments flag cs = [cs] := by
  induction cs generalizing flag with
  | nil => rfl
  | cons c cs ih =>
    have hbar : ¬(c = '|' ∧ flag = false) := by
      rintro ⟨hc, hflag⟩
      exact absurd (hflag.symm.trans (h.1 hc)) (by decide)
    rw [segments_cons, if_neg hbar, ih h.2]
    rfl

/-- A text whose bars are all escaped is told by its one segment. -/
theorem lineText_of_allBars {cs : List Char} (h : AllBars true false cs) :
    lineText cs = visible (unescape cs) := by
  have hsegments : segments (flagBehind []) cs = [cs] := segments_of_allBars h
  rw [lineText, textBelow_eq, hsegments, List.flatMap_cons, List.flatMap_nil, List.append_nil]

/-- Behind the last bar of a line, only the end of the line has no text. -/
theorem lineText_eq_nil_iff {cs : List Char} (h : AllBars true false cs)
    (hlast : ∀ c, cs.getLast? = some c → isBlank c = false) : lineText cs = [] ↔ cs = [] := by
  rw [lineText_of_allBars h]
  constructor
  · intro hnone
    by_contra hne
    have hget : (unescape cs).getLast? = some (cs.getLast hne) := by
      rw [getLast?_unescape, List.getLast?_eq_some_getLast hne]
    have hblank : isBlank (cs.getLast hne) = false :=
      hlast _ (List.getLast?_eq_some_getLast hne)
    have hmem : cs.getLast hne ∈ visible (unescape cs) :=
      List.mem_filter.2 ⟨List.mem_of_getLast? hget, by simp [hblank]⟩
    rw [hnone] at hmem
    exact absurd hmem List.not_mem_nil
  · rintro rfl
    rfl

/-! ## Rows -/

/-- The line ends with a bar that is not escaped. -/
def EndsWithBar (cs : List Char) : Prop :=
  ∃ inside, cs = inside ++ ['|'] ∧ slashesAtEnd inside % 2 = 0

/-- A line ends with its last unescaped bar exactly if nothing stands behind it. -/
theorem endsWithBar_iff {inside behind : List Char} (hflag : flagBehind inside = false)
    (hbars : AllBars true false behind) : EndsWithBar (inside ++ '|' :: behind) ↔ behind = [] := by
  constructor
  · rintro ⟨before, hbefore, hslashes⟩
    by_contra hne
    -- a bar at the end would be a second last bar
    obtain ⟨middle, c, rfl⟩ : ∃ middle c, behind = middle ++ [c] :=
      ⟨_, _, (List.dropLast_concat_getLast hne).symm⟩
    have hends : (inside ++ '|' :: middle) ++ [c] = before ++ ['|'] := by
      rw [← hbefore, List.append_assoc, List.cons_append]
    obtain ⟨rfl, hc⟩ := List.append_inj' hends rfl
    obtain rfl := List.singleton_inj.1 hc
    have hescaped : flagBehind (inside ++ ['|'] ++ middle) = true := by
      have hfalse : flagBehind (inside ++ ['|']) = false := by simp [flagBehind_append]
      rw [← hfalse] at hbars
      exact allBars_iff.1 hbars middle [] rfl
    rw [List.append_assoc, List.singleton_append, flagBehind_eq_false_iff.2 hslashes] at hescaped
    exact absurd hescaped (by decide)
  · rintro rfl
    exact ⟨inside, rfl, flagBehind_eq_false_iff.1 hflag⟩

/-- A row starts with a bar, so its first segment is empty. -/
theorem segments_of_shape {number : Nat} {line : String}
    (h : (Line.ofText number line).shape = .row) :
    ∃ rest, segments false (stripChars line.toList) = [] :: rest := by
  rw [Line.shape_ofText] at h
  rcases (Shape.ofText_eq_iff (strip_strip line)).1 h with hshows | ⟨hfree, -⟩
  · cases hshows with
    | @row rest bar =>
      rw [toList_strip] at bar
      exact ⟨segments false rest, by rw [bar, segments_cons, if_pos ⟨rfl, rfl⟩]⟩
  · cases hfree

/-- The text of some cells. -/
def cellText (row : Row) : List Char := row.cells.flatMap fun cell => visible cell.toList

section Lines

variable {number : Nat} {line : String} {row : Row}

/-- The cells hold the text of the line up to its last unescaped bar. -/
theorem exists_last_bar (hshape : (Line.ofText number line).shape = .row)
    (h : decode line = .ok row) :
    ∃ inside behind, stripChars line.toList = inside ++ '|' :: behind ∧
      flagBehind inside = false ∧ AllBars true false behind ∧
      lineText (stripChars line.toList) = row.cellText ++ lineText behind := by
  obtain ⟨rest, hrest⟩ := segments_of_shape hshape
  have hcells : row.cells =
      rest.dropLast.map fun segment => String.ofList (unescape (stripChars segment)) := by
    rw [cells_of_decode h, cellChars, hrest, List.tail_cons, List.map_map]
    rfl
  have hinner : rest.dropLast ≠ [] := by
    intro hnone
    exact row.nonempty (by rw [hcells, hnone]; rfl)
  have hne : rest ≠ [] := by
    rintro rfl
    exact hinner rfl
  have hsegments : segments false (stripChars line.toList) =
      ([] :: rest.dropLast) ++ [rest.getLast hne] := by
    rw [hrest, List.cons_append, List.dropLast_concat_getLast]
  have hbars : AllBars true false (rest.getLast hne) :=
    allBars_of_mem_segments (hsegments ▸ List.mem_append_right _ (List.mem_singleton_self _))
  obtain ⟨inside, hline, hflag⟩ :=
    @exists_bar_before_last [] _ _ _ hsegments (List.cons_ne_nil _ _)
  refine ⟨inside, rest.getLast hne, hline, hflag, hbars, ?_⟩
  have htext : row.cellText =
      rest.dropLast.flatMap fun segment => visible (unescape segment) := by
    rw [cellText, hcells, List.flatMap_map]
    exact List.flatMap_congr fun segment _ => by
      rw [String.toList_ofList, visible_unescape_stripChars]
  calc lineText (stripChars line.toList)
      = (([] :: rest.dropLast) ++ [rest.getLast hne]).flatMap
          fun segment => visible (unescape segment) := by
        rw [← hsegments]
        exact textBelow_eq [] _
    _ = row.cellText ++ visible (unescape (rest.getLast hne)) := by
        rw [List.flatMap_append, List.flatMap_cons, htext, List.flatMap_cons, List.flatMap_nil,
          List.append_nil]
        rfl
    _ = row.cellText ++ lineText (rest.getLast hne) := by rw [lineText_of_allBars hbars]

/-- The cells of a row hold the text of its line up to the last unescaped bar. They hold all of it
    exactly if the line ends with that bar. -/
theorem cells_hold_text (hshape : (Line.ofText number line).shape = .row)
    (h : decode line = .ok row) :
    (∃ inside behind, stripChars line.toList = inside ++ '|' :: behind ∧
      slashesAtEnd inside % 2 = 0 ∧ unescapedBars behind = 0 ∧
      lineText (stripChars line.toList) = row.cellText ++ lineText behind) ∧
    (lineText (stripChars line.toList) = row.cellText ↔ EndsWithBar (stripChars line.toList)) := by
  obtain ⟨inside, behind, hline, hflag, hbars, htext⟩ := exists_last_bar hshape h
  have hnone : unescapedBars behind = 0 := by
    have hlength := length_segments behind
    rw [segments_of_allBars hbars, List.length_singleton] at hlength
    omega
  refine ⟨⟨inside, behind, hline, flagBehind_eq_false_iff.1 hflag, hnone, htext⟩, ?_⟩
  have hlast : ∀ c, behind.getLast? = some c → isBlank c = false := by
    intro c hc
    refine @isBlank_of_getLast?_stripChars line.toList c ?_
    rw [hline, List.getLast?_append_cons, List.getLast?_cons, hc]
    rfl
  rw [htext, List.append_right_eq_self, lineText_eq_nil_iff hbars hlast, hline,
    endsWithBar_iff hflag hbars]

end Lines

/-- The last bar of this line is escaped, so its last text is in no cell. -/
theorem cells_hold_text_of_escaped_end :
    (Line.ofText 1 "| a\\|b | \\\\| c\\|").shape = .row ∧
    decode "| a\\|b | \\\\| c\\|" = .ok ⟨["a|b", "\\\\"], by decide⟩ ∧
    (∃ inside behind, stripChars "| a\\|b | \\\\| c\\|".toList = inside ++ '|' :: behind ∧
      slashesAtEnd inside % 2 = 0 ∧ unescapedBars behind = 0 ∧
      lineText (stripChars "| a\\|b | \\\\| c\\|".toList) =
        ['a', '|', 'b', '\\', '\\'] ++ lineText behind) ∧
    ¬EndsWithBar (stripChars "| a\\|b | \\\\| c\\|".toList) := by
  have hshape : (Line.ofText 1 "| a\\|b | \\\\| c\\|").shape = .row := by decide +kernel
  have hdecode :
      decode "| a\\|b | \\\\| c\\|" = .ok ⟨["a|b", "\\\\"], by decide⟩ := by decide +kernel
  have hheld := cells_hold_text hshape hdecode
  refine ⟨hshape, hdecode, hheld.1, ?_⟩
  intro hends
  exact absurd (hheld.2.2 hends) (by decide +kernel)

/-- A row that does not end with a bar is decoded, without its last text. -/
theorem text_behind_last_bar :
    (Line.ofText 1 "|a|b").shape = .row ∧ decode "|a|b" = .ok ⟨["a"], by decide⟩ ∧
      lineText (stripChars "|a|b".toList) = ['a', 'b'] ∧
      ¬EndsWithBar (stripChars "|a|b".toList) := by
  refine ⟨by decide +kernel, by decide +kernel, by decide +kernel, ?_⟩
  rintro ⟨inside, hline, -⟩
  have hlast := congrArg List.getLast? hline
  rw [List.getLast?_concat] at hlast
  exact absurd hlast (by decide +kernel)

end Row

end FeatureFile
