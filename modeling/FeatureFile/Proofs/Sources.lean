import FeatureFile.Line
import Mathlib.Data.List.Basic

set_option autoImplicit false

/-! # Extending and cutting off a source

What a file says depends on its kept lines and their numbers. Two changes of a source have a simple
effect on them. Appending a line break and one more line appends that line
(`exists_keptLines_append`), whatever the source ends with. And for every number there is a source
that stops right above it (`exists_keptLines_eq_filter`). -/

namespace FeatureFile

open Text

/-! ## Breaks -/

theorem lineChars_eq_nil_iff {cs : List Char} : lineChars cs = [] ↔ cs = [] := by
  fun_cases lineChars cs with
  | case1 => simp
  | case2 => simp
  | case3 => simp
  | case4 c cs => cases lineChars cs <;> simp [consFirst]

theorem consFirst_append {c : Char} {pieces more : List (List Char)} (h : pieces ≠ []) :
    consFirst c (pieces ++ more) = consFirst c pieces ++ more := by
  cases pieces with
  | nil => exact absurd rfl h
  | cons piece rest => rfl

theorem lineChars_cons {c : Char} {cs : List Char} (h : ∀ rest, c = '\r' → cs ≠ '\n' :: rest) :
    lineChars (c :: cs) =
      if isLineBreak c then [] :: lineChars cs else consFirst c (lineChars cs) := by
  rw [lineChars]
  intro rest hc hcs
  exact h rest hc hcs

theorem lineChars_newline (cs : List Char) : lineChars ('\n' :: cs) = [] :: lineChars cs := by
  rw [lineChars_cons (by simp)]
  rfl

/-- A line feed below some lines opens at most one empty line. -/
theorem lineChars_append_newline (cs more : List Char) :
    ∃ gap, (gap = [] ∨ gap = [[]]) ∧
      lineChars (cs ++ '\n' :: more) = lineChars cs ++ gap ++ lineChars more := by
  fun_induction lineChars cs with
  | case1 => exact ⟨[[]], .inr rfl, lineChars_newline more⟩
  | case2 cs ih =>
    obtain ⟨gap, hgap, ih⟩ := ih
    refine ⟨gap, hgap, ?_⟩
    simp [lineChars, ih]
  | case3 c cs hpair hbreak ih =>
    obtain ⟨gap, hgap, ih⟩ := ih
    by_cases hlast : c = '\r' ∧ cs = []
    · -- the carriage return and the line feed make one break
      obtain ⟨rfl, rfl⟩ := hlast
      exact ⟨[], .inl rfl, by simp [lineChars]⟩
    · refine ⟨gap, hgap, ?_⟩
      rw [List.cons_append, lineChars_cons, if_pos hbreak, ih]
      · rfl
      · intro rest hc hcs
        cases cs with
        | nil => exact hlast ⟨hc, rfl⟩
        | cons d ds =>
          rw [List.cons_append, List.cons.injEq] at hcs
          exact hpair ds hc (by rw [hcs.1])
  | case4 c cs hpair hbreak ih =>
    obtain ⟨gap, hgap, ih⟩ := ih
    have hreturn : c ≠ '\r' := by
      rintro rfl
      exact hbreak rfl
    rw [List.cons_append, lineChars_cons fun _ hc => absurd hc hreturn, if_neg hbreak]
    by_cases hnil : cs = []
    · subst hnil
      refine ⟨[], .inl rfl, ?_⟩
      rw [List.nil_append, lineChars_newline]
      rfl
    · refine ⟨gap, hgap, ?_⟩
      have hne : lineChars cs ≠ [] := fun h => hnil (lineChars_eq_nil_iff.1 h)
      rw [ih, List.append_assoc, consFirst_append hne, List.append_assoc]

/-- A text without a break is one line, up to the first line feed. -/
theorem lineChars_line {line more : List Char} (h : ∀ c ∈ line, isLineBreak c = false) :
    lineChars (line ++ '\n' :: more) = line :: lineChars more := by
  induction line with
  | nil => exact lineChars_newline more
  | cons c line ih =>
    have hc : isLineBreak c = false := h c (by simp)
    have hreturn : c ≠ '\r' := by
      rintro rfl
      exact absurd hc (by decide)
    rw [List.cons_append, lineChars_cons fun _ hr => absurd hr hreturn, hc,
      if_neg Bool.false_ne_true, ih fun d hd => h d (List.mem_cons_of_mem _ hd)]
    rfl

theorem lineChars_unbroken {line : List Char} (h : ∀ c ∈ line, isLineBreak c = false)
    (hne : line ≠ []) : lineChars line = [line] := by
  obtain ⟨gap, -, hgap⟩ := lineChars_append_newline line []
  have hfeed : lineChars line ++ gap = [line] := by
    rw [lineChars_line h, lineChars, List.append_nil] at hgap
    exact hgap.symm
  rcases List.append_eq_singleton_iff.1 hfeed with ⟨hnil, -⟩ | ⟨hline, -⟩
  · exact absurd (lineChars_eq_nil_iff.1 hnil) hne
  · exact hline

/-- Lines without breaks, each ended by a line feed, are read back. -/
theorem lineChars_lines {lines : List (List Char)}
    (h : ∀ line ∈ lines, ∀ c ∈ line, isLineBreak c = false) :
    lineChars (lines.flatMap fun line => line ++ ['\n']) = lines := by
  induction lines with
  | nil => rfl
  | cons line rest ih =>
    rw [List.flatMap_cons, List.append_assoc, List.singleton_append,
      lineChars_line (h line (by simp)), ih fun line hline => h line (List.mem_cons_of_mem _ hline)]

/-! ## Kept lines -/

/-- The kept lines among some lines, which are numbered from `start`. -/
def keptFrom (start : Nat) (lines : List String) : List (Nat × String) :=
  (lines.zipIdx start).filterMap fun (raw, number) =>
    let text := strip raw
    if isKept text then some (number, text) else none

theorem keptLines_eq (source : String) :
    keptLines source = keptFrom 1 (splitLines (dropByteOrderMark source)) := rfl

theorem keptFrom_append (start : Nat) (lines more : List String) :
    keptFrom start (lines ++ more) =
      keptFrom start lines ++ keptFrom (start + lines.length) more := by
  rw [keptFrom, List.zipIdx_append, List.filterMap_append]
  rfl

theorem keptFrom_singleton (start : Nat) (raw : String) :
    keptFrom start [raw] = if isKept (strip raw) then [(start, strip raw)] else [] := by
  unfold keptFrom
  by_cases h : isKept (strip raw) <;> simp [h]

theorem keptFrom_cons (start : Nat) (raw : String) (lines : List String) :
    keptFrom start (raw :: lines) = keptFrom start [raw] ++ keptFrom (start + 1) lines :=
  keptFrom_append start [raw] lines

/-- The numbers of the kept lines grow with that of the first line. -/
theorem keptFrom_add (start n : Nat) (lines : List String) :
    keptFrom (start + n) lines =
      (keptFrom start lines).map fun line => (line.1 + n, line.2) := by
  induction lines generalizing start with
  | nil => rfl
  | cons raw lines ih =>
    have hsucc : start + n + 1 = start + 1 + n := by omega
    rw [keptFrom_cons, keptFrom_cons start, List.map_append, hsucc, ih, keptFrom_singleton,
      keptFrom_singleton]
    by_cases hkept : isKept (strip raw) <;> simp [hkept]

theorem le_of_mem_keptFrom {start : Nat} {lines : List String} {line : Nat × String}
    (h : line ∈ keptFrom start lines) : start ≤ line.1 := by
  obtain ⟨⟨raw, number⟩, hmem, hline⟩ := List.mem_filterMap.1 h
  have hstart : start ≤ number := List.le_snd_of_mem_zipIdx hmem
  by_cases hkept : isKept (strip raw) <;> simp only [hkept] at hline
  · cases hline
    exact hstart
  · simp at hline

/-- Kept lines stand in the order of their numbers. -/
theorem pairwise_keptFrom (start : Nat) (lines : List String) :
    (keptFrom start lines).Pairwise fun line later => line.1 < later.1 := by
  induction lines generalizing start with
  | nil => exact .nil
  | cons raw lines ih =>
    rw [keptFrom_cons, List.pairwise_append]
    refine ⟨?_, ih (start + 1), ?_⟩
    · rw [keptFrom_singleton]
      split <;> simp
    · intro line hline later hlater
      have hnumber : line.1 = start := by
        rw [keptFrom_singleton] at hline
        split at hline <;> simp_all
      have hstart := le_of_mem_keptFrom hlater
      omega

theorem pairwise_keptLines (source : String) :
    (keptLines source).Pairwise fun line later => line.1 < later.1 :=
  pairwise_keptFrom 1 _

/-- In the order of their numbers, the lines up to a number come first. -/
theorem filter_append_filter {lines : List (Nat × String)}
    (h : lines.Pairwise fun line later => line.1 < later.1) (n : Nat) :
    (lines.filter fun line => line.1 ≤ n) ++ (lines.filter fun line => n < line.1) = lines := by
  induction h with
  | nil => rfl
  | @cons line lines hline _ ih =>
    by_cases hle : line.1 ≤ n
    · have hgt : ¬n < line.1 := by omega
      rw [List.filter_cons, if_pos (by simpa using hle), List.filter_cons,
        if_neg (by simpa using hgt), List.cons_append, ih]
    · have hnil : ((line :: lines).filter fun line => line.1 ≤ n) = [] := by
        refine List.filter_eq_nil_iff.2 fun later hlater => ?_
        rcases List.mem_cons.1 hlater with rfl | hlater
        · simpa using hle
        · have := hline later hlater
          simp only [decide_eq_true_eq]
          omega
      have hself : ((line :: lines).filter fun line => n < line.1) = line :: lines := by
        refine List.filter_eq_self.2 fun later hlater => ?_
        rcases List.mem_cons.1 hlater with rfl | hlater
        · simpa using hle
        · have := hline later hlater
          simp only [decide_eq_true_eq]
          omega
      rw [hnil, hself, List.nil_append]

/-- The lines above a line, and with it, are those with smaller numbers. -/
theorem filter_above {before after : List (Nat × String)} {line : Nat × String}
    (h : (before ++ line :: after).Pairwise fun line later => line.1 < later.1) :
    ((before ++ line :: after).filter fun other => other.1 < line.1) = before ∧
      ((before ++ line :: after).filter fun other => other.1 ≤ line.1) = before ++ [line] := by
  obtain ⟨-, hafter, hbefore⟩ := List.pairwise_append.1 h
  replace hafter := (List.pairwise_cons.1 hafter).1
  have habove : ∀ other ∈ before, other.1 < line.1 :=
    fun other hother => hbefore other hother line (by simp)
  constructor
  · rw [List.filter_append, List.filter_eq_self.2 fun other hother => by
      simpa using habove other hother, List.filter_eq_nil_iff.2, List.append_nil]
    intro other hother
    rcases List.mem_cons.1 hother with rfl | hother
    · simp
    · have := hafter other hother
      simp only [decide_eq_true_eq]
      omega
  · rw [List.filter_append, List.filter_eq_self.2 fun other hother => by
      simpa using Nat.le_of_lt (habove other hother), List.filter_cons, if_pos (by simp),
      List.filter_eq_nil_iff.2]
    intro other hother
    have := hafter other hother
    simp only [decide_eq_true_eq]
    omega

/-- The kept lines above a number are those of the lines above it. -/
theorem filter_keptFrom (start n : Nat) (lines : List String) :
    ((keptFrom start lines).filter fun line => line.1 < n) =
      keptFrom start (lines.take (n - start)) := by
  induction lines generalizing start with
  | nil => simp [keptFrom]
  | cons raw lines ih =>
    rw [keptFrom_cons, List.filter_append, ih]
    -- once the count has reached the number, nothing below is kept
    by_cases hstart : start < n
    · have hself : ((keptFrom start [raw]).filter fun line => line.1 < n) =
          keptFrom start [raw] := by
        rw [keptFrom_singleton]
        split <;> simp [hstart]
      have htake : n - start = (n - (start + 1)) + 1 := by omega
      rw [hself, htake, List.take_succ_cons]
      exact (keptFrom_cons start raw _).symm
    · have hnil : ((keptFrom start [raw]).filter fun line => line.1 < n) = [] := by
        rw [keptFrom_singleton]
        split <;> simp [hstart]
      have htake : n - start = 0 ∧ n - (start + 1) = 0 := by omega
      rw [hnil, htake.1, htake.2]
      rfl

/-! ## Sources -/

theorem unifyBreaks_eq_self {s : String} (h : '\r' ∉ s.toList) : unifyBreaks s = s := by
  have hchars : ∀ cs : List Char, '\r' ∉ cs → unifyBreakChars cs = cs := by
    intro cs hcs
    fun_induction unifyBreakChars cs <;> simp_all
  rw [unifyBreaks, hchars _ h, String.ofList_toList]

theorem dropByteOrderMark_of_marked {text : String} {rest : List Char}
    (h : text.toList = '\uFEFF' :: rest) : dropByteOrderMark text = String.ofList rest := by
  simp [dropByteOrderMark, h]

theorem dropByteOrderMark_of_unmarked {text : String} (h : ∀ rest, text.toList ≠ '\uFEFF' :: rest) :
    dropByteOrderMark text = text := by
  unfold dropByteOrderMark
  split
  · next rest hrest => exact absurd hrest (h rest)
  · rfl

/-- The mark is taken from the start of a text, not from what is appended to it. -/
theorem dropByteOrderMark_append {source more : String}
    (h : ∀ rest, more.toList ≠ '\uFEFF' :: rest) :
    dropByteOrderMark (source ++ more) = dropByteOrderMark source ++ more := by
  cases hs : source.toList with
  | nil =>
    obtain rfl : source = "" := String.toList_injective hs
    rw [String.empty_append, dropByteOrderMark_of_unmarked h]
    rfl
  | cons c cs =>
    have happend : (source ++ more).toList = c :: (cs ++ more.toList) := by simp [hs]
    by_cases hc : c = '\uFEFF'
    · subst hc
      rw [dropByteOrderMark_of_marked hs, dropByteOrderMark_of_marked happend,
        String.ofList_append, String.ofList_toList]
    · have hsource : ∀ rest, source.toList ≠ '\uFEFF' :: rest := by simp [hs, hc]
      have hboth : ∀ rest, (source ++ more).toList ≠ '\uFEFF' :: rest := by
        simp only [happend]
        simp [hc]
      rw [dropByteOrderMark_of_unmarked hsource, dropByteOrderMark_of_unmarked hboth]

/-- Below a source, after a line feed, the kept lines of a text follow, numbered further on. -/
theorem exists_keptLines_below (source text : String) :
    ∃ number, keptLines (source ++ ("\n" ++ text)) =
      keptLines source ++ keptFrom number (splitLines text) := by
  obtain ⟨gap, hgap, hlines⟩ :=
    lineChars_append_newline (dropByteOrderMark source).toList text.toList
  have hblank : keptFrom (1 + (splitLines (dropByteOrderMark source)).length)
      (gap.map String.ofList) = [] := by
    rcases hgap with rfl | rfl
    · rfl
    · rw [List.map_singleton, keptFrom_singleton]
      rfl
  have hsplit : splitLines (dropByteOrderMark (source ++ ("\n" ++ text))) =
      splitLines (dropByteOrderMark source) ++ (gap.map String.ofList ++ splitLines text) := by
    rw [dropByteOrderMark_append (by simp), splitLines, splitLines, splitLines,
      String.toList_append, String.toList_append]
    simpa using congrArg (List.map String.ofList) hlines
  refine ⟨1 + (splitLines (dropByteOrderMark source)).length + (gap.map String.ofList).length, ?_⟩
  rw [keptLines_eq, hsplit, keptFrom_append, keptFrom_append, hblank, List.nil_append,
    ← keptLines_eq]

/-- A kept line below a source, after a line feed, is one more kept line. -/
theorem exists_keptLines_append (source : String) {text : String}
    (hbreak : text.toList.any isLineBreak = false) (hstrip : strip text = text)
    (hkept : isKept text = true) :
    ∃ number, keptLines (source ++ ("\n" ++ text)) = keptLines source ++ [(number, text)] := by
  obtain ⟨number, hlines⟩ := exists_keptLines_below source text
  have hne : text.toList ≠ [] := by
    intro hnil
    simp [isKept, hnil] at hkept
  have hunbroken : ∀ c ∈ text.toList, isLineBreak c = false := by simpa using hbreak
  have hsplit : splitLines text = [text] := by
    rw [splitLines, lineChars_unbroken hunbroken hne, List.map_singleton, String.ofList_toList]
  refine ⟨number, ?_⟩
  rw [hlines, hsplit, keptFrom_singleton, hstrip, if_pos hkept]

/-- For every number there is a source that stops right above it. -/
theorem exists_keptLines_eq_filter (source : String) (n : Nat) :
    ∃ cut, keptLines cut = (keptLines source).filter fun line => line.1 < n := by
  let lines := (lineChars (dropByteOrderMark source).toList).take (n - 1)
  have hbreak : ∀ line ∈ lines, ∀ c ∈ line, isLineBreak c = false := fun line hline =>
    not_isLineBreak_of_mem_lineChars _ line (List.mem_of_mem_take hline)
  -- the mark keeps a first line that starts with one from losing it
  refine ⟨String.ofList ('\uFEFF' :: lines.flatMap fun line => line ++ ['\n']), ?_⟩
  rw [keptLines_eq, keptLines_eq, filter_keptFrom,
    dropByteOrderMark_of_marked String.toList_ofList, splitLines, splitLines,
    String.toList_ofList, lineChars_lines hbreak, List.map_take]

end FeatureFile