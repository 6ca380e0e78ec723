import FeatureFile.Proofs.Composition
import FeatureFile.Proofs.Margins
import FeatureFile.Proofs.WellFormed

set_option autoImplicit false

/-! # Presentation does not matter

Blank lines and comments, white space around a line, the choice of line breaks and a byte order mark
say nothing. A change of these is an `Edit` of the source; each comes with the map that takes the
number of a line to the number that it has afterwards. Every edit leaves the kept lines as they are,
but for their numbers (`Edit.keptLines_eq`), and numbers are used for faults only, so any number of
edits leaves the feature, or the fault with another number (`parse_of_edits`).

A carriage return and a line feed that come to stand next to each other are one break. Inserting,
deleting and trimming a line can bring this about, and then the lines below move by one less, or one
more, than the change suggests. What counts is therefore the number of lines before and after. -/

namespace FeatureFile

open Text

/-! ## Changes of a text -/

/-- A line break: a character that ends a line, or a carriage return with a line feed. -/
def IsBreak (brk : List Char) : Prop :=
  brk = ['\r', '\n'] ∨ ∃ c, brk = [c] ∧ isLineBreak c = true

/-- Where two texts meet, there is no carriage return before a line feed. -/
def Apart (before after : List Char) : Prop :=
  ¬(before.getLast? = some '\r' ∧ after.head? = some '\n')

/-- A text after which a line starts: it is empty or ends with a break. -/
def Closed (above : List Char) : Prop := ∀ c, above.getLast? = some c → isLineBreak c = true

/-- A text that holds no break, so that it is a line or a part of one. -/
def OneLine (cs : List Char) : Prop := ∀ c ∈ cs, isLineBreak c = false

instance (cs : List Char) : Decidable (OneLine cs) := List.decidableBAll _ cs

/-- A line that is blank, or whose first character that is not blank opens a comment. -/
def isSkipped (line : List Char) : Bool :=
  match firstMark line with
  | none => true
  | some c => c == '#'

/-- White space that breaks no line. -/
def IsPadding (cs : List Char) : Prop := ∀ c ∈ cs, isBlank c = true ∧ isLineBreak c = false

instance (cs : List Char) : Decidable (IsPadding cs) := List.decidableBAll _ cs

/-- One change below the lines of `above`, in one direction: from what stands there to what stands
    there afterwards. -/
inductive Retouch (above : List Char) : List Char → List Char → Prop where
  /-- A blank line or a comment is inserted, with its break. -/
  | insert {line brk rest : List Char} (unbroken : OneLine line) (skipped : isSkipped line = true)
      (ends : IsBreak brk) : Retouch above rest (line ++ (brk ++ rest))
  /-- A blank line or a comment is inserted as the last line, without a break. -/
  | insertLast {line : List Char} (unbroken : OneLine line) (skipped : isSkipped line = true) :
      Retouch above [] line
  /-- A break is put at the end of the last line, where it opens no further line. -/
  | endLast {line brk : List Char} (unbroken : OneLine line) (nonempty : line ≠ [])
      (ends : IsBreak brk) : Retouch above line (line ++ brk)
  /-- White space is added at the ends of a line. -/
  | pad {left line right rest : List Char} (unbroken : OneLine line) (before : IsPadding left)
      (after : IsPadding right) (ends : ∀ c, rest.head? = some c → isLineBreak c = true) :
      Retouch above (line ++ rest) (left ++ line ++ right ++ rest)
  /-- A break is replaced, where the old one and the new one form no pair with what is next to
      them. -/
  | rebreak {line brk other rest : List Char} (unbroken : OneLine line) (ends : IsBreak brk)
      (otherEnds : IsBreak other) (aboveApart : Apart above (line ++ brk))
      (belowApart : Apart brk rest) (aboveOther : Apart above (line ++ other))
      (belowOther : Apart other rest) :
      Retouch above (line ++ (brk ++ rest)) (line ++ (other ++ rest))

/-- The new number of a line after a change below `above`: the lines above keep their numbers, and
    the lines below stand as far from the end as they did. -/
def shift (above old new : List Char) (n : Nat) : Nat :=
  if n ≤ (lineChars above).length then n
  else n + (lineChars (above ++ new)).length - (lineChars (above ++ old)).length

/-- The byte order mark. -/
def byteOrderMark : Char := '\uFEFF'

/-- One change of a source, with the new numbers of its lines. -/
inductive Edit : String → String → (Nat → Nat) → Prop where
  /-- A change below the mark, if there is one. -/
  | retouch {mark above old new : List Char}
      (marked : mark = [byteOrderMark] ∨
        mark = [] ∧ (above ++ old).head? ≠ some byteOrderMark)
      (boundary : Closed above) (change : Retouch above old new ∨ Retouch above new old) :
      Edit (String.ofList (mark ++ (above ++ old))) (String.ofList (mark ++ (above ++ new)))
        (shift above old new)
  /-- Every carriage return, alone or before a line feed, becomes a line feed. -/
  | unify (source : String) : Edit source (unifyBreaks source) id
  | addMark {source : String} (unmarked : source.toList.head? ≠ some byteOrderMark) :
      Edit source (String.ofList (byteOrderMark :: source.toList)) id
  | removeMark (source : String) :
      Edit (String.ofList (byteOrderMark :: source.toList)) source id

/-- Any number of changes, one after another. -/
inductive Edits : String → String → (Nat → Nat) → Prop where
  | refl (source : String) : Edits source source id
  | step {old mid new : String} {move more : Nat → Nat} (edit : Edit old mid move)
      (rest : Edits mid new more) : Edits old new (more ∘ move)

/-- No line of a text, once trimmed, starts with a byte order mark. -/
def Unmarked (body : List Char) : Prop :=
  ∀ line ∈ lineChars body, (stripChars line).head? ≠ some byteOrderMark

/-! ## Lines of a text in two parts -/

section Breaks

variable {above line brk rest : List Char}

theorem closed_of_cons {c : Char} {cs : List Char} (h : Closed (c :: cs)) : Closed cs := by
  intro d hd
  refine h d ?_
  rw [List.getLast?_cons, hd]
  rfl

theorem apart_of_cons {c : Char} {cs : List Char} (h : Apart (c :: cs) rest) : Apart cs rest := by
  rintro ⟨hlast, hhead⟩
  refine h ⟨?_, hhead⟩
  rw [List.getLast?_cons, hlast]
  rfl

/-- The lines below a boundary are those of the text below, but for an empty line where a pair
    comes to stand. -/
theorem lineChars_append_cases (h : Closed above) (rest : List Char) :
    ∃ more, lineChars (above ++ rest) = lineChars above ++ more ∧
      (more = lineChars rest ∨ lineChars rest = [] :: more ∧ ¬Apart above rest) := by
  fun_induction lineChars above with
  | case1 => exact ⟨_, rfl, .inl rfl⟩
  | case2 cs ih =>
    obtain ⟨more, hlines, hmore⟩ := ih (closed_of_cons (closed_of_cons h))
    refine ⟨more, by simp [lineChars, hlines], hmore.imp_right fun hpaired => ⟨hpaired.1, ?_⟩⟩
    exact fun hapart => hpaired.2 (apart_of_cons (apart_of_cons hapart))
  | case3 c cs hpair hbreak ih =>
    by_cases hmeet : c = '\r' ∧ cs = [] ∧ ∃ more, rest = '\n' :: more
    · obtain ⟨rfl, rfl, more, rfl⟩ := hmeet
      refine ⟨lineChars more, by simp [lineChars], .inr ⟨lineChars_newline more, ?_⟩⟩
      exact fun hapart => hapart ⟨rfl, rfl⟩
    · obtain ⟨more, hlines, hmore⟩ := ih (closed_of_cons h)
      have hsingle : ∀ tail, c = '\r' → cs ++ rest ≠ '\n' :: tail := by
        intro tail hc htail
        cases cs with
        | nil => exact hmeet ⟨hc, rfl, tail, htail⟩
        | cons d ds =>
          rw [List.cons_append, List.cons.injEq] at htail
          exact hpair ds hc (by rw [htail.1])
      refine ⟨more, ?_, hmore.imp_right fun hpaired => ⟨hpaired.1, ?_⟩⟩
      · rw [List.cons_append, lineChars_cons hsingle, if_pos hbreak, hlines]
        rfl
      · exact fun hapart => hpaired.2 (apart_of_cons hapart)
  | case4 c cs hpair hbreak ih =>
    have hne : cs ≠ [] := by
      rintro rfl
      exact hbreak (h c rfl)
    have hreturn : c ≠ '\r' := by
      rintro rfl
      exact hbreak rfl
    obtain ⟨more, hlines, hmore⟩ := ih (closed_of_cons h)
    refine ⟨more, ?_, hmore.imp_right fun hpaired => ⟨hpaired.1, ?_⟩⟩
    · rw [List.cons_append, lineChars_cons fun _ hc => absurd hc hreturn, if_neg hbreak, hlines,
        consFirst_append fun hnil => hne (lineChars_eq_nil_iff.1 hnil)]
    · exact fun hapart => hpaired.2 (apart_of_cons hapart)

theorem lineChars_append_of_apart (h : Closed above) (hapart : Apart above rest) :
    lineChars (above ++ rest) = lineChars above ++ lineChars rest := by
  obtain ⟨more, hlines, rfl | ⟨-, hpair⟩⟩ := lineChars_append_cases h rest
  · exact hlines
  · exact absurd hapart hpair

/-- A line and its break. -/
theorem lineChars_append_break (hline : OneLine line) (hbreak : IsBreak brk) :
    lineChars (line ++ brk) = [line] := by
  induction line with
  | nil =>
    rcases hbreak with rfl | ⟨c, rfl, hc⟩
    · simp [lineChars]
    · rw [List.nil_append, lineChars_cons (by simp), if_pos hc]
      rfl
  | cons c line ih =>
    have hc : isLineBreak c = false := hline c (by simp)
    have hreturn : c ≠ '\r' := by
      rintro rfl
      exact absurd hc (by decide)
    rw [List.cons_append, lineChars_cons fun _ hr => absurd hr hreturn, hc,
      if_neg Bool.false_ne_true, ih fun d hd => hline d (List.mem_cons_of_mem _ hd)]
    rfl

theorem closed_append_break (line : List Char) (hbreak : IsBreak brk) : Closed (line ++ brk) := by
  intro d hd
  rcases hbreak with rfl | ⟨c, rfl, hc⟩
  · rw [List.getLast?_append] at hd
    cases hd
    decide
  · rw [List.getLast?_append] at hd
    cases hd
    exact hc

/-- A text that goes on with a character of a line forms no pair with what is above. -/
theorem apart_of_oneLine (above rest : List Char) (hline : OneLine line) (hne : line ≠ []) :
    Apart above (line ++ rest) := by
  rintro ⟨-, hhead⟩
  rw [List.head?_append_of_ne_nil _ hne] at hhead
  exact absurd (hline _ (List.mem_of_head? hhead)) (by decide)

/-- A line with its break between other lines, where the break forms no pair with them. -/
theorem lineChars_append_line (hclosed : Closed above) (hline : OneLine line)
    (hbreak : IsBreak brk) (habove : Apart above (line ++ brk)) (hbelow : Apart brk rest) :
    lineChars (above ++ (line ++ (brk ++ rest))) = lineChars above ++ line :: lineChars rest := by
  have hne : brk ≠ [] := by
    rcases hbreak with rfl | ⟨c, rfl, -⟩ <;> simp
  have habove' : Apart above (line ++ brk ++ rest) := by
    rintro ⟨hlast, hhead⟩
    rw [List.head?_append_of_ne_nil _ (by simp [hne])] at hhead
    exact habove ⟨hlast, hhead⟩
  have hbelow' : Apart (line ++ brk) rest := by
    rintro ⟨hlast, hhead⟩
    rw [List.getLast?_append_of_ne_nil _ hne] at hlast
    exact hbelow ⟨hlast, hhead⟩
  rw [← List.append_assoc line, lineChars_append_of_apart hclosed habove',
    lineChars_append_of_apart (closed_append_break line hbreak) hbelow',
    lineChars_append_break hline hbreak, List.singleton_append]

/-- A line up to its break or the end of the text; an empty one at the end is none. -/
theorem lineChars_append_rest (hline : OneLine line)
    (hrest : ∀ c, rest.head? = some c → isLineBreak c = true) :
    lineChars (line ++ rest) = line :: (lineChars rest).tail ∨
      line = [] ∧ lineChars (line ++ rest) = (lineChars rest).tail := by
  cases rest with
  | nil =>
    by_cases hne : line = []
    · exact .inr ⟨hne, by simp [hne, lineChars]⟩
    · rw [List.append_nil]
      exact .inl (lineChars_unbroken hline hne)
  | cons c cs =>
    have hfirst : ∃ tail, lineChars (c :: cs) = [] :: tail := by
      by_cases hpair : c = '\r' ∧ ∃ more, cs = '\n' :: more
      · obtain ⟨rfl, more, rfl⟩ := hpair
        exact ⟨_, by rw [lineChars]⟩
      · rw [lineChars_cons fun more hc hcs => hpair ⟨hc, more, hcs⟩, if_pos (hrest c rfl)]
        exact ⟨_, rfl⟩
    obtain ⟨tail, htail⟩ := hfirst
    refine .inl ?_
    rw [htail]
    induction line with
    | nil => exact htail
    | cons d line ih =>
      have hd : isLineBreak d = false := hline d (by simp)
      have hreturn : d ≠ '\r' := by
        rintro rfl
        exact absurd hd (by decide)
      rw [List.cons_append, lineChars_cons fun _ hr => absurd hr hreturn, hd,
        if_neg Bool.false_ne_true, ih fun e he => hline e (List.mem_cons_of_mem _ he)]
      rfl

end Breaks

/-! ## Lines that are skipped -/

section Skipping

variable {above line rest left right : List Char}

/-- What is left of a trimmed line starts where the line starts. -/
theorem head?_stripChars (cs : List Char) : (stripChars cs).head? = firstMark cs := by
  cases hs : stripChars cs with
  | nil =>
    have hblank := isBlank_of_stripChars_eq_nil hs
    rw [firstMark, List.dropWhile_eq_nil_iff.2 hblank]
  | cons c more =>
    have hmark : firstMark (stripChars cs) = some c := by
      rw [hs]
      exact firstMark_cons_of_not_blank (isBlank_of_head?_stripChars (by rw [hs]; rfl))
    exact (firstMark_of_stripChars hmark).symm

theorem isSkipped_congr {line other : List Char} (h : stripChars line = stripChars other) :
    isSkipped line = isSkipped other := by
  rw [isSkipped, isSkipped, ← head?_stripChars, ← head?_stripChars, h]

/-- The lines that are kept are those that are not skipped. -/
theorem isKept_strip (line : List Char) :
    isKept (strip (String.ofList line)) = !isSkipped line := by
  rw [isSkipped, ← head?_stripChars, isKept, toList_strip, String.toList_ofList]
  cases stripChars line <;> rfl

/-- White space around a line is trimmed. -/
theorem stripChars_pad (hleft : IsPadding left) (hright : IsPadding right) :
    stripChars (left ++ line ++ right) = stripChars line := by
  have hfront : ∀ c ∈ left, isBlank c = true := fun c hc => (hleft c hc).1
  have hback : ∀ c ∈ right.reverse, isBlank c = true := fun c hc =>
    (hright c (List.mem_reverse.1 hc)).1
  rw [List.append_assoc, stripChars, List.dropWhile_append_of_pos hfront, stripChars,
    List.dropWhile_append]
  split
  · next hempty =>
    have hright' : right.dropWhile isBlank = [] :=
      List.dropWhile_eq_nil_iff.2 fun c hc => (hright c hc).1
    rw [hright', List.isEmpty_iff.1 hempty]
  · rw [dropEndBlanks, List.reverse_append, List.dropWhile_append_of_pos hback, dropEndBlanks]

/-- Below a boundary, the lines that are not skipped at first are those of the text below. -/
theorem lineChars_append_skip (h : Closed above) (rest : List Char) :
    ∃ more, lineChars (above ++ rest) = lineChars above ++ more ∧
      more.dropWhile isSkipped = (lineChars rest).dropWhile isSkipped := by
  obtain ⟨more, hlines, rfl | ⟨hrest, -⟩⟩ := lineChars_append_cases h rest
  · exact ⟨_, hlines, rfl⟩
  · refine ⟨more, hlines, ?_⟩
    rw [hrest, List.dropWhile_cons_of_pos rfl]

theorem dropWhile_lineChars_append (hline : OneLine line) (hskipped : isSkipped line = true)
    (hrest : ∀ c, rest.head? = some c → isLineBreak c = true) :
    (lineChars (line ++ rest)).dropWhile isSkipped = (lineChars rest).tail.dropWhile isSkipped := by
  obtain hlines | ⟨-, hlines⟩ := lineChars_append_rest hline hrest
  · rw [hlines, List.dropWhile_cons_of_pos hskipped]
  · rw [hlines]

end Skipping

/-! ## Lines before and after a change -/

/-- The lines of a text before and after a change below some lines: either lines were skipped that
    are skipped still, or every line is what it was once it is trimmed. -/
inductive Alike (above : List (List Char)) : List (List Char) → List (List Char) → Prop where
  | skip {old new : List (List Char)} (same : old.dropWhile isSkipped = new.dropWhile isSkipped) :
      Alike above (above ++ old) (above ++ new)
  | trim {old new : List (List Char)} (same : old.map stripChars = new.map stripChars) :
      Alike above old new

theorem Alike.symm {above old new : List (List Char)} (h : Alike above old new) :
    Alike above new old := by
  cases h with
  | skip same => exact .skip same.symm
  | trim same => exact .trim same.symm

theorem Retouch.alike {above old new : List Char} (h : Retouch above old new)
    (hclosed : Closed above) :
    Alike (lineChars above) (lineChars (above ++ old)) (lineChars (above ++ new)) := by
  cases h with
  | @insert line brk _ unbroken skipped ends =>
    -- the text below follows twice: right below `above`, and below the line that is inserted
    obtain ⟨more, hmore, hskip⟩ := lineChars_append_skip hclosed old
    obtain ⟨next, hnext, hskipNext⟩ := lineChars_append_skip hclosed (line ++ (brk ++ old))
    obtain ⟨below, hbelow, hskipBelow⟩ :=
      lineChars_append_skip (closed_append_break line ends) old
    rw [lineChars_append_break unbroken ends, List.append_assoc] at hbelow
    rw [hmore, hnext]
    refine .skip ?_
    rw [hskip, hskipNext, hbelow, List.singleton_append, List.dropWhile_cons_of_pos skipped,
      hskipBelow]
  | insertLast unbroken skipped =>
    obtain ⟨more, hmore, hskip⟩ := lineChars_append_skip hclosed new
    have hlast : (lineChars (new ++ [])).dropWhile isSkipped = [] :=
      dropWhile_lineChars_append unbroken skipped (by simp)
    rw [List.append_nil] at hlast
    have halike : Alike (lineChars above) (lineChars above ++ []) (lineChars above ++ more) := by
      refine .skip ?_
      rw [hskip, hlast, List.dropWhile_nil]
    rw [List.append_nil, ← hmore] at halike
    rwa [List.append_nil]
  | @endLast _ brk unbroken nonempty ends =>
    have hold := lineChars_append_of_apart hclosed (apart_of_oneLine above [] unbroken nonempty)
    have hnew := lineChars_append_of_apart hclosed (apart_of_oneLine above brk unbroken nonempty)
    rw [List.append_nil] at hold
    rw [hold, hnew, lineChars_unbroken unbroken nonempty, lineChars_append_break unbroken ends]
    exact .trim rfl
  | @pad left line right rest unbroken before after ends =>
    have hpadded : OneLine (left ++ line ++ right) := by
      intro c hc
      simp only [List.mem_append] at hc
      rcases hc with (hc | hc) | hc
      · exact (before c hc).2
      · exact unbroken c hc
      · exact (after c hc).2
    have hstrip : stripChars (left ++ line ++ right) = stripChars line :=
      stripChars_pad before after
    by_cases hskipped : isSkipped line = true
    · obtain ⟨more, hmore, hskip⟩ := lineChars_append_skip hclosed (line ++ rest)
      obtain ⟨next, hnext, hskipNext⟩ :=
        lineChars_append_skip hclosed (left ++ line ++ right ++ rest)
      rw [hmore, hnext]
      refine .skip ?_
      rw [hskip, hskipNext, dropWhile_lineChars_append unbroken hskipped ends,
        dropWhile_lineChars_append hpadded ((isSkipped_congr hstrip).trans hskipped) ends]
    · have hne : line ≠ [] := by
        rintro rfl
        exact hskipped rfl
      have hne' : left ++ line ++ right ≠ [] := by simp [hne]
      have hold := lineChars_append_of_apart hclosed (apart_of_oneLine above rest unbroken hne)
      have hnew := lineChars_append_of_apart hclosed (apart_of_oneLine above rest hpadded hne')
      obtain hline | ⟨hnil, -⟩ := lineChars_append_rest unbroken ends
      · obtain hline' | ⟨hnil, -⟩ := lineChars_append_rest hpadded ends
        · rw [hold, hnew, hline, hline']
          refine .trim ?_
          rw [List.map_append, List.map_append, List.map_cons, List.map_cons, hstrip]
        · exact absurd hnil hne'
      · exact absurd hnil hne
  | rebreak unbroken ends otherEnds aboveApart belowApart aboveOther belowOther =>
    rw [lineChars_append_line hclosed unbroken ends aboveApart belowApart,
      lineChars_append_line hclosed unbroken otherEnds aboveOther belowOther]
    exact .trim rfl

/-! ## Numbers before and after a change -/

/-- The kept lines of a text, with their numbers. -/
def keptOf (lines : List (List Char)) (start : Nat) : List (Nat × String) :=
  keptFrom start (lines.map String.ofList)

/-- Kept lines with other numbers. -/
def moved (move : Nat → Nat) (kept : List (Nat × String)) : List (Nat × String) :=
  kept.map fun line => (move line.1, line.2)

section Numbers

variable {above old new lines : List (List Char)} {start : Nat}

theorem keptOf_append (lines more : List (List Char)) (start : Nat) :
    keptOf (lines ++ more) start = keptOf lines start ++ keptOf more (start + lines.length) := by
  rw [keptOf, List.map_append, keptFrom_append, List.length_map]
  rfl

theorem keptOf_eq_nil (h : ∀ line ∈ lines, isSkipped line = true) : keptOf lines start = [] := by
  induction lines generalizing start with
  | nil => rfl
  | cons line lines ih =>
    rw [List.forall_mem_cons] at h
    rw [keptOf, List.map_cons, keptFrom_cons, keptFrom_singleton, isKept_strip, h.1]
    exact ih h.2

/-- The numbers of kept lines are those of lines. -/
theorem lt_of_mem_keptOf {line : Nat × String} (h : line ∈ keptOf lines start) :
    start ≤ line.1 ∧ line.1 < start + lines.length := by
  refine ⟨le_of_mem_keptFrom h, ?_⟩
  obtain ⟨⟨raw, number⟩, hmem, hline⟩ := List.mem_filterMap.1 h
  have hlt := List.snd_lt_add_of_mem_zipIdx hmem
  rw [List.length_map] at hlt
  simp only at hline
  split_ifs at hline
  cases hline
  omega

theorem moved_id (kept : List (Nat × String)) : moved id kept = kept := List.map_id' kept

theorem moved_congr {move more : Nat → Nat} {kept : List (Nat × String)}
    (h : ∀ line ∈ kept, move line.1 = more line.1) : moved move kept = moved more kept :=
  List.map_congr_left fun line hline => by rw [h line hline]

theorem moved_eq_self {move : Nat → Nat} {kept : List (Nat × String)}
    (h : ∀ line ∈ kept, move line.1 = line.1) : moved move kept = kept :=
  (moved_congr h).trans (moved_id kept)

theorem moved_moved (move more : Nat → Nat) (kept : List (Nat × String)) :
    moved more (moved move kept) = moved (more ∘ move) kept := by
  rw [moved, moved, List.map_map]
  rfl

/-- Lines that are skipped move the lines below them, and nothing else. -/
theorem keptOf_dropWhile (h : old.dropWhile isSkipped = new.dropWhile isSkipped) (start : Nat) :
    keptOf new start = moved (fun n => n + new.length - old.length) (keptOf old start) := by
  have hdrop : ∀ lines : List (List Char), keptOf lines start = moved
      (· + (lines.takeWhile isSkipped).length) (keptOf (lines.dropWhile isSkipped) start) := by
    intro lines
    have hsplit := List.takeWhile_append_dropWhile (p := isSkipped) (l := lines)
    have hnil : keptOf (lines.takeWhile isSkipped) start = [] :=
      keptOf_eq_nil fun line hline => List.mem_takeWhile_imp hline
    rw [← hsplit, keptOf_append, hsplit, hnil, List.nil_append, keptOf, keptFrom_add]
    rfl
  have hlength : ∀ lines : List (List Char), lines.length =
      (lines.takeWhile isSkipped).length + (lines.dropWhile isSkipped).length := by
    intro lines
    rw [← List.length_append, List.takeWhile_append_dropWhile]
  rw [hdrop new, hdrop old, moved_moved, h]
  refine moved_congr fun line _ => ?_
  have hold := hlength old
  have hnew := hlength new
  rw [h] at hold
  rw [Function.comp_apply]
  omega

theorem keptOf_trim (h : old.map stripChars = new.map stripChars) (start : Nat) :
    keptOf new start = keptOf old start := by
  induction new generalizing old start with
  | nil =>
    rw [List.map_nil, List.map_eq_nil_iff] at h
    rw [h]
  | cons line new ih =>
    obtain ⟨other, rest, rfl, hline, hrest⟩ := List.map_eq_cons_iff.1 h
    have hstrip : strip (String.ofList line) = strip (String.ofList other) := by
      simp [strip, hline]
    have hkeep : ∀ (first : List Char) (below : List (List Char)), keptOf (first :: below) start =
        keptFrom start [String.ofList first] ++ keptOf below (start + 1) := by
      intro first below
      rw [keptOf, List.map_cons, keptFrom_cons]
      rfl
    rw [hkeep, hkeep, ih hrest, keptFrom_singleton, keptFrom_singleton, hstrip]

/-- A change moves the kept lines below it by as many lines as it adds or removes. -/
theorem Alike.keptOf_eq (h : Alike above old new) :
    keptOf new 1 = moved (fun n => if n ≤ above.length then n else n + new.length - old.length)
      (keptOf old 1) := by
  cases h with
  | @skip old new same =>
    have hfixed : moved (fun n => if n ≤ above.length then n
        else n + (above ++ new).length - (above ++ old).length) (keptOf above 1) =
          keptOf above 1 := by
      refine moved_eq_self fun line hline => ?_
      have hline := lt_of_mem_keptOf hline
      exact if_pos (by omega)
    have hmoved : moved (fun n => if n ≤ above.length then n
        else n + (above ++ new).length - (above ++ old).length) (keptOf old (1 + above.length)) =
          keptOf new (1 + above.length) := by
      rw [keptOf_dropWhile same]
      refine moved_congr fun line hline => ?_
      have hline := lt_of_mem_keptOf hline
      rw [if_neg (by omega), List.length_append, List.length_append]
      omega
    rw [keptOf_append, keptOf_append, moved, List.map_append]
    exact (congrArg₂ (· ++ ·) hfixed hmoved).symm
  | trim same =>
    have hlength : old.length = new.length := by
      rw [← List.length_map stripChars, same, List.length_map]
    rw [keptOf_trim same]
    refine (moved_eq_self fun line _ => ?_).symm
    split_ifs <;> omega

end Numbers

theorem keptOf_retouch {above old new : List Char} (hclosed : Closed above)
    (h : Retouch above old new ∨ Retouch above new old) :
    keptOf (lineChars (above ++ new)) 1 =
      moved (shift above old new) (keptOf (lineChars (above ++ old)) 1) := by
  have halike : Alike (lineChars above) (lineChars (above ++ old)) (lineChars (above ++ new)) := by
    rcases h with h | h
    · exact h.alike hclosed
    · exact (h.alike hclosed).symm
  exact halike.keptOf_eq

/-- Translating the breaks leaves the lines. -/
theorem lineChars_unifyBreakChars (cs : List Char) :
    lineChars (unifyBreakChars cs) = lineChars cs := by
  fun_induction unifyBreakChars cs with
  | case1 => rfl
  | case2 cs ih => rw [lineChars_newline, ih, lineChars]
  | case3 cs hpair ih =>
    rw [lineChars_newline, ih, lineChars_cons fun rest _ hcs => hpair rest hcs]
    rfl
  | case4 c cs hpair hreturn ih =>
    have hsingle : c ≠ '\r' := fun hc => hreturn hc
    rw [lineChars_cons fun _ hc => absurd hc hsingle, ih,
      lineChars_cons fun _ hc => absurd hc hsingle]

/-! ## Sources before and after a change -/

section Sources

variable {source old new : String} {move : Nat → Nat} {body : List Char}

theorem keptLines_of_body (h : (dropByteOrderMark source).toList = body) :
    keptLines source = keptOf (lineChars body) 1 := by
  rw [keptLines_eq, splitLines, h]
  rfl

/-- The texts of the kept lines are those of the lines that are not skipped. -/
theorem map_snd_keptOf (lines : List (List Char)) (start : Nat) :
    (keptOf lines start).map Prod.snd =
      (lines.filter fun line => !isSkipped line).map fun line => strip (String.ofList line) := by
  induction lines generalizing start with
  | nil => rfl
  | cons line lines ih =>
    rw [keptOf, List.map_cons, keptFrom_cons, List.map_append, keptFrom_singleton, isKept_strip,
      List.filter_cons]
    have hrest : (keptFrom (start + 1) (lines.map String.ofList)).map Prod.snd = _ := ih (start + 1)
    rw [hrest]
    split_ifs <;> rfl

/-- A mark at the start of a line is seen in the kept lines. -/
theorem unmarked_iff : Unmarked body ↔ ∀ text ∈ (keptOf (lineChars body) 1).map Prod.snd,
    text.toList.head? ≠ some byteOrderMark := by
  rw [map_snd_keptOf, Unmarked]
  constructor
  · intro h text htext
    obtain ⟨line, hline, rfl⟩ := List.mem_map.1 htext
    rw [toList_strip, String.toList_ofList]
    exact h line (List.mem_filter.1 hline).1
  · intro h line hline hmark
    have hkept : isSkipped line = false := by
      rw [head?_stripChars] at hmark
      rw [isSkipped, hmark]
      decide
    refine h (strip (String.ofList line)) ?_ ?_
    · exact List.mem_map.2 ⟨line, List.mem_filter.2 ⟨hline, by rw [hkept]; rfl⟩, rfl⟩
    · rw [toList_strip, String.toList_ofList, hmark]

theorem head?_of_unmarked (h : Unmarked body) : body.head? ≠ some byteOrderMark := by
  intro hhead
  obtain ⟨rest, rfl⟩ := List.head?_eq_some_iff.1 hhead
  have hlines : ∃ first more,
      lineChars (byteOrderMark :: rest) = (byteOrderMark :: first) :: more := by
    rw [lineChars_cons fun _ hc => absurd hc (by decide), if_neg (by decide)]
    cases lineChars rest with
    | nil => exact ⟨[], [], rfl⟩
    | cons first more => exact ⟨first, more, rfl⟩
  obtain ⟨first, more, hlines⟩ := hlines
  refine h (byteOrderMark :: first) (by rw [hlines]; simp) ?_
  rw [head?_stripChars]
  exact firstMark_cons_of_not_blank (by decide)

theorem dropByteOrderMark_of_head? (h : source.toList.head? ≠ some byteOrderMark) :
    dropByteOrderMark source = source := by
  refine dropByteOrderMark_of_unmarked fun rest hrest => h ?_
  rw [hrest]
  rfl

theorem dropByteOrderMark_cons (body : List Char) :
    dropByteOrderMark (String.ofList (byteOrderMark :: body)) = String.ofList body :=
  dropByteOrderMark_of_marked String.toList_ofList

/-- The body of a source with or without a mark. -/
theorem toList_dropByteOrderMark {mark body : List Char}
    (h : mark = [byteOrderMark] ∨ mark = [] ∧ body.head? ≠ some byteOrderMark) :
    (dropByteOrderMark (String.ofList (mark ++ body))).toList = body := by
  rcases h with rfl | ⟨rfl, hhead⟩
  · rw [List.singleton_append, dropByteOrderMark_cons, String.toList_ofList]
  · rw [List.nil_append, dropByteOrderMark_of_head? (by rwa [String.toList_ofList]),
      String.toList_ofList]

theorem toList_dropByteOrderMark_unifyBreaks (source : String) :
    (dropByteOrderMark (unifyBreaks source)).toList =
      unifyBreakChars (dropByteOrderMark source).toList := by
  by_cases hhead : source.toList.head? = some byteOrderMark
  · obtain ⟨rest, hrest⟩ := List.head?_eq_some_iff.1 hhead
    have hunify : unifyBreakChars (byteOrderMark :: rest) =
        byteOrderMark :: unifyBreakChars rest := by
      rw [unifyBreakChars] <;> simp [byteOrderMark]
    rw [unifyBreaks, dropByteOrderMark_of_marked hrest, hrest, hunify, dropByteOrderMark_cons,
      String.toList_ofList, String.toList_ofList]
  · have hhead' : (unifyBreaks source).toList.head? ≠ some byteOrderMark := by
      rw [unifyBreaks, String.toList_ofList]
      revert hhead
      generalize source.toList = cs
      fun_cases unifyBreakChars cs <;> simp [byteOrderMark]
    rw [dropByteOrderMark_of_head? hhead, dropByteOrderMark_of_head? hhead', unifyBreaks,
      String.toList_ofList]

/-- An edit moves the kept lines, and brings no further mark to the start of a line. -/
theorem Edit.keptLines_eq (h : Edit old new move)
    (hmark : Unmarked (dropByteOrderMark old).toList) :
    keptLines new = moved move (keptLines old) ∧ Unmarked (dropByteOrderMark new).toList := by
  cases h with
  | @retouch mark above before after marked boundary change =>
    have hbody := toList_dropByteOrderMark marked
    rw [hbody] at hmark
    have hkept := keptOf_retouch boundary change
    have hafter : Unmarked (above ++ after) := by
      rw [unmarked_iff, hkept, moved, List.map_map]
      exact unmarked_iff.1 hmark
    have hbody' : (dropByteOrderMark (String.ofList (mark ++ (above ++ after)))).toList =
        above ++ after :=
      toList_dropByteOrderMark (marked.imp_right fun h => ⟨h.1, head?_of_unmarked hafter⟩)
    rw [keptLines_of_body hbody, keptLines_of_body hbody', hbody']
    exact ⟨hkept, hafter⟩
  | unify =>
    have hbody := toList_dropByteOrderMark_unifyBreaks old
    rw [keptLines_of_body hbody, keptLines_of_body rfl, hbody, moved_id, Unmarked,
      lineChars_unifyBreakChars]
    exact ⟨rfl, hmark⟩
  | addMark unmarked =>
    have hbody := dropByteOrderMark_of_head? unmarked
    rw [hbody] at hmark
    rw [moved_id, FeatureFile.keptLines_eq, FeatureFile.keptLines_eq, hbody, dropByteOrderMark_cons,
      String.ofList_toList]
    exact ⟨rfl, hmark⟩
  | removeMark =>
    rw [dropByteOrderMark_cons, String.ofList_toList] at hmark
    have hbody := dropByteOrderMark_of_head? (head?_of_unmarked hmark)
    rw [moved_id, FeatureFile.keptLines_eq, FeatureFile.keptLines_eq, hbody, dropByteOrderMark_cons,
      String.ofList_toList]
    exact ⟨rfl, hmark⟩

theorem Edits.keptLines_eq (h : Edits old new move)
    (hmark : Unmarked (dropByteOrderMark old).toList) :
    keptLines new = moved move (keptLines old) := by
  induction h with
  | refl source => exact (moved_id _).symm
  | step edit _ ih =>
    obtain ⟨hkept, hmark⟩ := edit.keptLines_eq hmark
    rw [ih hmark, hkept, moved_moved]

/-- Lines that are moved are the same lines with other numbers. -/
theorem ofSource_moved (h : keptLines new = moved move (keptLines old)) :
    Line.ofSource new = (Line.ofSource old).map (Line.renumber move) := by
  have hold : Line.ofSource old = (keptLines old).map fun line => Line.ofText line.1 line.2 :=
    ofSource_eq rfl
  rw [ofSource_eq h, hold, moved, List.map_map, List.map_map]
  exact List.map_congr_left fun line _ => Line.ofText_renumber move line.1 line.2

end Sources

/-- However a source is presented, its feature is the same, or else its fault; the fault of the new
    source has the new number of the line that is at fault in the old one. -/
theorem parse_of_edits {old new : String} {move : Nat → Nat}
    (hmark : Unmarked (dropByteOrderMark old).toList) (h : Edits old new move) :
    (keptLines new = (keptLines old).map fun line => (move line.1, line.2)) ∧
    (∀ feature, parse old = .ok feature → parse new = .ok feature) ∧
    ∀ fault, parse old = .error fault → ∃ other, parse new = .error other ∧
      other.diagnostic.kind = fault.diagnostic.kind ∧
      other.diagnostic.message = fault.diagnostic.message ∧
      other.diagnostic.breadcrumbs = fault.diagnostic.breadcrumbs ∧
      other.diagnostic.line = fault.diagnostic.line ∧ other.number = fault.number.map move := by
  have hkept := h.keptLines_eq hmark
  have hparse : parse new = (parse old).mapError (Fault.renumber move) := by
    rw [parse, ofSource_moved hkept, ofLines_renumber]
    rfl
  refine ⟨hkept, fun feature hfeature => ?_, fun fault hfault => ?_⟩
  · rw [hparse, hfeature]
    rfl
  · refine ⟨fault.renumber move, ?_, rfl, rfl, rfl, rfl, rfl⟩
    rw [hparse, hfault]
    rfl

/-- A row below the header of a feature, where none may stand. -/
def plainSource : String := "Feature: f\r|a|"

/-- The same file with a mark, a comment, another break and white space. -/
def dressedSource : String := "\uFEFF# c\nFeature: f\n\t|a|"

/-- The comment becomes the first line. -/
def commentMove : Nat → Nat := shift [] "Feature: f\n|a|".toList "# c\nFeature: f\n|a|".toList

/-- The row is indented. -/
def indentMove : Nat → Nat := shift "# c\nFeature: f\n".toList "|a|".toList "\t|a|".toList

theorem edits_dressedSource : Edits plainSource dressedSource (indentMove ∘ commentMove) := by
  have hunify : Edit plainSource "Feature: f\n|a|" id := .unify plainSource
  have hinsert : Edit "Feature: f\n|a|" "# c\nFeature: f\n|a|" commentMove := by
    refine @Edit.retouch [] [] "Feature: f\n|a|".toList "# c\nFeature: f\n|a|".toList
      (.inr ⟨rfl, by decide⟩) (by simp [Closed]) (.inl ?_)
    exact @Retouch.insert [] "# c".toList ['\n'] _ (by decide) (by decide) (.inr ⟨'\n', rfl, rfl⟩)
  have hpad : Edit "# c\nFeature: f\n|a|" "# c\nFeature: f\n\t|a|" indentMove := by
    refine @Edit.retouch [] "# c\nFeature: f\n".toList "|a|".toList "\t|a|".toList
      (.inr ⟨rfl, by decide⟩) ?_ (.inl ?_)
    · intro c hc
      cases hc
      decide
    · exact @Retouch.pad _ ['\t'] "|a|".toList [] [] (by decide) (by decide) (by decide) (by simp)
  have hmark : Edit "# c\nFeature: f\n\t|a|" dressedSource id := .addMark (by decide)
  have hedits := Edits.step hunify (.step hinsert (.step hpad (.step hmark (.refl dressedSource))))
  exact hedits

theorem parse_dressedSource :
    Unmarked (dropByteOrderMark plainSource).toList ∧
    Edits plainSource dressedSource (indentMove ∘ commentMove) ∧
    parse plainSource = .error ⟨.expectedGroup "|a|", some 2, [.feature "f"]⟩ ∧
    ∃ other, parse dressedSource = .error other ∧
      other.diagnostic.message = (Cause.expectedGroup "|a|").message ∧ other.number = some 3 := by
  have hmark : Unmarked (dropByteOrderMark plainSource).toList := by
    unfold Unmarked
    decide +kernel
  have hparse : parse plainSource = .error ⟨.expectedGroup "|a|", some 2, [.feature "f"]⟩ := by
    decide +kernel
  obtain ⟨-, -, hfaults⟩ := parse_of_edits hmark edits_dressedSource
  obtain ⟨other, hother, -, hmessage, -, -, hnumber⟩ := hfaults _ hparse
  have hmove : (indentMove ∘ commentMove) 2 = 3 := by decide +kernel
  exact ⟨hmark, edits_dressedSource, hparse, other, hother, hmessage,
    hnumber.trans (congrArg some hmove)⟩

end FeatureFile
