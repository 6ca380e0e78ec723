import FeatureFile.Proofs.Presentation
import FeatureFile.Proofs.Shapes
import Mathlib.Logic.Relation

set_option autoImplicit false

/-! # Words for the same group

Some groups are opened by two words, and which of them a header has says nothing. A change of the
word of one header is a `Reword` of the source, and every header has one for each word of its group
(`exists_reword_of_header`). It leaves every line but that header, and of the header its number, its
keyword and its title (`Reword.forall₂_alike`). A draft looks at the text of a header for its faults
only, so two files that differ in such words are read side by side, line by line
(`Draft.Alike.read`), to the same feature, or to faults of the same kind at the same line and in the
same scopes (`parse_of_rewords`). -/

namespace FeatureFile

open Text

/-! ## Results side by side -/

/-- Two faults of the same kind, at the same line and in the same scopes. -/
structure Fault.Alike (fault other : Fault) : Prop where
  kind : other.cause.kind = fault.cause.kind
  number : other.number = fault.number
  scopes : other.scopes = fault.scopes

/-- Two results are both there and stand in a relation, or both are faults, and alike. -/
inductive Agree {α : Type} (R : α → α → Prop) : Except Fault α → Except Fault α → Prop where
  | ok {a b : α} (related : R a b) : Agree R (.ok a) (.ok b)
  | fault {fault other : Fault} (alike : fault.Alike other) :
      Agree R (.error fault) (.error other)

section Results

variable {α β : Type} {R : α → α → Prop} {x y : Except Fault α}

theorem Agree.refl (hR : ∀ a, R a a) (x : Except Fault α) : Agree R x x := by
  cases x with
  | ok a => exact .ok (hR a)
  | error fault => exact .fault ⟨rfl, rfl, rfl⟩

theorem Agree.bind {S : β → β → Prop} {f g : α → Except Fault β} (h : Agree R x y)
    (hf : ∀ a b, R a b → Agree S (f a) (g b)) : Agree S (x.bind f) (y.bind g) := by
  cases h with
  | ok related => exact hf _ _ related
  | fault alike => exact .fault alike

end Results

/-! ## Reading side by side -/

/-- The line with another text. -/
def Line.reworded (line : Line) (text : String) : Line := { line with text := text }

@[simp] theorem Line.reworded_shape (line : Line) (text : String) :
    (line.reworded text).shape = line.shape := rfl

/-- The same line, or the same header with another text. -/
inductive Line.Alike : Line → Line → Prop where
  | same (line : Line) : Alike line line
  | header {line : Line} {keyword : GroupKeyword} {title : String}
      (shape : line.shape = .header keyword title) (text : String) :
      Alike line (line.reworded text)

/-- The same draft, but for the text of the header that a table waits below. -/
inductive Draft.Alike : Draft → Draft → Prop where
  | same (draft : Draft) : Alike draft draft
  | labels {feature : Feature} {outline : Outline} {tags : TagSet} {header other : Line}
      (number : other.number = header.number) :
      Alike (.body feature (.labels outline tags header))
        (.body feature (.labels outline tags other))

namespace Draft

variable {draft other : Draft} {line : Line} {feature : Feature} {keyword : GroupKeyword}
  {title : String}

/-- A header opens a group below the feature whatever word it has. -/
theorem agree_openGroup (feature : Feature) (tags : TagSet) (line : Line) (keyword : GroupKeyword)
    (title text : String) :
    Agree Draft.Alike (openGroup feature tags line keyword title)
      (openGroup feature tags (line.reworded text) keyword title) := by
  cases keyword with
  | background =>
    cases hfirst : feature.background with
    | none =>
      simp only [openGroup, hfirst]
      exact .ok (.same _)
    | some first =>
      simp only [openGroup, hfirst]
      exact .fault ⟨rfl, rfl, rfl⟩
  | scenario | outline => exact .ok (.same _)
  | feature | examples => exact .fault ⟨rfl, rfl, rfl⟩

theorem agree_openInOutline (feature : Feature) (outline : Outline) (tags : TagSet) (line : Line)
    (keyword : GroupKeyword) (title text : String) :
    Agree Draft.Alike (openInOutline feature outline tags line keyword title)
      (openInOutline feature outline tags (line.reworded text) keyword title) := by
  cases keyword with
  | examples =>
    by_cases htitle : title = ""
    · simp only [openInOutline, htitle]
      exact .ok (.labels rfl)
    · simp only [openInOutline, htitle]
      exact .fault ⟨rfl, rfl, rfl⟩
  | _ =>
    simp only [openInOutline]
    exact agree_openGroup _ tags line _ title text

/-- A header does the same to a draft whatever word it has. -/
theorem agree_read_header (draft : Draft) (shape : line.shape = .header keyword title)
    (text : String) :
    Agree Draft.Alike (draft.read line) (draft.read (line.reworded text)) := by
  cases draft with
  | preamble tags description =>
    simp only [read, Line.reworded_shape, shape]
    cases keyword with
    | feature => exact .ok (.same _)
    | _ => exact .fault ⟨rfl, rfl, rfl⟩
  | body feature place =>
    cases place <;> simp only [read, readBody, Line.reworded_shape, shape]
    case description => exact agree_openGroup feature _ line keyword title text
    case tagged pending last => exact agree_openGroup feature pending line keyword title text
    case steps group scenario => exact agree_openGroup _ _ line keyword title text
    case outlineSteps outline => exact agree_openInOutline feature outline _ line keyword title text
    case outlineTagged outline pending last =>
      exact agree_openInOutline feature outline pending line keyword title text
    case labels outline tags header => exact .fault ⟨rfl, rfl, rfl⟩
    case rows outline block => exact agree_openInOutline feature _ _ line keyword title text

/-- Drafts that are alike take lines that are alike, or refuse them, and stay alike. -/
theorem Alike.read {next : Line} (h : draft.Alike other) (hline : line.Alike next) :
    Agree Draft.Alike (draft.read line) (other.read next) := by
  -- the header above a table is kept for the end of the file, a line is read without it
  have hread : other.read next = draft.read next := by
    cases h <;> rfl
  rw [hread]
  cases hline with
  | same => exact .refl .same _
  | header shape text => exact agree_read_header draft shape text

theorem Alike.run {lines others : List Line} (h : draft.Alike other)
    (hlines : List.Forall₂ Line.Alike lines others) :
    Agree Draft.Alike (draft.run lines) (other.run others) := by
  induction hlines generalizing draft other with
  | nil => exact .ok h
  | cons hline _ ih =>
    rw [run_cons, run_cons]
    exact (h.read hline).bind fun _ _ hnext => ih hnext

theorem Alike.finish (h : draft.Alike other) : Agree Eq draft.finish other.finish := by
  cases h with
  | same => exact .refl (fun _ => rfl) _
  | labels number => exact .fault ⟨rfl, congrArg some number, rfl⟩

end Draft

/-- Files whose lines are alike have the same feature, or faults that are alike. -/
theorem agree_ofLines {lines others : List Line} (h : List.Forall₂ Line.Alike lines others) :
    Agree Eq (Feature.ofLines lines) (Feature.ofLines others) := by
  rw [Feature.ofLines_eq, Feature.ofLines_eq]
  exact ((Draft.Alike.same Draft.start).run h).bind fun _ _ hnext => hnext.finish

/-! ## Changing the word of a header -/

/-- A line with a header: white space, a word, white space, a colon, and whatever follows. -/
def headerChars (left : List Char) (word : String) (gap rest : List Char) : List Char :=
  left ++ (word.toList ++ (gap ++ ':' :: rest))

/-- A header of a source gets another word for the same group. -/
inductive Reword : String → String → Prop where
  | header {mark above left gap rest : List Char} {word other : String} {keyword : GroupKeyword}
      (marked : mark = [byteOrderMark] ∨ mark = [] ∧ above.head? ≠ some byteOrderMark)
      (boundary : Closed above) (before : IsPadding left) (after : IsPadding gap)
      (opens : OpensGroup word keyword) (otherOpens : OpensGroup other keyword) :
      Reword (String.ofList (mark ++ (above ++ headerChars left word gap rest)))
        (String.ofList (mark ++ (above ++ headerChars left other gap rest)))

/-! ## Lines with a header -/

section Headers

variable {left gap tail rest above : List Char} {word : String} {keyword : GroupKeyword}

/-- What a header word is made of. -/
theorem chars_of_opensGroup (h : OpensGroup word keyword) :
    OneLine word.toList ∧ ':' ∉ word.toList ∧ stripChars word.toList = word.toList ∧
      ∃ c cs, word.toList = c :: cs ∧ isBlank c = false ∧ c ≠ '#' ∧ c ≠ byteOrderMark := by
  cases h <;> exact ⟨by decide, by decide, by decide, _, _, rfl, by decide, by decide, by decide⟩

theorem oneLine_headerChars (hleft : IsPadding left) (hgap : IsPadding gap)
    (hword : OpensGroup word keyword) (htail : OneLine tail) :
    OneLine (headerChars left word gap tail) := by
  intro c hc
  simp only [headerChars, List.mem_append, List.mem_cons] at hc
  rcases hc with hc | hc | hc | rfl | hc
  · exact (hleft c hc).2
  · exact (chars_of_opensGroup hword).1 c hc
  · exact (hgap c hc).2
  · decide
  · exact htail c hc

theorem dropEndBlanks_append_cons {c : Char} (hc : isBlank c = false) (front tail : List Char) :
    dropEndBlanks (front ++ c :: tail) = front ++ c :: dropEndBlanks tail := by
  have hfront : (c :: front.reverse).dropWhile isBlank = c :: front.reverse :=
    List.dropWhile_cons_of_neg (by simp [hc])
  rw [dropEndBlanks, List.reverse_append, List.reverse_cons, List.append_assoc,
    List.singleton_append, List.dropWhile_append, hfront]
  split
  · next hempty => simp [dropEndBlanks, List.isEmpty_iff.1 hempty]
  · simp [dropEndBlanks]

/-- A trimmed header starts with its word. -/
theorem stripChars_headerChars (hleft : IsPadding left) (hword : OpensGroup word keyword)
    (gap tail : List Char) :
    stripChars (headerChars left word gap tail) =
      word.toList ++ (gap ++ ':' :: dropEndBlanks tail) := by
  obtain ⟨-, -, -, c, cs, hchars, hc, -, -⟩ := chars_of_opensGroup hword
  have hpad : stripChars (left ++ (word.toList ++ (gap ++ ':' :: tail)) ++ []) =
      stripChars (word.toList ++ (gap ++ ':' :: tail)) :=
    stripChars_pad hleft (by simp [IsPadding])
  rw [List.append_nil] at hpad
  have hfront : (word.toList ++ (gap ++ ':' :: tail)).dropWhile isBlank =
      word.toList ++ (gap ++ ':' :: tail) := by
    rw [hchars, List.cons_append]
    exact List.dropWhile_cons_of_neg (by simp [hc])
  rw [headerChars, hpad, stripChars, hfront, ← List.append_assoc,
    dropEndBlanks_append_cons (by decide),
    List.append_assoc]

theorem shape_headerChars (hleft : IsPadding left) (hgap : IsPadding gap)
    (hword : OpensGroup word keyword) (tail : List Char) :
    Shape.ofText (strip (String.ofList (headerChars left word gap tail))) =
      .header keyword (String.ofList (stripChars (dropEndBlanks tail))) := by
  obtain ⟨-, hcolon, htrimmed, -⟩ := chars_of_opensGroup hword
  have hgapColon : ':' ∉ gap := fun h => absurd (hgap ':' h).1 (by decide)
  have hshows : Shape.Shows (strip (String.ofList (headerChars left word gap tail)))
      (.header keyword (String.ofList (stripChars (dropEndBlanks tail)))) := by
    refine .header
      ⟨word.toList ++ gap, dropEndBlanks tail, ?_, by simp [hcolon, hgapColon], ?_, rfl⟩
      hword
    · rw [toList_strip, String.toList_ofList, stripChars_headerChars hleft hword,
        List.append_assoc]
    · have hpad : stripChars ([] ++ word.toList ++ gap) = stripChars word.toList :=
        stripChars_pad (by simp [IsPadding]) hgap
      rw [List.nil_append] at hpad
      rw [hpad, htrimmed, String.ofList_toList]
  rw [Shape.ofText, Shape.header?_of_shows hshows]

/-- A header is a kept line. -/
theorem keptOf_headerChars (hleft : IsPadding left) (hword : OpensGroup word keyword)
    (gap tail : List Char) (start : Nat) :
    keptOf [headerChars left word gap tail] start =
      [(start, strip (String.ofList (headerChars left word gap tail)))] := by
  obtain ⟨-, -, -, c, cs, hchars, -, hcomment, -⟩ := chars_of_opensGroup hword
  have hkept : isKept (strip (String.ofList (headerChars left word gap tail))) = true := by
    rw [isKept, toList_strip, String.toList_ofList, stripChars_headerChars hleft hword, hchars]
    simpa using hcomment
  rw [keptOf, List.map_singleton, keptFrom_singleton, if_pos hkept]

/-- The lines of a text with a header. -/
theorem lineChars_headerChars (habove : Closed above) (hleft : IsPadding left)
    (hgap : IsPadding gap) (hword : OpensGroup word keyword) (htail : OneLine tail)
    (hrest : ∀ c, rest.head? = some c → isLineBreak c = true) :
    lineChars (above ++ headerChars left word gap (tail ++ rest)) =
      lineChars above ++ headerChars left word gap tail :: (lineChars rest).tail := by
  have hline := oneLine_headerChars hleft hgap hword htail
  have hne : headerChars left word gap tail ≠ [] := by simp [headerChars]
  have hsplit : headerChars left word gap (tail ++ rest) =
      headerChars left word gap tail ++ rest := by simp [headerChars]
  rw [hsplit, lineChars_append_of_apart habove (apart_of_oneLine above rest hline hne)]
  obtain hlines | ⟨hnil, -⟩ := lineChars_append_rest hline hrest
  · rw [hlines]
  · exact absurd hnil hne

/-- Every line that is a header is its word and a colon, between white space. -/
theorem exists_headerChars_of_shape {raw : List Char} {keyword : GroupKeyword} {title : String}
    (hline : OneLine raw)
    (h : Shape.ofText (strip (String.ofList raw)) = .header keyword title) :
    ∃ left word gap tail, raw = headerChars left word gap tail ∧ IsPadding left ∧ IsPadding gap ∧
      OpensGroup word keyword ∧ OneLine tail := by
  obtain ⟨word, hword, hcut⟩ : ∃ word, OpensGroup word keyword ∧
      IsCutTrimmed ':' (strip (String.ofList raw)) word title := by
    rcases (Shape.ofText_eq_iff (strip_strip _)).1 h with hshows | ⟨hfree, -⟩
    · cases hshows with
      | header cut opens => exact ⟨_, opens, cut⟩
    · cases hfree
  obtain ⟨before, after, htext, -, hbefore, -⟩ := hcut
  rw [toList_strip, String.toList_ofList] at htext
  obtain ⟨left, right, hraw, hleft, -⟩ := exists_pads_of_stripChars raw
  obtain ⟨front, gap, hfront, hfrontBlank, hgap⟩ := exists_pads_of_stripChars before
  have hchars : raw = headerChars (left ++ front) word gap (after ++ right) := by
    rw [headerChars, hbefore, String.toList_ofList]
    conv_lhs => rw [hraw, htext, hfront]
    simp only [List.append_assoc, List.cons_append]
  have hgapRaw : ∀ c ∈ gap, c ∈ raw := fun c hc =>
    hchars ▸ List.mem_append_right _ (List.mem_append_right _ (List.mem_append_left _ hc))
  have htailRaw : ∀ c ∈ after ++ right, c ∈ raw := fun c hc =>
    hchars ▸ List.mem_append_right _ (List.mem_append_right _
      (List.mem_append_right _ (List.mem_cons_of_mem _ hc)))
  refine ⟨left ++ front, word, gap, after ++ right, hchars, fun c hc => ⟨?_, ?_⟩,
    fun c hc => ⟨hgap c hc, hline c (hgapRaw c hc)⟩, hword, fun c hc => hline c (htailRaw c hc)⟩
  · exact (List.mem_append.1 hc).elim (hleft c) (hfrontBlank c)
  · exact hline c (hchars ▸ List.mem_append_left _ hc)

theorem head?_headerChars (hleft : IsPadding left) (hword : OpensGroup word keyword)
    (habove : above.head? ≠ some byteOrderMark) :
    (above ++ headerChars left word gap rest).head? ≠ some byteOrderMark := by
  obtain ⟨-, -, -, c, cs, hchars, -, -, hmark⟩ := chars_of_opensGroup hword
  cases above with
  | cons d above => exact habove
  | nil =>
    cases left with
    | nil => simpa [headerChars, hchars] using hmark
    | cons d left =>
      have hd : d ≠ byteOrderMark := by
        rintro rfl
        exact absurd (hleft _ List.mem_cons_self).1 (by decide)
      simpa [headerChars] using hd

end Headers

/-! ## Sources with another word -/

section Sources

variable {old new : String}

theorem Line.ofText_strip (number : Nat) (raw : String) :
    Line.ofText number (strip raw) = Line.ofText number raw := by
  simp only [Line.ofText, strip_strip]

/-- Lines of the same shape differ in their text only. -/
theorem Line.reworded_ofText (number : Nat) {raw other : String}
    (h : Shape.ofText (strip raw) = Shape.ofText (strip other)) :
    (Line.ofText number raw).reworded (strip other) = Line.ofText number other := by
  simp only [Line.ofText, Line.reworded, h]

/-- The lines of a source with a header: those above it, the header, and those below. -/
theorem ofSource_headerChars {mark above left gap tail rest : List Char} {word : String}
    {keyword : GroupKeyword}
    (marked : mark = [byteOrderMark] ∨ mark = [] ∧ above.head? ≠ some byteOrderMark)
    (boundary : Closed above) (before : IsPadding left) (after : IsPadding gap)
    (opens : OpensGroup word keyword) (htail : OneLine tail)
    (hrest : ∀ c, rest.head? = some c → isLineBreak c = true) :
    Line.ofSource (String.ofList (mark ++ (above ++ headerChars left word gap (tail ++ rest)))) =
      (keptOf (lineChars above) 1).map (fun line => Line.ofText line.1 line.2) ++
        Line.ofText (1 + (lineChars above).length)
            (String.ofList (headerChars left word gap tail)) ::
          (keptOf (lineChars rest).tail (1 + (lineChars above).length + 1)).map
            fun line => Line.ofText line.1 line.2 := by
  have hbody : (dropByteOrderMark (String.ofList
      (mark ++ (above ++ headerChars left word gap (tail ++ rest))))).toList =
        above ++ headerChars left word gap (tail ++ rest) :=
    toList_dropByteOrderMark (marked.imp_right fun h => ⟨h.1, head?_headerChars before opens h.2⟩)
  have hkept := keptLines_of_body hbody
  rw [lineChars_headerChars boundary before after opens htail hrest, keptOf_append,
    ← List.singleton_append, keptOf_append, keptOf_headerChars before opens] at hkept
  rw [ofSource_eq hkept, List.map_append, List.singleton_append, List.map_cons, Line.ofText_strip]
  rfl

/-- A change of a header leaves the other lines, and all of the header but its text. -/
theorem Reword.forall₂_alike (h : Reword old new) :
    List.Forall₂ Line.Alike (Line.ofSource old) (Line.ofSource new) := by
  obtain @⟨mark, above, left, gap, rest, word, other, keyword, marked, boundary, before, after,
    opens, otherOpens⟩ := h
  -- the line of the header goes on to the next break
  let tail := rest.takeWhile fun c => !isLineBreak c
  let below := rest.dropWhile fun c => !isLineBreak c
  have hsplit : tail ++ below = rest := List.takeWhile_append_dropWhile
  have htail : OneLine tail := fun c hc => by simpa using List.mem_takeWhile_imp hc
  have hbelow : ∀ c, below.head? = some c → isLineBreak c = true := by
    intro c hc
    have hfirst := List.head?_dropWhile_not (fun c => !isLineBreak c) rest
    rw [hc] at hfirst
    simpa using hfirst
  have hsame : ∀ lines : List Line, List.Forall₂ Line.Alike lines lines :=
    fun lines => List.forall₂_same.2 fun line _ => .same line
  rw [← hsplit, ofSource_headerChars marked boundary before after opens htail hbelow,
    ofSource_headerChars marked boundary before after otherOpens htail hbelow]
  refine List.rel_append (hsame _) (.cons ?_ (hsame _))
  have hshape := shape_headerChars before after opens tail
  rw [← Line.reworded_ofText _ (hshape.trans (shape_headerChars before after otherOpens tail).symm)]
  exact .header ((Line.shape_ofText _ _).trans hshape) _

theorem closed_cons {c : Char} {above : List Char} (hc : above = [] → isLineBreak c = true)
    (h : Closed above) : Closed (c :: above) := by
  intro d hd
  rw [List.getLast?_cons] at hd
  cases hlast : above.getLast? with
  | none =>
    rw [hlast] at hd
    cases hd
    exact hc (List.getLast?_eq_none_iff.1 hlast)
  | some e =>
    rw [hlast] at hd
    cases hd
    exact h e hlast

/-- Where a line of a text stands: below the breaks of the lines above it, and above a break. -/
theorem exists_above_of_lineChars {cs raw : List Char} {before after : List (List Char)}
    (h : lineChars cs = before ++ raw :: after) :
    ∃ above below, cs = above ++ (raw ++ below) ∧ Closed above ∧ (above = [] ↔ before = []) ∧
      (lineChars above).length = before.length ∧
      ∀ c, below.head? = some c → isLineBreak c = true := by
  fun_induction lineChars cs generalizing before raw with
  | case1 => simp at h
  | case2 cs ih =>
    cases before with
    | nil =>
      obtain ⟨rfl, -⟩ := List.cons.inj h
      refine ⟨[], '\r' :: '\n' :: cs, rfl, by simp [Closed], by simp, rfl, ?_⟩
      rintro c ⟨⟩
      decide
    | cons first before =>
      obtain ⟨above, below, rfl, hclosed, hnil, hlength, hbelow⟩ := ih (List.cons.inj h).2
      refine ⟨'\r' :: '\n' :: above, below, rfl, ?_, by simp, ?_, hbelow⟩
      · exact closed_cons (by simp) (closed_cons (fun _ => by decide) hclosed)
      · rw [lineChars, List.length_cons, List.length_cons, hlength]
  | case3 c cs hpair hbreak ih =>
    cases before with
    | nil =>
      obtain ⟨rfl, -⟩ := List.cons.inj h
      refine ⟨[], c :: cs, rfl, by simp [Closed], by simp, rfl, ?_⟩
      rintro d ⟨⟩
      exact hbreak
    | cons first before =>
      obtain ⟨above, below, rfl, hclosed, hnil, hlength, hbelow⟩ := ih (List.cons.inj h).2
      refine ⟨c :: above, below, rfl, closed_cons (fun _ => hbreak) hclosed, by simp, ?_, hbelow⟩
      rw [lineChars_cons, if_pos hbreak, List.length_cons, List.length_cons, hlength]
      rintro rest rfl rfl
      exact hpair _ rfl rfl
  | case4 c cs hpair hbreak ih =>
    cases hlines : lineChars cs with
    | nil =>
      rw [hlines, consFirst] at h
      obtain ⟨rfl, rfl, -⟩ : before = [] ∧ raw = [c] ∧ after = [] := by
        cases before <;> simp_all
      obtain rfl := lineChars_eq_nil_iff.1 hlines
      exact ⟨[], [], rfl, by simp [Closed], by simp, rfl, by simp⟩
    | cons piece pieces =>
      rw [hlines, consFirst] at h
      cases before with
      | nil =>
        obtain ⟨rfl, rfl⟩ := List.cons.inj h
        obtain ⟨above, below, rfl, -, hnil, -, hbelow⟩ := @ih piece [] hlines
        obtain rfl := hnil.2 rfl
        exact ⟨[], below, rfl, by simp [Closed], by simp, rfl, hbelow⟩
      | cons first before =>
        obtain ⟨rfl, rfl⟩ := List.cons.inj h
        obtain ⟨above, below, rfl, hclosed, hnil, hlength, hbelow⟩ :=
          @ih raw (piece :: before) hlines
        have hne : above ≠ [] := fun habove => by simpa using hnil.1 habove
        have hreturn : c ≠ '\r' := by
          rintro rfl
          exact hbreak rfl
        refine ⟨c :: above, below, rfl, closed_cons (fun habove => absurd habove hne) hclosed,
          by simp, ?_, hbelow⟩
        rw [lineChars_cons fun _ hc => absurd hc hreturn, if_neg hbreak, Row.length_consFirst,
          hlength]
        · rfl
        · exact fun habove => hne (lineChars_eq_nil_iff.1 habove)

/-- A source is its text, with or without a mark in front. -/
theorem exists_mark (source : String) :
    ∃ mark, source = String.ofList (mark ++ (dropByteOrderMark source).toList) ∧
      (mark = [byteOrderMark] ∨
        mark = [] ∧ (dropByteOrderMark source).toList.head? ≠ some byteOrderMark) := by
  by_cases hhead : source.toList.head? = some byteOrderMark
  · obtain ⟨rest, hrest⟩ := List.head?_eq_some_iff.1 hhead
    refine ⟨[byteOrderMark], ?_, .inl rfl⟩
    rw [dropByteOrderMark_of_marked hrest, String.toList_ofList, List.singleton_append, ← hrest,
      String.ofList_toList]
  · refine ⟨[], ?_, .inr ⟨rfl, ?_⟩⟩
    · rw [dropByteOrderMark_of_head? hhead, List.nil_append, String.ofList_toList]
    · rwa [dropByteOrderMark_of_head? hhead]

/-- A line of a source is one of the lines of its text, with the number that this has. -/
theorem exists_lineChars_of_mem {source : String} {line : Line} (h : line ∈ Line.ofSource source) :
    ∃ before raw after,
      lineChars (dropByteOrderMark source).toList = before ++ raw :: after ∧
        line = Line.ofText (1 + before.length) (String.ofList raw) := by
  obtain ⟨⟨number, text⟩, hkept, rfl⟩ := List.mem_map.1 h
  obtain ⟨⟨raw, position⟩, hraw, hsome⟩ := List.mem_filterMap.1 hkept
  simp only [Option.ite_none_right_eq_some, Option.some.injEq, Prod.mk.injEq] at hsome
  obtain ⟨-, rfl, rfl⟩ := hsome
  obtain ⟨hstart, hget⟩ := List.mk_mem_zipIdx_iff_le_and_getElem?_sub.1 hraw
  rw [splitLines, List.getElem?_map, Option.map_eq_some_iff] at hget
  obtain ⟨cs, hcs, rfl⟩ := hget
  obtain ⟨hlt, hcs⟩ := List.getElem?_eq_some_iff.1 hcs
  let lines := lineChars (dropByteOrderMark source).toList
  refine ⟨lines.take (position - 1), cs, lines.drop (position - 1 + 1), ?_, ?_⟩
  · rw [← hcs, ← List.drop_eq_getElem_cons hlt, List.take_append_drop]
  · rw [List.length_take_of_le hlt.le, Nat.add_sub_cancel' hstart]
    exact Line.ofText_strip position (String.ofList cs)

/-- Every header of a source can be given every word for its group. -/
theorem exists_reword_of_header {source other : String} {line : Line} {keyword : GroupKeyword}
    {title : String} (hline : line ∈ Line.ofSource source)
    (shape : line.shape = .header keyword title) (hother : OpensGroup other keyword) :
    ∃ new text, Reword source new ∧ line.reworded text ∈ Line.ofSource new ∧
      other.toList <+: text.toList := by
  obtain ⟨lines, raw, more, hlines, rfl⟩ := exists_lineChars_of_mem hline
  obtain ⟨mark, hsource, marked⟩ := exists_mark source
  obtain ⟨above, below, hcs, boundary, -, hlength, hbelow⟩ := exists_above_of_lineChars hlines
  have hraw : OneLine raw :=
    not_isLineBreak_of_mem_lineChars _ raw (by rw [hlines]; simp)
  rw [Line.shape_ofText] at shape
  obtain ⟨left, word, gap, tail, rfl, before, after, opens, htail⟩ :=
    exists_headerChars_of_shape hraw shape
  have hchars : headerChars left word gap tail ++ below =
      headerChars left word gap (tail ++ below) := by
    simp [headerChars]
  rw [hchars] at hcs
  have hmark : mark = [byteOrderMark] ∨ mark = [] ∧ above.head? ≠ some byteOrderMark := by
    refine marked.imp_right fun h => ⟨h.1, fun habove => h.2 ?_⟩
    rw [hcs, List.head?_append, habove]
    rfl
  refine ⟨String.ofList (mark ++ (above ++ headerChars left other gap (tail ++ below))),
    strip (String.ofList (headerChars left other gap tail)), ?_, ?_, ?_⟩
  · rw [hsource, hcs]
    exact .header hmark boundary before after opens hother
  · rw [ofSource_headerChars hmark boundary before after hother htail hbelow, hlength]
    have hshape := (shape_headerChars before after opens tail).trans
      (shape_headerChars before after hother tail).symm
    rw [Line.reworded_ofText _ hshape]
    exact List.mem_append_right _ List.mem_cons_self
  · rw [toList_strip, String.toList_ofList, stripChars_headerChars before hother]
    exact List.prefix_append _ _

theorem Reword.agree_parse (h : Reword old new) : Agree Eq (parse old) (parse new) :=
  agree_ofLines h.forall₂_alike

end Sources

theorem Agree.trans {α : Type} {x y z : Except Fault α} (h : Agree Eq x y) (h' : Agree Eq y z) :
    Agree Eq x z := by
  cases h with
  | ok related =>
    subst related
    exact h'
  | fault alike =>
    cases h' with
    | fault alike' =>
      exact .fault ⟨alike'.kind.trans alike.kind, alike'.number.trans alike.number,
        alike'.scopes.trans alike.scopes⟩

/-- Whatever words the headers of a source have for their groups, its feature is the same, or else
    the kind, the line and the scopes of its fault. -/
theorem parse_of_rewords {old new : String} (h : Relation.ReflTransGen Reword old new) :
    (∀ feature, parse old = .ok feature → parse new = .ok feature) ∧
    ∀ fault, parse old = .error fault → ∃ other, parse new = .error other ∧
      other.diagnostic.kind = fault.diagnostic.kind ∧
      other.diagnostic.number = fault.diagnostic.number ∧
      other.diagnostic.breadcrumbs.dropLast = fault.diagnostic.breadcrumbs.dropLast := by
  have hagree : Agree Eq (parse old) (parse new) := by
    induction h with
    | refl => exact .refl (fun _ => rfl) _
    | tail _ hstep ih => exact ih.trans hstep.agree_parse
  generalize parse new = result at hagree ⊢
  constructor
  · intro feature hfeature
    rw [hfeature] at hagree
    cases hagree with
    | ok related => rw [related]
  · intro fault hfault
    rw [hfault] at hagree
    cases hagree with
    | @fault _ other alike =>
      refine ⟨other, rfl, alike.kind, ?_, ?_⟩
      · exact congrArg (Option.map Int.ofNat) alike.number
      · simp only [Diagnostic.breadcrumbs, List.dropLast_concat]
        exact congrArg (List.map Scope.describe) alike.scopes

/-- A table without an outline above it. -/
def examplesSource : String := "Feature: f\n Example : e\nExamples: x"

/-- The same file, with other words in both headers. -/
def scenariosSource : String := "Feature: f\n Scenario : e\nScenarios: x"

theorem rewords_scenariosSource : Relation.ReflTransGen Reword examplesSource scenariosSource := by
  have hfirst : Reword examplesSource "Feature: f\n Scenario : e\nExamples: x" :=
    @Reword.header [] "Feature: f\n".toList [' '] [' '] " e\nExamples: x".toList "Example"
      "Scenario"
      _ (.inr ⟨rfl, by decide⟩) (by simp [Closed]; decide) (by decide) (by decide) .exampleWord
      .scenario
  have hsecond : Reword "Feature: f\n Scenario : e\nExamples: x" scenariosSource :=
    @Reword.header [] "Feature: f\n Scenario : e\n".toList [] [] " x".toList "Examples" "Scenarios"
      _ (.inr ⟨rfl, by decide⟩) (by simp [Closed]; decide) (by decide) (by decide) .examples
      .scenarios
  exact .tail (.single hfirst) hsecond

theorem parse_scenariosSource :
    Relation.ReflTransGen Reword examplesSource scenariosSource ∧
    parse examplesSource = .error ⟨.misplacedGroup .examples "Examples: x", some 3,
      [.feature "f"]⟩ ∧
    ∃ other, parse scenariosSource = .error other ∧ other.diagnostic.kind = .structural ∧
      other.diagnostic.number = some 3 ∧
      other.diagnostic.breadcrumbs.dropLast = ["while parsing feature \"f\""] := by
  have hparse : parse examplesSource =
      .error ⟨.misplacedGroup .examples "Examples: x", some 3, [.feature "f"]⟩ := by
    decide +kernel
  exact ⟨rewords_scenariosSource, hparse, (parse_of_rewords rewords_scenariosSource).2 _ hparse⟩

end FeatureFile
