import FeatureFile.Proofs.WellFormed

set_option autoImplicit false

/-! # The shapes of lines

What a trimmed line is, said of the text alone: a header is told by the word before its first colon,
a step by the word before its first space, tags and rows by their first character (`Shape.Shows`).
Four tests look for these shapes, one after the other. The words of headers and steps and the two
marks are such that none of one kind starts another of a different kind, and a trimmed line starts
with the word or mark of its shape. So no line passes two tests, and their order does not matter
(`Line.classified_ofText`). -/

namespace FeatureFile

open Text

/-! ## Words and pieces -/

/-- The words of headers, with the group each of them stands for. -/
inductive OpensGroup : String → GroupKeyword → Prop where
  | feature : OpensGroup "Feature" .feature
  | background : OpensGroup "Background" .background
  | scenario : OpensGroup "Scenario" .scenario
  | exampleWord : OpensGroup "Example" .scenario
  | scenarioOutline : OpensGroup "Scenario Outline" .outline
  | scenarioTemplate : OpensGroup "Scenario Template" .outline
  | examples : OpensGroup "Examples" .examples
  | scenarios : OpensGroup "Scenarios" .examples

/-- The words of steps. -/
inductive OpensStep : String → StepKeyword → Prop where
  | given : OpensStep "Given" .given
  | when_ : OpensStep "When" .when_
  | then_ : OpensStep "Then" .then_
  | and_ : OpensStep "And" .and_
  | but : OpensStep "But" .but
  | bullet : OpensStep "*" .bullet

theorem GroupKeyword.ofWord?_eq_some_iff {word : String} {keyword : GroupKeyword} :
    ofWord? word = some keyword ↔ OpensGroup word keyword := by
  constructor
  · intro h
    obtain ⟨front, back, hwords, -⟩ := List.lookup_eq_some_iff.1 h
    have hmem : (word, keyword) ∈ words := hwords ▸ List.mem_append_right front List.mem_cons_self
    simp only [words, List.mem_cons, Prod.mk.injEq, List.not_mem_nil, or_false] at hmem
    rcases hmem with ⟨rfl, rfl⟩ | ⟨rfl, rfl⟩ | ⟨rfl, rfl⟩ | ⟨rfl, rfl⟩ | ⟨rfl, rfl⟩ | ⟨rfl, rfl⟩ |
      ⟨rfl, rfl⟩ | ⟨rfl, rfl⟩ <;> constructor
  · intro h
    cases h <;> rfl

theorem StepKeyword.ofWord?_eq_some_iff {word : String} {keyword : StepKeyword} :
    ofWord? word = some keyword ↔ OpensStep word keyword := by
  constructor
  · intro h
    have hword : keyword.word = word := by simpa using List.find?_some h
    rw [← hword]
    cases keyword <;> constructor
  · intro h
    cases h <;> rfl

/-- The text is cut at its first `sep` into `word` and `rest`, both trimmed. -/
def IsCutTrimmed (sep : Char) (text word rest : String) : Prop :=
  ∃ before after, text.toList = before ++ sep :: after ∧ sep ∉ before ∧
    word = String.ofList (stripChars before) ∧ rest = String.ofList (stripChars after)

theorem cutTrimmed?_eq_some_iff {sep : Char} {text word rest : String} :
    cutTrimmed? sep text = some (word, rest) ↔ IsCutTrimmed sep text word rest := by
  constructor
  · intro h
    obtain ⟨⟨before, after⟩, hcut, heq⟩ := Option.map_eq_some_iff.1 h
    obtain ⟨hword, hrest⟩ := Prod.mk.inj heq
    obtain ⟨htext, hfirst⟩ := cutAt_eq_some hcut
    exact ⟨before, after, htext, hfirst, hword.symm, hrest.symm⟩
  · rintro ⟨before, after, htext, hfirst, rfl, rfl⟩
    rw [cutTrimmed?, htext, cutAt_append_cons hfirst]
    rfl

/-- A separator before each of the pieces gives the text again. -/
theorem flatMap_piecesAt (sep : Char) (cs : List Char) :
    (piecesAt (· == sep) cs).flatMap (sep :: ·) = sep :: cs := by
  induction cs with
  | nil => rfl
  | cons c cs ih =>
    rw [piecesAt]
    split
    · next hc =>
      rw [List.flatMap_cons, ih, LawfulBEq.eq_of_beq hc]
      rfl
    · cases hcut : piecesAt (· == sep) cs with
      | nil => exact absurd hcut (piecesAt_ne_nil _ cs)
      | cons piece pieces =>
        rw [hcut, List.flatMap_cons] at ih
        simpa [consFirst] using ih

theorem piecesAt_eq_singleton {sep : Char} {cs : List Char} (h : sep ∉ cs) :
    piecesAt (· == sep) cs = [cs] :=
  piecesAt_of_forall_not fun _ hc => beq_false_of_ne (ne_of_mem_of_not_mem hc h)

/-- Pieces that do not hold the separator are told apart by the separators between them. -/
theorem piecesAt_eq_of_flatMap {sep : Char} {pieces : List (List Char)} {cs : List Char}
    (hpieces : ∀ piece ∈ pieces, sep ∉ piece) (h : pieces.flatMap (sep :: ·) = sep :: cs) :
    piecesAt (· == sep) cs = pieces := by
  induction pieces generalizing cs with
  | nil => simp at h
  | cons piece pieces ih =>
    rw [List.forall_mem_cons] at hpieces
    rw [List.flatMap_cons, List.cons_append, List.cons.injEq] at h
    obtain ⟨-, rfl⟩ := h
    cases pieces with
    | nil => simpa using piecesAt_eq_singleton hpieces.1
    | cons next pieces =>
      rw [List.flatMap_cons, List.cons_append,
        piecesAt_append_cons (by simp), piecesAt_eq_singleton hpieces.1,
        ih hpieces.2 (by rw [List.flatMap_cons, List.cons_append])]
      rfl

/-! ## What a text shows -/

namespace Shape

/-- What a text shows, by its first colon, its first space or its first character. -/
inductive Shows (text : String) : Shape → Prop where
  | header {word title : String} {keyword : GroupKeyword} (cut : IsCutTrimmed ':' text word title)
      (opens : OpensGroup word keyword) : Shows text (.header keyword title)
  | step {word content : String} {keyword : StepKeyword} (cut : IsCutTrimmed ' ' text word content)
      (opens : OpensStep word keyword) : Shows text (.step keyword content)
  | tags {pieces : List (List Char)} (nonempty : pieces ≠ [])
      (unmarked : ∀ piece ∈ pieces, '@' ∉ piece) (marks : text.toList = pieces.flatMap ('@' :: ·)) :
      Shows text (.tags (pieces.map fun piece => String.ofList (stripChars piece)))
  | row {rest : List Char} (bar : text.toList = '|' :: rest) : Shows text .row

/-- The names in a line of tags. -/
def tags? (text : String) : Option Shape :=
  match text.toList with
  | '@' :: rest =>
    some (tags ((piecesAt (· == '@') rest).map fun name => String.ofList (stripChars name)))
  | _ => none

/-- A row starts with a bar. -/
def row? (text : String) : Option Shape :=
  match text.toList with
  | '|' :: _ => some row
  | _ => none

/-- The tests for a shape, in the order in which they are made. -/
def tests : List (String → Option Shape) := [header?, step?, tags?, row?]

/-- What the first test says that recognises the text; a free text if none does. -/
def firstOf (tests : List (String → Option Shape)) (text : String) : Shape :=
  (tests.findSome? (· text)).getD freeText

theorem ofText_eq_firstOf (text : String) : ofText text = firstOf tests text := by
  have hfirst : ofFirst text = firstOf [tags?, row?] text := by
    unfold ofFirst firstOf tags? row?
    split <;> simp_all
  unfold ofText firstOf tests
  cases hheader : header? text with
  | some shape => simp [hheader]
  | none =>
    cases hstep : step? text with
    | some shape => simp [hheader, hstep]
    | none => simpa [hheader, hstep, firstOf] using hfirst

section Tests

variable {text : String} {shape : Shape}

theorem shows_of_header? (h : header? text = some shape) : Shows text shape := by
  unfold header? at h
  split at h
  · simp at h
  · next word title hcut =>
    obtain ⟨keyword, hword, rfl⟩ := Option.map_eq_some_iff.1 h
    exact .header (cutTrimmed?_eq_some_iff.1 hcut) (GroupKeyword.ofWord?_eq_some_iff.1 hword)

theorem shows_of_step? (h : step? text = some shape) : Shows text shape := by
  unfold step? at h
  split at h
  · simp at h
  · next word content hcut =>
    obtain ⟨keyword, hword, rfl⟩ := Option.map_eq_some_iff.1 h
    exact .step (cutTrimmed?_eq_some_iff.1 hcut) (StepKeyword.ofWord?_eq_some_iff.1 hword)

/-- The pieces between the marks are the names. -/
theorem shows_tags {rest : List Char} (htext : text.toList = '@' :: rest) :
    Shows text (.tags ((piecesAt (· == '@') rest).map fun piece =>
      String.ofList (stripChars piece))) := by
  refine .tags (piecesAt_ne_nil _ rest) (fun piece hpiece hmark => ?_) ?_
  · simpa using not_of_mem_piecesAt hpiece hmark
  · rw [htext, flatMap_piecesAt]

theorem shows_of_tags? (h : tags? text = some shape) : Shows text shape := by
  unfold tags? at h
  split at h
  · next rest htext =>
    obtain rfl := Option.some.inj h
    exact shows_tags htext
  · simp at h

theorem shows_of_row? (h : row? text = some shape) : Shows text shape := by
  unfold row? at h
  split at h
  · next rest htext =>
    obtain rfl := Option.some.inj h
    exact .row htext
  · simp at h

theorem header?_of_shows {keyword : GroupKeyword} {title : String}
    (h : Shows text (.header keyword title)) : header? text = some (.header keyword title) := by
  cases h with
  | header cut opens =>
    rw [header?, cutTrimmed?_eq_some_iff.2 cut]
    simp only [GroupKeyword.ofWord?_eq_some_iff.2 opens, Option.map_some]

theorem step?_of_shows {keyword : StepKeyword} {content : String}
    (h : Shows text (.step keyword content)) : step? text = some (.step keyword content) := by
  cases h with
  | step cut opens =>
    rw [step?, cutTrimmed?_eq_some_iff.2 cut]
    simp only [StepKeyword.ofWord?_eq_some_iff.2 opens, Option.map_some]

theorem tags?_of_shows {names : List String} (h : Shows text (.tags names)) :
    tags? text = some (.tags names) := by
  cases h with
  | tags nonempty unmarked marks =>
    obtain ⟨piece, rest, rfl⟩ := List.exists_cons_of_ne_nil nonempty
    rw [List.flatMap_cons, List.cons_append] at marks
    have hpieces := piecesAt_eq_of_flatMap unmarked (by rw [List.flatMap_cons, List.cons_append])
    simp only [tags?, marks, hpieces]

theorem row?_of_shows (h : Shows text .row) : row? text = some .row := by
  cases h with
  | row bar => simp only [row?, bar]

/-- The tests recognise what the text shows. -/
theorem exists_test_iff : (∃ test ∈ tests, test text = some shape) ↔ Shows text shape := by
  constructor
  · rintro ⟨test, htest, h⟩
    simp only [tests, List.mem_cons, List.not_mem_nil, or_false] at htest
    obtain rfl | rfl | rfl | rfl := htest
    · exact shows_of_header? h
    · exact shows_of_step? h
    · exact shows_of_tags? h
    · exact shows_of_row? h
  · intro h
    cases shape with
    | header keyword title => exact ⟨header?, by simp [tests], header?_of_shows h⟩
    | step keyword content => exact ⟨step?, by simp [tests], step?_of_shows h⟩
    | tags names => exact ⟨tags?, by simp [tests], tags?_of_shows h⟩
    | row => exact ⟨row?, by simp [tests], row?_of_shows h⟩
    | freeText => cases h

section Order

variable {order : List (String → Option Shape)}

theorem shows_of_findSome? (horder : order.Perm tests)
    (h : order.findSome? (· text) = some shape) : Shows text shape := by
  obtain ⟨test, htest, hsome⟩ := List.exists_of_findSome?_eq_some h
  exact exists_test_iff.1 ⟨test, horder.mem_iff.1 htest, hsome⟩

theorem not_shows_of_findSome? (horder : order.Perm tests)
    (h : order.findSome? (· text) = none) : ¬Shows text shape := by
  intro hshows
  obtain ⟨test, htest, hsome⟩ := exists_test_iff.2 hshows
  rw [List.findSome?_eq_none_iff] at h
  simp [h test (horder.mem_iff.2 htest)] at hsome

end Order

end Tests

/-! ## No text shows two shapes -/

/-- The words and marks one of which starts every line of a shape. -/
def openers : Shape → List String
  | header _ _ => GroupKeyword.words.map (·.1)
  | step _ _ => StepKeyword.all.map (·.word)
  | tags _ => ["@"]
  | row => ["|"]
  | freeText => []

/-- Neither text starts with the other. -/
def Apart (s t : String) : Prop := ¬s.toList <+: t.toList ∧ ¬t.toList <+: s.toList

instance (s t : String) : Decidable (Apart s t) := inferInstanceAs (Decidable (_ ∧ _))

section Openers

variable {text : String} {a b : Shape}

/-- A trimmed text starts with the word that is cut off. -/
theorem prefix_of_isCutTrimmed {sep : Char} {word rest : String} (htext : strip text = text)
    (h : IsCutTrimmed sep text word rest) (hne : word ≠ "") : word.toList <+: text.toList := by
  obtain ⟨before, after, hcut, -, rfl, -⟩ := h
  rw [String.toList_ofList]
  cases before with
  | nil => exact absurd rfl hne
  | cons c before =>
    -- the word starts where the line does, with a character that is not blank
    have hc : isBlank c = false := by
      refine @isBlank_of_head?_stripChars text.toList c ?_
      rw [← toList_strip, htext, hcut]
      rfl
    have hword := stripChars_prefix (c :: before)
    rw [List.dropWhile_cons_of_neg (by simp [hc])] at hword
    exact hword.trans ⟨sep :: after, hcut.symm⟩

theorem Shows.exists_opener (htext : strip text = text) (h : Shows text a) :
    ∃ word ∈ a.openers, word.toList <+: text.toList := by
  cases h with
  | header cut opens =>
    refine ⟨_, ?_, prefix_of_isCutTrimmed htext cut ?_⟩
    · cases opens <;> simp [openers, GroupKeyword.words]
    · cases opens <;> decide
  | step cut opens =>
    refine ⟨_, ?_, prefix_of_isCutTrimmed htext cut ?_⟩
    · cases opens <;> simp [openers, StepKeyword.all, StepKeyword.word]
    · cases opens <;> decide
  | @tags pieces nonempty unmarked marks =>
    obtain ⟨piece, rest, rfl⟩ := List.exists_cons_of_ne_nil nonempty
    exact ⟨"@", by simp [openers], by simp [marks]⟩
  | row bar => exact ⟨"|", by simp [openers], by simp [bar]⟩

/-- The openers of one shape do not start those of another. -/
theorem openers_eq_or_apart (a b : Shape) :
    a.openers = b.openers ∨ ∀ s ∈ a.openers, ∀ t ∈ b.openers, Apart s t := by
  cases a <;> cases b <;> simp only [openers] <;> decide

theorem Shows.openers_eq (htext : strip text = text) (ha : Shows text a) (hb : Shows text b) :
    a.openers = b.openers := by
  refine (openers_eq_or_apart a b).resolve_right fun hapart => ?_
  obtain ⟨s, hs, hstart⟩ := ha.exists_opener htext
  obtain ⟨t, ht, hstart'⟩ := hb.exists_opener htext
  obtain h | h := List.prefix_or_prefix_of_prefix hstart hstart'
  · exact (hapart s hs t ht).1 h
  · exact (hapart s hs t ht).2 h

/-- No text shows two shapes: two different ones have different openers, and the text itself has
    the keyword, the title, the content and the names. -/
theorem Shows.eq (htext : strip text = text) (ha : Shows text a) (hb : Shows text b) : a = b := by
  have hopeners := ha.openers_eq htext hb
  cases a with
  | header keyword title =>
    cases b with
    | header _ _ => exact Option.some.inj ((header?_of_shows ha).symm.trans (header?_of_shows hb))
    | _ => exact absurd hopeners (by simp only [openers]; decide)
  | step keyword content =>
    cases b with
    | step _ _ => exact Option.some.inj ((step?_of_shows ha).symm.trans (step?_of_shows hb))
    | _ => exact absurd hopeners (by simp only [openers]; decide)
  | tags names =>
    cases b with
    | tags _ => exact Option.some.inj ((tags?_of_shows ha).symm.trans (tags?_of_shows hb))
    | _ => exact absurd hopeners (by simp only [openers]; decide)
  | row =>
    cases b with
    | row => rfl
    | _ => exact absurd hopeners (by simp only [openers]; decide)
  | freeText => cases ha

/-- Whatever the order of the tests, the first one that recognises a trimmed text says what the
    text shows. -/
theorem firstOf_eq_iff (htext : strip text = text) {order : List (String → Option Shape)}
    (horder : order.Perm tests) :
    firstOf order text = a ↔ Shows text a ∨ a = .freeText ∧ ∀ shape, ¬Shows text shape := by
  unfold firstOf
  cases hfound : order.findSome? (· text) with
  | some shape =>
    have hshape := shows_of_findSome? horder hfound
    constructor
    · intro h
      exact .inl (h ▸ hshape)
    · rintro (ha | ⟨-, hnone⟩)
      · exact hshape.eq htext ha
      · exact absurd hshape (hnone shape)
  | none =>
    have hnone : ∀ shape, ¬Shows text shape := fun _ => not_shows_of_findSome? horder hfound
    constructor
    · intro h
      exact .inr ⟨h.symm, hnone⟩
    · rintro (ha | ⟨ha, -⟩)
      · exact absurd ha (hnone a)
      · exact ha.symm

theorem ofText_eq_iff (htext : strip text = text) :
    ofText text = a ↔ Shows text a ∨ a = .freeText ∧ ∀ shape, ¬Shows text shape := by
  rw [ofText_eq_firstOf]
  exact firstOf_eq_iff htext (.refl tests)

end Openers

/-- A text shows tags exactly when it starts with their mark. -/
theorem exists_shows_tags_iff {text : String} :
    (∃ names, Shows text (.tags names)) ↔ text.toList.head? = some '@' := by
  constructor
  · rintro ⟨names, h⟩
    cases h with
    | tags nonempty unmarked marks =>
      obtain ⟨piece, rest, rfl⟩ := List.exists_cons_of_ne_nil nonempty
      rw [marks]
      rfl
  · intro h
    obtain ⟨rest, hrest⟩ := List.head?_eq_some_iff.1 h
    exact ⟨_, shows_tags hrest⟩

end Shape

/-! ## Lines -/

/-- What a line is, by its trimmed text. -/
structure Line.Classified (line : Line) (text : String) : Prop where
  text_eq : line.text = text
  /-- A line is a header, a step, tags or a row exactly when its text shows that. -/
  shape_iff : ∀ shape, shape ≠ .freeText → (line.shape = shape ↔ Shape.Shows text shape)
  freeText_iff : line.shape = .freeText ↔ ∀ shape, ¬Shape.Shows text shape
  tags_iff : (∃ names, line.shape = .tags names) ↔ text.toList.head? = some '@'
  content_ne_empty : ∀ keyword content, line.shape = .step keyword content → content ≠ ""
  /-- No text shows two shapes. -/
  single : ∀ a b, Shape.Shows text a → Shape.Shows text b → a = b
  /-- The tests may be made in any order. -/
  anyOrder : ∀ order, order.Perm Shape.tests → Shape.firstOf order text = line.shape

/-- Every line is what its trimmed text shows, and free text if that is nothing. -/
theorem Line.classified_ofText (number : Nat) (raw : String) :
    (Line.ofText number raw).Classified (strip raw) := by
  have htext : strip (strip raw) = strip raw := by
    rw [strip, toList_strip, stripChars_stripChars, ← toList_strip, String.ofList_toList]
  have hshape : ∀ shape, shape ≠ .freeText →
      ((Line.ofText number raw).shape = shape ↔ Shape.Shows (strip raw) shape) := by
    intro shape hne
    rw [shape_ofText, Shape.ofText_eq_iff htext]
    exact or_iff_left fun h => hne h.1
  refine ⟨text_ofText number raw, hshape, ?_, ?_, ?_, ?_, ?_⟩
  · rw [shape_ofText, Shape.ofText_eq_iff htext]
    constructor
    · rintro (h | ⟨-, hnone⟩)
      · cases h
      · exact hnone
    · intro hnone
      exact .inr ⟨rfl, hnone⟩
  · rw [← Shape.exists_shows_tags_iff]
    exact exists_congr fun names => hshape (.tags names) (by simp)
  · intro keyword content h
    rw [shape_ofText] at h
    exact FeatureFile.content_ne_empty h htext
  · intro a b ha hb
    exact ha.eq htext hb
  · intro order horder
    rw [shape_ofText, Shape.firstOf_eq_iff htext horder, ← Shape.ofText_eq_iff htext]

end FeatureFile
