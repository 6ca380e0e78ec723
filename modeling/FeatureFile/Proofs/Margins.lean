import FeatureFile.Export.Format
import FeatureFile.Proofs.Sources
import FeatureFile.Proofs.Unbroken

set_option autoImplicit false

/-! # Exports are no feature files

A feature file needs a line that starts with the word `Feature`, blanks apart. In an export no line
starts with the first letter of that word: a text of the feature never stands at the start of a line
and never reaches the next one. So an export of a file that was read cannot be read itself
(`parse_render_ne_ok`).

How the lines of a text start is followed character by character by a `Margin`, so that what the
pieces of a text do to it is put together for the whole. -/

namespace FeatureFile

open Text

/-! ## The start of a line -/

/-- What is known about the lines of a text after some of its characters. -/
inductive Margin where
  /-- The last line has nothing but blanks so far. -/
  | blank
  /-- The last line has started, and none with the letter. -/
  | inside
  /-- A line has started with the letter. -/
  | headed
deriving DecidableEq, Repr

namespace Margin

/-- One more character. A byte order mark counts as a blank, since it may be dropped. -/
def next (margin : Margin) (c : Char) : Margin :=
  if margin = headed then headed
  else if isLineBreak c then blank
  else if margin = inside then inside
  else if isBlank c ∨ c = '\uFEFF' then blank
  else if c = 'F' then headed
  else inside

/-- Some more characters. -/
def after (margin : Margin) (s : String) : Margin := s.toList.foldl next margin

variable {margin : Margin} {c : Char} {s t : String}

@[simp] theorem after_append : margin.after (s ++ t) = (margin.after s).after t := by
  simp [after]

theorem next_of_isLineBreak (h : margin ≠ headed) (hc : isLineBreak c = true) :
    margin.next c = blank := by
  simp [next, h, hc]

theorem next_inside (hc : isLineBreak c = false) : inside.next c = inside := by
  simp [next, hc]

theorem foldl_headed (cs : List Char) : cs.foldl next headed = headed := by
  induction cs with
  | nil => rfl
  | cons c cs ih =>
    rw [List.foldl_cons]
    exact ih

/-- An unbroken text inside a line stays there. -/
theorem after_inside (h : Unbroken s) : inside.after s = inside := by
  have hchars : ∀ cs : List Char, (∀ c ∈ cs, isLineBreak c = false) →
      cs.foldl next inside = inside := by
    intro cs hcs
    induction cs with
    | nil => rfl
    | cons c cs ih =>
      rw [List.forall_mem_cons] at hcs
      rw [List.foldl_cons, next_inside hcs.1]
      exact ih hcs.2
  exact hchars s.toList h

theorem after_newline (h : margin ≠ headed) : margin.after "\n" = blank :=
  next_of_isLineBreak h (by decide)

/-- It makes no difference how the lines are broken. -/
theorem after_unifyBreaks : margin.after (unifyBreaks s) = margin.after s := by
  have hchars : ∀ cs : List Char,
      (unifyBreakChars cs).foldl next margin = cs.foldl next margin := by
    intro cs
    fun_induction unifyBreakChars cs generalizing margin with
    | case1 => rfl
    | case2 cs ih =>
      have hnext : margin.next '\n' = (margin.next '\r').next '\n' := by cases margin <;> decide
      rw [List.foldl_cons, ih, List.foldl_cons, List.foldl_cons, hnext]
    | case3 cs _ ih =>
      have hnext : margin.next '\n' = margin.next '\r' := by cases margin <;> decide
      rw [List.foldl_cons, ih, List.foldl_cons, hnext]
    | case4 c cs _ _ ih => rw [List.foldl_cons, ih, List.foldl_cons]
  rw [after, unifyBreaks, String.toList_ofList, hchars]
  rfl

/-- A byte order mark before the first line makes no difference either. -/
theorem after_dropByteOrderMark : blank.after (dropByteOrderMark s) = blank.after s := by
  unfold dropByteOrderMark
  split
  · next rest hrest =>
    have hmark : blank.next '\uFEFF' = blank := by decide
    rw [after, after, hrest, String.toList_ofList, List.foldl_cons, hmark]
  · rfl

end Margin

/-! ## Lines that may be headers -/

/-- The first character of a line that is not blank. -/
def firstMark (cs : List Char) : Option Char := (cs.dropWhile isBlank).head?

theorem firstMark_cons_of_blank {c : Char} {cs : List Char} (h : isBlank c = true) :
    firstMark (c :: cs) = firstMark cs := by
  rw [firstMark, List.dropWhile_cons_of_pos h, firstMark]

theorem firstMark_cons_of_not_blank {c : Char} {cs : List Char} (h : isBlank c = false) :
    firstMark (c :: cs) = some c := by
  rw [firstMark, List.dropWhile_cons_of_neg (by simp [h]), List.head?_cons]

theorem ne_headed_of_foldl {margin : Margin} {cs : List Char}
    (h : cs.foldl Margin.next margin ≠ .headed) : margin ≠ .headed := by
  rintro rfl
  exact h (Margin.foldl_headed cs)

/-- If the margin never met the letter, no line after the first starts with it, and the first one
    does not if nothing of it was read before. -/
theorem firstMark_of_foldl {margin : Margin} {cs : List Char}
    (h : cs.foldl Margin.next margin ≠ .headed) :
    (∀ line ∈ (lineChars cs).tail, firstMark line ≠ some 'F') ∧
      (margin = .blank → ∀ line ∈ (lineChars cs).head?, firstMark line ≠ some 'F') := by
  -- below a break all lines are new ones
  have hbelow : ∀ {lines : List (List Char)},
      (∀ line ∈ lines.tail, firstMark line ≠ some 'F') ∧
        (Margin.blank = .blank → ∀ line ∈ lines.head?, firstMark line ≠ some 'F') →
      ∀ line ∈ lines, firstMark line ≠ some 'F' := by
    rintro (_ | ⟨first, rest⟩) ⟨htail, hhead⟩
    · simp
    · exact List.forall_mem_cons.2 ⟨hhead rfl first rfl, htail⟩
  have hmargin := ne_headed_of_foldl h
  fun_induction lineChars cs generalizing margin with
  | case1 => simp
  | case2 cs ih =>
    have hnext : (margin.next '\r').next '\n' = .blank := by
      cases margin with
      | headed => exact absurd rfl hmargin
      | blank => decide
      | inside => decide
    rw [List.foldl_cons, List.foldl_cons, hnext] at h
    exact ⟨hbelow (ih h (by decide)), fun _ => by simp [firstMark]⟩
  | case3 c cs _ hc ih =>
    rw [List.foldl_cons, Margin.next_of_isLineBreak hmargin hc] at h
    exact ⟨hbelow (ih h (by decide)), fun _ => by simp [firstMark]⟩
  | case4 c cs _ hc ih =>
    rw [List.foldl_cons] at h
    obtain ⟨htail, hhead⟩ := ih h (ne_headed_of_foldl h)
    have hfirst : ∀ first, (margin.next c = .blank → firstMark first ≠ some 'F') →
        margin = .blank → firstMark (c :: first) ≠ some 'F' := by
      rintro first hrest rfl
      cases hblank : isBlank c with
      | true =>
        rw [firstMark_cons_of_blank hblank]
        exact hrest (by simp [Margin.next, hc, hblank])
      | false =>
        rw [firstMark_cons_of_not_blank hblank]
        rintro ⟨⟩
        exact ne_headed_of_foldl h (by decide)
    cases hlines : lineChars cs with
    | nil =>
      refine ⟨by simp [consFirst], fun hblank line hline => ?_⟩
      cases hline
      exact hfirst [] (fun _ => by simp [firstMark]) hblank
    | cons first rest =>
      rw [hlines] at htail hhead
      refine ⟨htail, fun hblank line hline => ?_⟩
      cases hline
      exact hfirst first (fun hnext => hhead hnext first rfl) hblank

/-- What is left of a trimmed line starts where the line starts. -/
theorem firstMark_of_stripChars {cs : List Char} {c : Char}
    (h : firstMark (stripChars cs) = some c) : firstMark cs = some c := by
  obtain ⟨cut, hcut⟩ := stripChars_prefix cs
  cases hs : stripChars cs with
  | nil => simp [hs, firstMark] at h
  | cons d rest =>
    rw [hs] at h hcut
    have hhead : firstMark cs = some d := by
      rw [firstMark, ← hcut]
      rfl
    have hblank : isBlank d = false := by
      have := List.head?_dropWhile_not isBlank cs
      rw [← hcut] at this
      simpa using this
    rw [firstMark_cons_of_not_blank hblank] at h
    rw [hhead, h]

theorem firstMark_append {cs more : List Char} {c : Char} (h : firstMark cs = some c) :
    firstMark (cs ++ more) = some c := by
  cases hs : cs.dropWhile isBlank with
  | nil => simp [firstMark, hs] at h
  | cons d rest =>
    rw [firstMark, List.dropWhile_append, hs]
    simpa [firstMark, hs] using h

/-- The header of a feature starts with the letter. -/
theorem firstMark_of_header {text title : String} (h : Shape.ofText text = .header .feature title) :
    firstMark text.toList = some 'F' := by
  obtain ⟨word, rest, keyword, hcut, hword, hshape⟩ | ⟨word, content, keyword, -, -, hshape⟩ |
    hshape := Shape.ofText_cases text
  · rw [hshape] at h
    cases h
    have hfeature : word = "Feature" := by
      obtain ⟨before, after, hwords, -⟩ := List.lookup_eq_some_iff.1 hword
      have hmem : (word, GroupKeyword.feature) ∈ GroupKeyword.words := by simp [hwords]
      simpa [GroupKeyword.words] using hmem
    obtain ⟨⟨before, after⟩, hcut, heq⟩ := Option.map_eq_some_iff.1 hcut
    simp only [Prod.mk.injEq] at heq
    have hbefore : stripChars before = "Feature".toList := by
      rw [← hfeature, ← heq.1, String.toList_ofList]
    have hmark : firstMark (stripChars before) = some 'F' := by
      rw [hbefore]
      decide
    rw [(cutAt_eq_some hcut).1]
    exact firstMark_append (firstMark_of_stripChars hmark)
  · simp [hshape] at h
  · rw [hshape] at h
    obtain ⟨rest, -, hfirst⟩ | hfirst | hfirst := Shape.ofFirst_cases text <;> simp [hfirst] at h

/-- A text in which no line starts with the letter is no feature file. -/
theorem parse_ne_ok_of_after {source : String} (h : Margin.blank.after source ≠ .headed)
    (feature : Feature) : parse source ≠ .ok feature := by
  intro hparse
  obtain ⟨layout, hlayout, hlines⟩ := exists_layout_of_ofLines hparse
  have hmem : layout.header ∈ Line.ofSource source := by
    rw [hlines, Layout.lines]
    simp
  have hshape : Shape.ofText layout.header.text = .header .feature feature.name := by
    rw [← Line.shape_of_mem hmem, hlayout.header]
  have hmark := firstMark_of_header hshape
  obtain ⟨raw, hraw, htext⟩ := Line.exists_raw_of_mem hmem
  rw [htext] at hmark
  rw [← Margin.after_dropByteOrderMark] at h
  obtain ⟨htail, hhead⟩ := firstMark_of_foldl h
  cases hcut : lineChars (dropByteOrderMark source).toList with
  | nil => simp [hcut] at hraw
  | cons first rest =>
    rw [hcut] at hraw htail hhead
    rcases List.mem_cons.1 hraw with rfl | hraw
    · exact hhead rfl raw rfl (firstMark_of_stripChars hmark)
    · exact htail raw hraw (firstMark_of_stripChars hmark)

/-! ## JSON -/

/-- A value all of whose texts are unbroken. -/
inductive Json.IsUnbroken : Json → Prop where
  | null : IsUnbroken .null
  | text {value : String} (h : Unbroken value) : IsUnbroken (.text value)
  | list {items : List Json} (each : ∀ item ∈ items, IsUnbroken item) : IsUnbroken (.list items)
  | object {members : List (String × Json)} (names : ∀ name ∈ members.map Prod.fst, Unbroken name)
      (values : ∀ value ∈ members.map Prod.snd, IsUnbroken value) : IsUnbroken (.object members)

namespace Margin

variable {margin : Margin} {s : String}

/-- An unbroken text that starts with another character than the letter. -/
theorem after_mark (hblank : blank.after s = inside) (hs : Unbroken s) (h : margin ≠ headed) :
    margin.after s = inside := by
  cases margin with
  | blank => exact hblank
  | inside => exact after_inside hs
  | headed => exact absurd rfl h

theorem after_quoted (hs : Unbroken s) (h : margin ≠ headed) :
    margin.after (Json.quoted s) = inside := by
  rw [Json.quoted, after_append, after_append, after_mark (by decide) (by decide) h,
    after_inside (unbroken_escaped hs), after_inside (by decide)]

theorem after_jsonNewline (level : Nat) (h : margin ≠ headed) :
    margin.after (Json.newline level) = blank := by
  have hblanks : ∀ n, (List.replicate n ' ').foldl next blank = blank := by
    intro n
    induction n with
    | zero => rfl
    | succ n ih =>
      rw [List.replicate_succ, List.foldl_cons]
      exact ih
  rw [Json.newline, after_append, after_newline h, after, String.toList_ofList, hblanks]

end Margin

namespace Json

/-- Written anywhere in a text, a value leaves the margin inside a line. -/
def KeepsMargin (value : Json) : Prop :=
  ∀ (level : Nat) (margin : Margin), margin ≠ .headed →
    margin.after (renderAt level value) = .inside

theorem after_renderItems {level : Nat} {items : List Json} (h : ∀ item ∈ items, item.KeepsMargin) :
    Margin.inside.after (renderItems level items) = .inside := by
  induction items with
  | nil => rfl
  | cons item rest ih =>
    rw [List.forall_mem_cons] at h
    rw [renderItems, Margin.after_append, Margin.after_append, Margin.after_append,
      Margin.after_inside (by decide), Margin.after_jsonNewline level (by decide),
      h.1 level _ (by decide), ih h.2]

theorem after_renderMember {level : Nat} {margin : Margin} {name : String} {value : Json}
    (hname : Unbroken name) (hvalue : value.KeepsMargin) (h : margin ≠ .headed) :
    margin.after (renderMember level (name, value)) = .inside := by
  rw [renderMember, Margin.after_append, Margin.after_append, Margin.after_quoted hname h,
    Margin.after_inside (by decide), hvalue level _ (by decide)]

theorem after_renderMembers {level : Nat} {members : List (String × Json)}
    (hnames : ∀ name ∈ members.map Prod.fst, Unbroken name)
    (hvalues : ∀ value ∈ members.map Prod.snd, value.KeepsMargin) :
    Margin.inside.after (renderMembers level members) = .inside := by
  induction members with
  | nil => rfl
  | cons member rest ih =>
    rw [List.map_cons, List.forall_mem_cons] at hnames hvalues
    rw [renderMembers, Margin.after_append, Margin.after_append, Margin.after_append,
      Margin.after_inside (by decide), Margin.after_jsonNewline level (by decide),
      after_renderMember hnames.1 hvalues.1 (by decide), ih hnames.2 hvalues.2]

theorem IsUnbroken.keepsMargin {value : Json} (h : value.IsUnbroken) : value.KeepsMargin := by
  induction h with
  | null =>
    intro level margin hmargin
    rw [renderAt]
    exact Margin.after_mark (by decide) (by decide) hmargin
  | text hvalue =>
    intro level margin hmargin
    rw [renderAt]
    exact Margin.after_quoted hvalue hmargin
  | @list items _ ih =>
    intro level margin hmargin
    cases items with
    | nil =>
      rw [renderAt]
      exact Margin.after_mark (by decide) (by decide) hmargin
    | cons item rest =>
      rw [List.forall_mem_cons] at ih
      rw [renderAt, Margin.after_append, Margin.after_append, Margin.after_append,
        Margin.after_append, Margin.after_append, Margin.after_mark (by decide) (by decide) hmargin,
        Margin.after_jsonNewline (level + 1) (by decide), ih.1 (level + 1) _ (by decide),
        after_renderItems ih.2, Margin.after_jsonNewline level (by decide)]
      decide
  | @object members names _ ih =>
    intro level margin hmargin
    cases members with
    | nil =>
      rw [renderAt]
      exact Margin.after_mark (by decide) (by decide) hmargin
    | cons member rest =>
      rw [List.map_cons, List.forall_mem_cons] at names ih
      rw [renderAt, Margin.after_append, Margin.after_append, Margin.after_append,
        Margin.after_append, Margin.after_append, Margin.after_mark (by decide) (by decide) hmargin,
        Margin.after_jsonNewline (level + 1) (by decide),
        after_renderMember names.1 ih.1 (by decide), after_renderMembers names.2 ih.2,
        Margin.after_jsonNewline level (by decide)]
      decide

theorem isUnbroken_texts {values : List String} (h : ∀ t ∈ values, Unbroken t) :
    (texts values).IsUnbroken := by
  refine .list fun item hitem => ?_
  obtain ⟨t, ht, rfl⟩ := List.mem_map.1 hitem
  exact .text (h t ht)

/-- The values of a list of parts. -/
theorem isUnbroken_map {α : Type} {f : α → Json} {xs : List α} (h : ∀ x ∈ xs, (f x).IsUnbroken) :
    (list (xs.map f)).IsUnbroken := by
  refine .list fun item hitem => ?_
  obtain ⟨x, hx, rfl⟩ := List.mem_map.1 hitem
  exact h x hx

end Json

/-! ## Documents as JSON -/

theorem Step.isUnbroken_toJson {step : Step} (h : ∀ t ∈ step.texts, Unbroken t) :
    step.toJson.IsUnbroken := by
  have hlabel : Unbroken step.keyword.label := by cases step.keyword <;> decide
  have hliterals : ∀ t ∈ step.literals, Unbroken t := fun t ht => h t (List.mem_append_left _ ht)
  have hplaceholders : ∀ t ∈ step.placeholders, Unbroken t :=
    fun t ht => h t (List.mem_append_right _ ht)
  refine .object (by simp only [List.map]; decide) ?_
  simp only [List.map, List.forall_mem_cons]
  exact ⟨.text hlabel, Json.isUnbroken_texts hliterals, Json.isUnbroken_texts hplaceholders,
    by simp⟩

theorem ExampleBlock.isUnbroken_toJson {block : ExampleBlock}
    (h : ∀ t ∈ block.texts, Unbroken t) : block.toJson.IsUnbroken := by
  have htags : ∀ t ∈ block.tags.names, Unbroken t := fun t ht => h t (List.mem_append_left _ ht)
  have hrows : ∀ row ∈ block.labels :: block.rows, ∀ t ∈ row.cells, Unbroken t :=
    fun row hrow t ht => h t (List.mem_append_right _ (List.mem_flatMap.2 ⟨row, hrow, ht⟩))
  rw [List.forall_mem_cons] at hrows
  refine .object (by simp only [List.map]; decide) ?_
  simp only [List.map, List.forall_mem_cons]
  exact ⟨Json.isUnbroken_texts htags, Json.isUnbroken_texts hrows.1,
    Json.isUnbroken_map fun row hrow => Json.isUnbroken_texts (hrows.2 row hrow), by simp⟩

theorem Scenario.isUnbroken_jsonMembers {scenario : Scenario} (hname : Unbroken scenario.name)
    (htags : ∀ t ∈ scenario.tags.names, Unbroken t)
    (hsteps : ∀ step ∈ scenario.steps, ∀ t ∈ step.texts, Unbroken t) :
    ∀ value ∈ scenario.jsonMembers.map Prod.snd, value.IsUnbroken := by
  simp only [Scenario.jsonMembers, List.map, List.forall_mem_cons]
  exact ⟨.text hname, Json.isUnbroken_texts htags,
    Json.isUnbroken_map fun step hstep => Step.isUnbroken_toJson (hsteps step hstep), by simp⟩

theorem Scenario.isUnbroken_backgroundJson {scenario : Scenario}
    (h : ∀ t ∈ (Member.background scenario).texts, Unbroken t) :
    scenario.backgroundJson.IsUnbroken := by
  obtain ⟨hname, htags, hsteps, -⟩ := Member.forall_mem_texts.1 h
  refine .object ?_ (Scenario.isUnbroken_jsonMembers hname htags hsteps)
  simp only [Scenario.jsonMembers, List.map]
  decide

theorem Item.isUnbroken_toJson {item : Item} {json : Json}
    (h : ∀ t ∈ (Member.item item).texts, Unbroken t) (hjson : item.toJson = .ok json) :
    json.IsUnbroken := by
  obtain ⟨hname, htags, hsteps, hblocks⟩ := Member.forall_mem_texts.1 h
  cases item with
  | scenario scenario =>
    cases hjson
    refine .object ?_ ?_
    · simp only [Scenario.jsonMembers, List.map]
      decide
    · rw [List.map_cons, List.forall_mem_cons]
      exact ⟨.text (by decide), Scenario.isUnbroken_jsonMembers hname htags hsteps⟩
  | outline outline =>
    obtain ⟨types, -, rfl⟩ := except_map_eq_ok_iff.1 hjson
    have htypes : ∀ t ∈ types.map ArgType.name, Unbroken t := by
      intro t ht
      obtain ⟨type, -, rfl⟩ := List.mem_map.1 ht
      cases type <;> decide
    refine .object (by simp only [List.map]; decide) ?_
    simp only [List.map, List.forall_mem_cons]
    exact ⟨.text (by decide), .text hname, Json.isUnbroken_texts htags,
      Json.isUnbroken_map fun step hstep => Step.isUnbroken_toJson (hsteps step hstep),
      Json.isUnbroken_texts htypes,
      Json.isUnbroken_map fun block hblock => ExampleBlock.isUnbroken_toJson (hblocks block hblock),
      by simp⟩

/-- What a list of results that may be faults is made of. -/
theorem exists_of_mapM {ε α β : Type} {f : α → Except ε β} {xs : List α} {ys : List β}
    (h : xs.mapM f = .ok ys) : ∀ y ∈ ys, ∃ x ∈ xs, f x = .ok y := by
  intro y hy
  exact exists_of_forall₂_left (forall₂_of_mapM h).flip hy

theorem Feature.isUnbroken_toJson {feature : Feature} {json : Json}
    (h : ∀ t ∈ feature.texts, Unbroken t) (hjson : feature.toJson = .ok json) :
    json.IsUnbroken := by
  obtain ⟨hname, htags, hdescription, hmembers⟩ := Feature.forall_mem_texts.1 h
  obtain ⟨items, hitems, rfl⟩ := except_map_eq_ok_iff.1 hjson
  have hbackground :
      ((feature.background.map Scenario.backgroundJson).getD .null).IsUnbroken := by
    cases hb : feature.background with
    | none => exact .null
    | some scenario =>
      exact Scenario.isUnbroken_backgroundJson (hmembers _ (by simp [Feature.members, hb]))
  have hvalues : (Json.list items).IsUnbroken := by
    refine .list fun value hvalue => ?_
    obtain ⟨item, hitem, hjson⟩ := exists_of_mapM hitems value hvalue
    exact Item.isUnbroken_toJson (hmembers _ (by simp [Feature.members, hitem])) hjson
  refine .object (by simp only [List.map]; decide) ?_
  simp only [List.map, List.forall_mem_cons]
  exact ⟨.text hname, Json.isUnbroken_texts htags, Json.isUnbroken_texts hdescription,
    hbackground, hvalues, by simp⟩

/-! ## Fixtures -/

/-- No line of the text starts with the letter. -/
def Clear (s : String) : Prop := Margin.blank.after s ≠ .headed

instance (s : String) : Decidable (Clear s) :=
  inferInstanceAs (Decidable (Margin.blank.after s ≠ .headed))

theorem clear_joinLines {lines : List String} (h : ∀ line ∈ lines, Clear line) :
    Clear (Fixture.joinLines lines) := by
  unfold Fixture.joinLines
  induction lines with
  | nil => decide
  | cons line rest ih =>
    rw [List.forall_mem_cons] at h
    cases rest with
    | nil => simpa using h.1
    | cons other rest =>
      rw [String.intercalate_cons_cons, Clear, Margin.after_append, Margin.after_append,
        Margin.after_newline h.1]
      exact ih h.2

/-- A line that starts with other characters and goes on unbroken. -/
theorem clear_append {start rest : String} (hstart : Margin.blank.after start = .inside)
    (hrest : Unbroken rest) : Clear (start ++ rest) := by
  rw [Clear, Margin.after_append, hstart, Margin.after_inside hrest]
  decide

theorem clear_indented {indent s : String} (hindent : Margin.blank.after indent = .blank)
    (h : Clear s) : Clear (indent ++ s) := by
  rw [Clear, Margin.after_append, hindent]
  exact h

namespace Fixture

theorem clear_categoryLine {tag : String} (h : Unbroken tag) : Clear (categoryLine tag) := by
  rw [categoryLine, String.append_assoc]
  exact clear_append (by decide) (unbroken_append.2 ⟨unbroken_regular h, by decide⟩)

theorem clear_step {s : Step} (h : ∀ t ∈ s.texts, Unbroken t) : Clear (step s) := by
  have hstep := unbroken_step h
  simp only [step, String.append_assoc] at hstep ⊢
  exact clear_append (by decide) (unbroken_append.1 hstep).2

theorem clear_method {name : String} {attributes tags parameters : List String}
    {steps : List Step} (hname : Unbroken name) (hattributes : ∀ t ∈ attributes, Unbroken t)
    (htags : ∀ t ∈ tags, Unbroken t) (hparameters : ∀ t ∈ parameters, Unbroken t)
    (hsteps : ∀ step ∈ steps, ∀ t ∈ step.texts, Unbroken t) :
    Clear (method name attributes tags parameters steps) := by
  have hmark : ∀ mark ∈ attributes, Clear ("    [" ++ mark ++ "]") := by
    intro mark hmark
    rw [String.append_assoc]
    exact clear_append (by decide) (unbroken_append.2 ⟨hattributes mark hmark, by decide⟩)
  have htag : ∀ tag ∈ tags, Clear ("    " ++ categoryLine tag) := fun tag htag =>
    clear_indented (by decide) (clear_categoryLine (htags tag htag))
  have hsignature : Clear ("    public void " ++ pascal name ++ "(" ++
      String.intercalate ", " parameters ++ ")") := by
    simp only [String.append_assoc]
    refine clear_append (by decide) ?_
    simp only [unbroken_append]
    exact ⟨unbroken_pascal hname, by decide, unbroken_intercalate (by decide) hparameters,
      by decide⟩
  have hstep : ∀ s ∈ steps, Clear ("        " ++ step s) := fun s hs =>
    clear_indented (by decide) (clear_step (hsteps s hs))
  refine clear_joinLines ?_
  simp only [List.forall_mem_append, List.forall_mem_map, List.forall_mem_cons]
  exact ⟨⟨⟨⟨hmark, htag⟩, hsignature, by decide⟩, hstep⟩, by decide⟩

theorem clear_background {s : Scenario} (h : ∀ t ∈ (Member.background s).texts, Unbroken t) :
    Clear (background s) := by
  obtain ⟨-, -, hsteps, -⟩ := Member.forall_mem_texts.1 h
  exact clear_method (by decide) (by decide) (by simp) (by simp) hsteps

theorem clear_item {i : Item} {text : String} (h : ∀ t ∈ (Member.item i).texts, Unbroken t)
    (htext : item i = .ok text) : Clear text := by
  obtain ⟨hname, htags, hsteps, hblocks⟩ := Member.forall_mem_texts.1 h
  cases i with
  | scenario s =>
    cases htext
    exact clear_method hname (by decide) htags (by simp) hsteps
  | outline o =>
    obtain ⟨types, -, rfl⟩ := except_map_eq_ok_iff.1 htext
    refine clear_method hname ?_ htags (fun t ht => unbroken_of_mem_parameters hblocks ht) hsteps
    intro line hline
    obtain ⟨block, -, hline⟩ := List.mem_flatMap.1 hline
    exact unbroken_of_mem_splitLines hline

theorem clear_summary {description : List String} (h : ∀ t ∈ description, Unbroken t) :
    ∀ line ∈ summary description, Clear line := by
  unfold summary
  split
  · simp
  · simp only [List.forall_mem_append, List.forall_mem_map]
    exact ⟨⟨by decide, fun line hline => clear_append (by decide) (h line hline)⟩, by decide⟩

theorem mem_of_mem_intersperse {α : Type} {sep x : α} {xs : List α} (h : x ∈ xs.intersperse sep) :
    x = sep ∨ x ∈ xs := by
  induction xs with
  | nil => simp at h
  | cons y rest ih =>
    cases rest with
    | nil => exact .inr (by simpa using h)
    | cons z rest =>
      rw [List.intersperse_cons_cons, List.mem_cons, List.mem_cons] at h
      rcases h with rfl | rfl | h
      · simp
      · exact .inl rfl
      · exact (ih h).imp_right (List.mem_cons_of_mem y)

theorem clear_feature {f : Feature} {text : String} (h : ∀ t ∈ f.texts, Unbroken t)
    (htext : feature f = .ok text) : Clear text := by
  obtain ⟨hname, htags, hdescription, hmembers⟩ := Feature.forall_mem_texts.1 h
  obtain ⟨items, hitems, rfl⟩ := except_map_eq_ok_iff.1 htext
  have hparts : ∀ t ∈ (f.background.map background).toList ++ items, Clear t := by
    intro t ht
    rcases List.mem_append.1 ht with ht | ht
    · cases hb : f.background with
      | none => simp [hb] at ht
      | some s =>
        rw [hb] at ht
        rw [List.mem_singleton.1 ht]
        exact clear_background (hmembers _ (by simp [Feature.members, hb]))
    · obtain ⟨i, hi, htext⟩ := exists_of_mapM hitems t ht
      exact clear_item (hmembers _ (by simp [Feature.members, hi])) htext
  have hbody : ∀ t ∈ ((f.background.map background).toList ++ items).intersperse "", Clear t := by
    intro t ht
    rcases mem_of_mem_intersperse ht with rfl | ht
    · decide
    · exact hparts t ht
  have hclass : Clear ("public class " ++ pascal f.name) :=
    clear_append (by decide) (unbroken_pascal hname)
  refine clear_joinLines ?_
  simp only [List.forall_mem_append, List.forall_mem_map, List.forall_mem_cons]
  exact ⟨⟨⟨⟨⟨clear_summary hdescription, by decide⟩,
    fun tag htag => clear_categoryLine (htags tag htag)⟩, hclass, by decide⟩, hbody⟩, by decide⟩

end Fixture

/-! ## Exports -/

theorem clear_render {format : Format} {feature : Feature} {text : String}
    (h : ∀ t ∈ feature.texts, Unbroken t) (htext : format.render feature = .ok text) :
    Clear text := by
  cases format with
  | nunit =>
    obtain ⟨fixture, hfixture, rfl⟩ := except_map_eq_ok_iff.1 htext
    rw [Clear, Margin.after_append, Margin.after_newline (Fixture.clear_feature h hfixture)]
    decide
  | json =>
    obtain ⟨json, hjson, rfl⟩ := except_map_eq_ok_iff.1 htext
    rw [Clear, Json.render, (Feature.isUnbroken_toJson h hjson).keepsMargin 0 _ (by decide)]
    decide

/-- The export of a file that was read is not read as a feature file. -/
theorem parse_render_ne_ok {source text : String} {feature : Feature} {format : Format}
    (hsource : parse source = .ok feature) (htext : format.render feature = .ok text)
    (other : Feature) : parse (unifyBreaks text) ≠ .ok other := by
  have hclear := clear_render (fun t ht => unbroken_of_mem_texts hsource ht) htext
  exact parse_ne_ok_of_after (Margin.after_unifyBreaks.symm ▸ hclear) other

end FeatureFile
