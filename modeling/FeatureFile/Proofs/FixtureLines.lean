import FeatureFile.Export.Format
import FeatureFile.Proofs.Margins
import FeatureFile.Proofs.Sources
import FeatureFile.Proofs.Unbroken

set_option autoImplicit false

/-! # The lines of a fixture

A fixture is written as texts that are joined, and the test cases of a table are joined and split
again. None of this moves a line: the lines of the export of a file that was read are those that
its feature lists, and no text of the file starts a line of its own (`fixture_lines`). -/

namespace FeatureFile

open Text

/-! ## Joining and splitting -/

theorem splitLines_line {line : String} (h : Unbroken line) (rest : String) :
    splitLines (line ++ "\n" ++ rest) = line :: splitLines rest := by
  have hchars : (line ++ "\n" ++ rest).toList = line.toList ++ '\n' :: rest.toList := by simp
  rw [splitLines, hchars, lineChars_line h, List.map_cons, String.ofList_toList, splitLines]

theorem splitLines_unbroken {line : String} (h : Unbroken line) (hne : line ≠ "") :
    splitLines line = [line] := by
  have hchars : line.toList ≠ [] := fun hnil => hne (String.toList_eq_nil_iff.1 hnil)
  rw [splitLines, lineChars_unbroken h hchars, List.map_singleton, String.ofList_toList]

namespace Fixture

theorem joinLines_cons {line : String} {rest : List String} (h : rest ≠ []) :
    joinLines (line :: rest) = line ++ "\n" ++ joinLines rest := by
  rw [joinLines, String.intercalate_cons_of_ne_nil h, joinLines]

/-- Lines that are joined and ended by a line feed are split again. -/
theorem splitLines_joinLines_newline {lines : List String} (h : ∀ line ∈ lines, Unbroken line)
    (hne : lines ≠ []) : splitLines (joinLines lines ++ "\n") = lines := by
  induction lines with
  | nil => exact absurd rfl hne
  | cons line rest ih =>
    rw [List.forall_mem_cons] at h
    by_cases hrest : rest = []
    · subst hrest
      have hlast : splitLines (line ++ "\n" ++ "") = [line] := splitLines_line h.1 ""
      simpa [joinLines] using hlast
    · rw [joinLines_cons hrest, String.append_assoc, splitLines_line h.1, ih h.2 hrest]

/-- Without the last line feed this takes a last line that is not empty. -/
theorem splitLines_joinLines {lines : List String} (h : ∀ line ∈ lines, Unbroken line)
    (hne : ∀ line ∈ lines, line ≠ "") : splitLines (joinLines lines) = lines := by
  induction lines with
  | nil => rfl
  | cons line rest ih =>
    rw [List.forall_mem_cons] at h hne
    by_cases hrest : rest = []
    · subst hrest
      simpa [joinLines] using splitLines_unbroken h.1 hne.1
    · rw [joinLines_cons hrest, splitLines_line h.1, ih h.2 hne.2]

/-- Texts that are joined lines join to all their lines. -/
theorem joinLines_map_joinLines {parts : List (List String)} (h : ∀ part ∈ parts, part ≠ []) :
    joinLines (parts.map joinLines) = joinLines parts.flatten := by
  induction parts with
  | nil => rfl
  | cons part rest ih =>
    rw [List.forall_mem_cons] at h
    by_cases hrest : rest = []
    · subst hrest
      simp [joinLines]
    · have hflatten : rest.flatten ≠ [] := by
        obtain ⟨other, hother⟩ := List.exists_mem_of_ne_nil rest hrest
        intro hnil
        exact h.2 other hother (List.flatten_eq_nil_iff.1 hnil other hother)
      have hmap : rest.map joinLines ≠ [] := by simpa using hrest
      rw [List.map_cons, joinLines_cons hmap, ih h.2, List.flatten_cons, joinLines, joinLines,
        joinLines, String.intercalate_append_of_ne_nil h.1 hflatten]

/-! ## The lines that a feature lists -/

/-- The lines of a method. -/
def methodLines (name : String) (attributes tags parameters : List String) (steps : List Step) :
    List String :=
  attributes.map (fun mark => "    [" ++ mark ++ "]") ++
  tags.map (fun tag => "    " ++ categoryLine tag) ++
  ["    public void " ++ pascal name ++ "(" ++ String.intercalate ", " parameters ++ ")",
    "    \x7b"] ++
  steps.map (fun s => "        " ++ step s) ++
  ["    \x7d"]

/-- The lines of the method that runs before every test. -/
def backgroundLines (s : Scenario) : List String := methodLines "Background" ["SetUp"] [] [] s.steps

/-- The lines of an outline, with a test case for each row of each table. -/
def outlineLines (types : List ArgType) (o : Outline) : List String :=
  methodLines o.name (o.blocks.flatMap fun b => b.rows.map (testCase types b.tags)) o.tags.names
    (parameters types o) o.steps

/-- The lines of an item. -/
def itemLines : Item → Except DigitLimit (List String)
  | .scenario s => .ok (methodLines s.name ["Test"] s.tags.names [] s.steps)
  | .outline o => o.argTypes.map fun types => outlineLines types o

/-- The lines of a class around the lines of its members. -/
def classLines (f : Feature) (members : List (List String)) : List String :=
  summary f.description ++ ["[TestFixture]"] ++ f.tags.names.map categoryLine ++
  ["public class " ++ pascal f.name, "\x7b"] ++ [""].intercalate members ++ ["\x7d"]

/-- The lines of a feature. -/
def lines (f : Feature) : Except DigitLimit (List String) :=
  (f.items.mapM itemLines).map fun items =>
    classLines f ((f.background.map backgroundLines).toList ++ items)

/-- Whether a line is a test case of a method. -/
def isTestCaseLine (line : String) : Bool := "    [TestCase(".toList.isPrefixOf line.toList

/-! ## Lines without breaks -/

theorem unbroken_categoryLine {tag : String} (h : Unbroken tag) : Unbroken (categoryLine tag) := by
  simp only [categoryLine, unbroken_append]
  exact ⟨⟨by decide, unbroken_regular h⟩, by decide⟩

theorem dropEscape_subset (cs : List Char) : Literal.dropEscape cs ⊆ cs := by
  unfold Literal.dropEscape
  split
  · exact List.subset_cons_self _ _
  · exact List.subset_cons_self _ _
  · exact List.Subset.refl _

theorem doubleQuotes_subset (cs : List Char) : Literal.doubleQuotes cs ⊆ cs := by
  intro c hc
  obtain ⟨d, hd, hc⟩ := List.mem_flatMap.1 hc
  split at hc
  · next hquote =>
    have hcd : c = d := by simpa [hquote] using hc
    exact hcd ▸ hd
  · rwa [List.mem_singleton.1 hc]

theorem unbroken_verbatim {value : String} (h : Unbroken value) (addQuotes : Bool) :
    Unbroken (Literal.verbatim value addQuotes) := by
  have hbody : ∀ c ∈ Literal.dropEscape value.toList, isLineBreak c = false :=
    fun c hc => h c (dropEscape_subset _ hc)
  unfold Literal.verbatim
  split
  · have hquoted : Unbroken (String.ofList (Literal.doubleQuotes
        (Literal.dropEscape value.toList))) := by
      intro c hc
      rw [String.toList_ofList] at hc
      exact hbody c (doubleQuotes_subset _ hc)
    simp only [unbroken_append]
    exact ⟨⟨by decide, hquoted⟩, by decide⟩
  · refine unbroken_append.2 ⟨by decide, fun c hc => ?_⟩
    rw [String.toList_ofList] at hc
    exact hbody c hc

theorem unbroken_argument {value : String} (h : Unbroken value) (type : ArgType) :
    Unbroken (Literal.argument type value) := by
  cases type with
  | boolean =>
    rw [Literal.argument]
    split <;> decide
  | integer => exact h
  | float => exact h
  | string => exact unbroken_verbatim h _

theorem unbroken_testCase {types : List ArgType} {b : ExampleBlock} {row : Row}
    (h : ∀ t ∈ b.texts, Unbroken t) (hrow : row ∈ b.rows) :
    Unbroken (testCase types b.tags row) := by
  have hcells : ∀ t ∈ row.cells, Unbroken t := fun t ht =>
    h t (List.mem_append_right _ (List.mem_flatMap.2 ⟨row, List.mem_cons_of_mem _ hrow, ht⟩))
  have htags : ∀ t ∈ b.tags.names, Unbroken t := fun t ht => h t (List.mem_append_left _ ht)
  have harguments : ∀ t ∈ rowArguments types row, Unbroken t := by
    intro t ht
    rw [rowArguments, ← List.map_uncurry_zip_eq_zipWith] at ht
    obtain ⟨⟨type, value⟩, hpair, rfl⟩ := List.mem_map.1 ht
    exact unbroken_argument (hcells value (List.of_mem_zip hpair).2) type
  have hcategory : ∀ t ∈ categoryArgument b.tags, Unbroken t := by
    intro t ht
    simp only [categoryArgument] at ht
    split at ht
    · simp at ht
    · rw [List.mem_singleton.1 ht]
      simp only [unbroken_append]
      exact ⟨⟨by decide, unbroken_regular (unbroken_intercalate (by decide) htags)⟩, by decide⟩
  simp only [testCase, unbroken_append]
  exact ⟨⟨by decide, unbroken_intercalate (by decide)
    (List.forall_mem_append.2 ⟨harguments, hcategory⟩)⟩, by decide⟩

theorem unbroken_methodLines {name : String} {attributes tags parameters : List String}
    {steps : List Step} (hname : Unbroken name) (hattributes : ∀ t ∈ attributes, Unbroken t)
    (htags : ∀ t ∈ tags, Unbroken t) (hparameters : ∀ t ∈ parameters, Unbroken t)
    (hsteps : ∀ s ∈ steps, ∀ t ∈ s.texts, Unbroken t) :
    ∀ line ∈ methodLines name attributes tags parameters steps, Unbroken line := by
  simp only [methodLines, List.forall_mem_append, List.forall_mem_map, List.forall_mem_cons,
    unbroken_append]
  exact ⟨⟨⟨⟨fun mark hmark => ⟨⟨by decide, hattributes mark hmark⟩, by decide⟩,
    fun tag htag => ⟨by decide, unbroken_categoryLine (htags tag htag)⟩⟩,
    ⟨⟨⟨⟨by decide, unbroken_pascal hname⟩, by decide⟩,
      unbroken_intercalate (by decide) hparameters⟩, by decide⟩, by decide⟩,
    fun s hs => ⟨by decide, unbroken_step (hsteps s hs)⟩⟩, by decide⟩

theorem unbroken_summary {description : List String} (h : ∀ t ∈ description, Unbroken t) :
    ∀ line ∈ summary description, Unbroken line := by
  unfold summary
  split
  · simp
  · simp only [List.forall_mem_append, List.forall_mem_map, unbroken_append]
    exact ⟨⟨by decide, fun line hline => ⟨by decide, h line hline⟩⟩, by decide⟩

theorem unbroken_backgroundLines {s : Scenario}
    (h : ∀ t ∈ (Member.background s).texts, Unbroken t) :
    ∀ line ∈ backgroundLines s, Unbroken line := by
  obtain ⟨-, -, hsteps, -⟩ := Member.forall_mem_texts.1 h
  exact unbroken_methodLines (by decide) (by decide) (by simp) (by simp) hsteps

theorem unbroken_itemLines {i : Item} {ls : List String}
    (h : ∀ t ∈ (Member.item i).texts, Unbroken t) (hls : itemLines i = .ok ls) :
    ∀ line ∈ ls, Unbroken line := by
  obtain ⟨hname, htags, hsteps, hblocks⟩ := Member.forall_mem_texts.1 h
  cases i with
  | scenario s =>
    cases hls
    exact unbroken_methodLines hname (by decide) htags (by simp) hsteps
  | outline o =>
    obtain ⟨types, -, rfl⟩ := except_map_eq_ok_iff.1 hls
    refine unbroken_methodLines hname ?_ htags (fun t ht => unbroken_of_mem_parameters hblocks ht)
      hsteps
    intro mark hmark
    obtain ⟨b, hb, hmark⟩ := List.mem_flatMap.1 hmark
    obtain ⟨row, hrow, rfl⟩ := List.mem_map.1 hmark
    exact unbroken_testCase (hblocks b hb) hrow

theorem methodLines_ne_nil (name : String) (attributes tags parameters : List String)
    (steps : List Step) : methodLines name attributes tags parameters steps ≠ [] := by
  simp [methodLines]

theorem itemLines_ne_nil {i : Item} {ls : List String} (h : itemLines i = .ok ls) : ls ≠ [] := by
  cases i with
  | scenario s =>
    cases h
    exact methodLines_ne_nil _ _ _ _ _
  | outline o =>
    obtain ⟨types, -, rfl⟩ := except_map_eq_ok_iff.1 h
    exact methodLines_ne_nil _ _ _ _ _

/-! ## Texts are their lines, joined -/

/-- The test cases of a table are as many lines as it has rows. -/
theorem splitLines_block {types : List ArgType} {b : ExampleBlock}
    (h : ∀ t ∈ b.texts, Unbroken t) :
    splitLines (block types b) = b.rows.map (testCase types b.tags) := by
  refine splitLines_joinLines ?_ ?_
  · rw [List.forall_mem_map]
    exact fun row hrow => unbroken_testCase h hrow
  · rw [List.forall_mem_map]
    intro row _
    simp [testCase]

/-- The test cases that an outline splits again are those that it has joined. -/
theorem outline_eq {o : Outline} (h : ∀ b ∈ o.blocks, ∀ t ∈ b.texts, Unbroken t)
    (types : List ArgType) : outline types o = joinLines (outlineLines types o) := by
  have hcases : (o.blocks.flatMap fun b => splitLines (block types b)) =
      o.blocks.flatMap fun b => b.rows.map (testCase types b.tags) :=
    List.flatMap_congr fun b hb => splitLines_block (h b hb)
  rw [outline, hcases]
  rfl

theorem item_eq {i : Item} (h : ∀ t ∈ (Member.item i).texts, Unbroken t) :
    item i = (itemLines i).map joinLines := by
  obtain ⟨-, -, -, hblocks⟩ := Member.forall_mem_texts.1 h
  cases i with
  | scenario s => rfl
  | outline o =>
    rw [item, itemLines]
    cases o.argTypes with
    | error limit => rfl
    | ok types => exact congrArg Except.ok (outline_eq hblocks types)

/-- Items that are read off their lines one by one. -/
theorem mapM_map {ε α β γ : Type} {f : α → Except ε γ} {g : α → Except ε β} {k : β → γ}
    {xs : List α} (h : ∀ x ∈ xs, f x = (g x).map k) :
    xs.mapM f = (xs.mapM g).map (List.map k) := by
  induction xs with
  | nil => rfl
  | cons x xs ih =>
    rw [List.forall_mem_cons] at h
    rw [List.mapM_cons, List.mapM_cons, h.1, ih h.2]
    cases g x with
    | error e => rfl
    | ok y => cases xs.mapM g <;> rfl

theorem map_intersperse {α β : Type} (f : α → β) (sep : α) (xs : List α) :
    (xs.intersperse sep).map f = (xs.map f).intersperse (f sep) := by
  induction xs with
  | nil => rfl
  | cons x rest ih =>
    cases rest with
    | nil => rfl
    | cons y rest =>
      rw [List.intersperse_cons_cons, List.map_cons, List.map_cons, ih]
      rfl

theorem mem_intersperse_of_mem {α : Type} {sep x : α} {xs : List α} (h : x ∈ xs) :
    x ∈ xs.intersperse sep := by
  induction xs with
  | nil => simp at h
  | cons y rest ih =>
    cases rest with
    | nil => simpa using h
    | cons z rest =>
      rw [List.intersperse_cons_cons, List.mem_cons, List.mem_cons]
      exact (List.mem_cons.1 h).imp_right fun hrest => .inr (ih hrest)

theorem classText_eq {f : Feature} {members : List (List String)} (h : ∀ m ∈ members, m ≠ []) :
    classText f (members.map joinLines) = joinLines (classLines f members) := by
  -- every line around the members is a text of one line
  have hsingle : ∀ ls : List String, (ls.map fun line => [line]).map joinLines = ls := by
    intro ls
    rw [List.map_map]
    exact (List.map_congr_left fun line _ => by simp [joinLines]).trans (List.map_id ls)
  have hgaps : (members.map joinLines).intersperse "" =
      (members.intersperse [""]).map joinLines := (map_intersperse joinLines [""] members).symm
  have hparts : ∀ before after : List String,
      joinLines (before ++ (members.map joinLines).intersperse "" ++ after) =
        joinLines (before ++ [""].intercalate members ++ after) := by
    intro before after
    have hne : ∀ part ∈ (before.map fun line => [line]) ++ members.intersperse [""] ++
        after.map fun line => [line], part ≠ [] := by
      simp only [List.forall_mem_append, List.forall_mem_map]
      refine ⟨⟨by simp, fun part hpart => ?_⟩, by simp⟩
      rcases mem_of_mem_intersperse hpart with rfl | hpart
      · simp
      · exact h part hpart
    have hjoin := joinLines_map_joinLines hne
    rw [List.map_append, List.map_append, hsingle, hsingle, ← hgaps] at hjoin
    -- joining twice is joining once, since no member is empty
    rw [hjoin, List.flatten_append, List.flatten_append]
    simp [List.intercalate, ← List.flatMap_def]
  exact hparts _ _

theorem unbroken_classLines {f : Feature} {members : List (List String)}
    (h : ∀ t ∈ f.texts, Unbroken t) (hmembers : ∀ m ∈ members, ∀ line ∈ m, Unbroken line) :
    ∀ line ∈ classLines f members, Unbroken line := by
  obtain ⟨hname, htags, hdescription, -⟩ := Feature.forall_mem_texts.1 h
  have hbody : ∀ line ∈ [""].intercalate members, Unbroken line := by
    intro line hline
    obtain ⟨part, hpart, hline⟩ := List.mem_flatten.1 hline
    rcases mem_of_mem_intersperse hpart with rfl | hpart
    · rw [List.mem_singleton.1 hline]
      decide
    · exact hmembers part hpart line hline
  have hclass : Unbroken ("public class " ++ pascal f.name) :=
    unbroken_append.2 ⟨by decide, unbroken_pascal hname⟩
  simp only [classLines, List.forall_mem_append, List.forall_mem_map, List.forall_mem_cons]
  exact ⟨⟨⟨⟨⟨unbroken_summary hdescription, by decide⟩,
    fun tag htag => unbroken_categoryLine (htags tag htag)⟩, hclass, by decide⟩, hbody⟩, by decide⟩

/-- The members of a feature, each as a list of lines. -/
theorem exists_lines_of_feature {f : Feature} {text : String} (h : ∀ t ∈ f.texts, Unbroken t)
    (htext : feature f = .ok text) :
    ∃ items, f.items.mapM itemLines = .ok items ∧
      splitLines (text ++ "\n") =
        classLines f ((f.background.map backgroundLines).toList ++ items) := by
  obtain ⟨-, -, -, hmembers⟩ := Feature.forall_mem_texts.1 h
  obtain ⟨texts, htexts, rfl⟩ := except_map_eq_ok_iff.1 htext
  have hitem : ∀ i ∈ f.items, ∀ t ∈ (Member.item i).texts, Unbroken t := fun i hi =>
    hmembers _ (by simp [Feature.members, hi])
  -- the texts of the items are the lists of their lines, joined
  rw [mapM_map fun i hi => item_eq (hitem i hi)] at htexts
  obtain ⟨items, hitems, rfl⟩ := except_map_eq_ok_iff.1 htexts
  refine ⟨items, hitems, ?_⟩
  have hlines : ∀ m ∈ (f.background.map backgroundLines).toList ++ items,
      m ≠ [] ∧ ∀ line ∈ m, Unbroken line := by
    intro m hm
    rcases List.mem_append.1 hm with hm | hm
    · cases hb : f.background with
      | none => simp [hb] at hm
      | some s =>
        rw [hb] at hm
        rw [List.mem_singleton.1 hm]
        exact ⟨methodLines_ne_nil _ _ _ _ _,
          unbroken_backgroundLines (hmembers _ (by simp [Feature.members, hb]))⟩
    · obtain ⟨i, hi, hm⟩ := exists_of_mapM hitems m hm
      exact ⟨itemLines_ne_nil hm, unbroken_itemLines (hitem i hi) hm⟩
  have hbackground : (f.background.map background).toList =
      (f.background.map backgroundLines).toList.map joinLines := by
    cases f.background <;> rfl
  rw [hbackground, ← List.map_append, classText_eq fun m hm => (hlines m hm).1]
  refine splitLines_joinLines_newline (unbroken_classLines h fun m hm => (hlines m hm).2) ?_
  simp [classLines]

/-- The lines of an item stand in one piece among the lines of its feature. -/
theorem itemLines_infix {f : Feature} {text : String} {i : Item}
    (h : ∀ t ∈ f.texts, Unbroken t) (htext : feature f = .ok text) (hi : i ∈ f.items) :
    ∃ ls, itemLines i = .ok ls ∧ ls <:+: splitLines (text ++ "\n") := by
  obtain ⟨items, hitems, hlines⟩ := exists_lines_of_feature h htext
  obtain ⟨ls, hmem, hls⟩ := exists_of_forall₂_left (forall₂_of_mapM hitems) hi
  refine ⟨ls, hls, ?_⟩
  have hbody : ls <:+: [""].intercalate
      ((f.background.map backgroundLines).toList ++ items) :=
    List.infix_of_mem_flatten (mem_intersperse_of_mem (List.mem_append_right _ hmem))
  rw [hlines, classLines, List.append_assoc]
  exact hbody.trans ((List.prefix_append _ _).isInfix.trans (List.suffix_append _ _).isInfix)

/-! ## Test cases among the lines -/

theorem countP_methodLines {name : String} {marks tags parameters : List String}
    {steps : List Step} (h : ∀ mark ∈ marks, isTestCaseLine ("    [" ++ mark ++ "]")) :
    (methodLines name marks tags parameters steps).countP isTestCaseLine = marks.length := by
  have hmarks : (marks.map fun mark => "    [" ++ mark ++ "]").countP isTestCaseLine =
      marks.length := by
    rw [List.countP_map]
    exact List.countP_eq_length.2 h
  have htags : (tags.map fun tag => "    " ++ categoryLine tag).countP isTestCaseLine = 0 := by
    rw [List.countP_eq_zero, List.forall_mem_map]
    intro tag _
    simp [isTestCaseLine, categoryLine]
  have hsteps : (steps.map fun s => "        " ++ step s).countP isTestCaseLine = 0 := by
    rw [List.countP_eq_zero, List.forall_mem_map]
    intro s _
    simp [isTestCaseLine]
  simp only [methodLines, List.countP_append, hmarks, htags, hsteps]
  simp [isTestCaseLine]

theorem countP_outlineLines (types : List ArgType) (o : Outline) :
    (outlineLines types o).countP isTestCaseLine = o.rows.length := by
  rw [outlineLines, countP_methodLines]
  · simp [Outline.rows, List.length_flatMap]
  · intro mark hmark
    obtain ⟨b, -, hmark⟩ := List.mem_flatMap.1 hmark
    obtain ⟨row, -, rfl⟩ := List.mem_map.1 hmark
    simp [isTestCaseLine, testCase]

end Fixture

/-! ## Exports -/

/-- The lines of the export of a file that was read are those that its feature lists. The lines of
    an outline stand among them in one piece and hold one test case for each row. -/
theorem fixture_lines {source output : String} {f : Feature} (h : parse source = .ok f)
    (houtput : Format.nunit.render f = .ok output) :
    Fixture.lines f = .ok (splitLines output) ∧
      ∀ o, .outline o ∈ f.items → ∃ method, Fixture.itemLines (.outline o) = .ok method ∧
        method <:+: splitLines output ∧
        method.countP Fixture.isTestCaseLine = o.rows.length := by
  have hunbroken : ∀ t ∈ f.texts, Unbroken t := fun t ht => unbroken_of_mem_texts h ht
  obtain ⟨text, htext, rfl⟩ := except_map_eq_ok_iff.1 houtput
  refine ⟨?_, ?_⟩
  · obtain ⟨items, hitems, hlines⟩ := Fixture.exists_lines_of_feature hunbroken htext
    rw [Fixture.lines, hitems, hlines]
    rfl
  · intro o ho
    obtain ⟨method, hmethod, hinfix⟩ := Fixture.itemLines_infix hunbroken htext ho
    obtain ⟨types, -, rfl⟩ := except_map_eq_ok_iff.1 hmethod
    exact ⟨_, hmethod, hinfix, Fixture.countP_outlineLines types o⟩

/-- A feature with a description, a background, and an outline with two tables; some of the cells
    need escapes. -/
def eatenSource : String :=
  "@a\nFeature: straße\nwords\nBackground:\nGiven x\n@b\nScenario Outline: o\n" ++
  "When <food> is eaten\n@c\nExamples:\n|food|\n|a \"b|\n|\\y|\nExamples:\n|food|\n|7|\n"

/-- The feature of `eatenSource`. -/
def eatenFeature : Feature where
  name := "straße"
  tags := .ofList ["a"]
  description := ["words"]
  background := some ⟨"", [⟨.given, "x", []⟩], .empty⟩
  items :=
    [.outline ⟨"o", [⟨.when_, "", [("food", " is eaten")]⟩],
      [⟨⟨["food"], by decide⟩, [⟨["a \"b"], by decide⟩, ⟨["\\y"], by decide⟩], .ofList ["c"]⟩,
        ⟨⟨["food"], by decide⟩, [⟨["7"], by decide⟩], .empty⟩],
      .ofList ["b"]⟩]

/-- The fixture of `eatenSource`. -/
def eatenFixture : String :=
  "/// <summary>\n/// words\n/// </summary>\n[TestFixture]\n[Category(\"a\")]\n" ++
  "public class Straße\n\x7b\n    [SetUp]\n    public void Background()\n    \x7b\n" ++
  "        // Given(X());\n    \x7d\n\n    [TestCase(@\"a \"\"b\", Category=\"c\")]\n" ++
  "    [TestCase(@\"y\", Category=\"c\")]\n    [TestCase(@\"7\")]\n    [Category(\"b\")]\n" ++
  "    public void O(string food)\n    \x7b\n        // When(___IsEaten(food));\n    \x7d\n\x7d\n"

theorem fixture_lines_eatenSource :
    parse eatenSource = .ok eatenFeature ∧ Format.nunit.render eatenFeature = .ok eatenFixture ∧
      Fixture.lines eatenFeature = .ok (splitLines eatenFixture) ∧
      ∀ o, .outline o ∈ eatenFeature.items → ∃ method,
        Fixture.itemLines (.outline o) = .ok method ∧ method <:+: splitLines eatenFixture ∧
        method.countP Fixture.isTestCaseLine = o.rows.length := by
  have hsource : parse eatenSource = .ok eatenFeature := by decide +kernel
  have hfixture : Format.nunit.render eatenFeature = .ok eatenFixture := by decide +kernel
  exact ⟨hsource, hfixture, fixture_lines hsource hfixture⟩

end FeatureFile
