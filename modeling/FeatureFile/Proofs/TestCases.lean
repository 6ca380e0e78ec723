import FeatureFile.Proofs.CallReading
import FeatureFile.Proofs.ColumnTypes
import FeatureFile.Proofs.FixtureLines
import FeatureFile.Proofs.WellFormed

set_option autoImplicit false

/-! # Test cases and the method they are for

The parameters of a method come from the first table of its outline, its test cases from the rows of
all tables. Here both are read off the lines of the method again, as calls, and compared: a test
case gives the parameters the first cells of its row, one for one, and in a table that has as many
labels as the first one it gives all parameters all cells (`testCases_fit`). Tables of other widths
are not refused, so that a cell can be left out and an argument can be missing
(`arguments_of_uneven_tables`). -/

namespace FeatureFile

open Text CallReader

/-! ## Cells as arguments -/

/-- The text that a string argument denotes: what stands between the quotes of a quoted cell, and
    any other cell without the backslash or slash that may start it. -/
def literalText (cell : String) : String :=
  if Literal.isQuoted cell then String.ofList cell.toList.tail.dropLast
  else String.ofList (Literal.dropEscape cell.toList)

/-- The argument that a cell of the given type becomes. -/
def cellArgument (type : ArgType) (cell : String) : CallArgument :=
  if type = .string then .verbatim (literalText cell) else .bare cell

namespace CallArgument

/-- Whether an argument is given by its position, and not for a name. -/
def isPositional : CallArgument → Bool
  | named _ _ => false
  | _ => true

/-- An argument stands for a cell. -/
def Denotes : CallArgument → String → Prop
  | bare text, cell => text = cell
  | verbatim value, cell => value = literalText cell
  | named _ _, _ => False

end CallArgument

theorem isPositional_cellArgument (type : ArgType) (cell : String) :
    (cellArgument type cell).isPositional = true := by
  unfold cellArgument
  split <;> rfl

theorem denotes_cellArgument (type : ArgType) (cell : String) :
    (cellArgument type cell).Denotes cell := by
  unfold cellArgument
  split <;> rfl

theorem exists_of_isQuoted {cell : String} (h : Literal.isQuoted cell = true) :
    ∃ body, cell.toList = '"' :: (body ++ ['"']) ∧ '"' ∉ body := by
  simp only [Literal.isQuoted, Bool.and_eq_true, beq_iff_eq] at h
  obtain ⟨⟨hfirst, hlast⟩, hcount⟩ := h
  obtain ⟨rest, hrest⟩ := List.head?_eq_some_iff.1 hfirst
  rw [hrest, List.count_cons_self] at hcount
  have hne : rest ≠ [] := by
    intro hnil
    simp [hnil] at hcount
  rw [hrest, List.getLast?_cons_of_ne_nil hne] at hlast
  obtain ⟨body, hbody⟩ := List.getLast?_eq_some_iff.1 hlast
  rw [hbody, List.count_append, List.count_singleton_self] at hcount
  refine ⟨body, by rw [hrest, hbody], List.count_eq_zero.1 (by omega)⟩

theorem doubleQuotes_eq_self {cs : List Char} (h : '"' ∉ cs) : Literal.doubleQuotes cs = cs := by
  unfold Literal.doubleQuotes
  induction cs with
  | nil => rfl
  | cons c cs ih =>
    rw [List.mem_cons, not_or] at h
    rw [List.flatMap_cons, if_neg (Ne.symm h.1), ih h.2]
    rfl

/-- A cell of a string column becomes one complete verbatim string. -/
theorem spells_string (cell : String) :
    Spells (Literal.argument .string cell) (.verbatim (literalText cell)) := by
  show Spells (Literal.verbatim cell (!Literal.isQuoted cell)) _
  by_cases hquoted : Literal.isQuoted cell = true
  · -- a quoted cell keeps its own quotes, and has none between them that needs doubling
    obtain ⟨body, hbody, hplain⟩ := exists_of_isQuoted hquoted
    have htext : Literal.verbatim cell false =
        "@\"" ++ String.ofList (Literal.doubleQuotes body) ++ "\"" := by
      rw [doubleQuotes_eq_self hplain]
      apply String.toList_injective
      simp [Literal.verbatim, hbody, Literal.dropEscape]
    have hvalue : literalText cell = String.ofList body := by
      simp [literalText, hquoted, hbody]
    rw [hquoted, Bool.not_true, htext, hvalue]
    exact spells_verbatim body
  · have hvalue : literalText cell = String.ofList (Literal.dropEscape cell.toList) := by
      simp [literalText, hquoted]
    rw [Bool.not_eq_true] at hquoted
    rw [hquoted, hvalue]
    exact spells_verbatim _

theorem plain_of_isNumeralChar {c : Char} (h : isNumeralChar c = true) :
    isMark c = false ∧ c ≠ '@' := by
  rw [isNumeralChar, Bool.or_eq_true, isAsciiDigit, Bool.and_eq_true, decide_eq_true_eq,
    decide_eq_true_eq] at h
  rcases h with ⟨hlow, hhigh⟩ | hmem
  · have hlow : 48 ≤ c.toNat := hlow
    have hhigh : c.toNat ≤ 57 := hhigh
    refine ⟨?_, ?_⟩
    · simp only [isMark, markRanges, inRanges]
      split_ifs <;> simp <;> omega
    · rintro rfl
      exact absurd hhigh (by decide)
  · simp only [List.mem_cons, List.not_mem_nil, or_false, decide_eq_true_eq] at hmem
    rcases hmem with rfl | rfl | rfl | rfl | rfl | rfl <;> decide

/-- A cell of a numeric column stands for itself. -/
theorem isBare_of_numeral {cell : String} (hne : cell ≠ "")
    (h : ∀ c ∈ cell.toList, isNumeralChar c = true) : IsBare cell := by
  refine ⟨hne, ?_, fun c hc => (plain_of_isNumeralChar (h c hc)).1⟩
  intro hhead
  exact (plain_of_isNumeralChar (h '@' (List.mem_of_mem_head? hhead))).2 rfl

/-- A cell is written as the argument that it becomes. -/
theorem spells_argument {type : ArgType} {cell : String}
    (h : type = .string ∨ ArgType.ofValue cell = .ok type) :
    Spells (Literal.argument type cell) (cellArgument type cell) := by
  by_cases hstring : type = .string
  · subst hstring
    exact spells_string cell
  · have hvalue : ArgType.ofValue cell = .ok type := h.resolve_left hstring
    have hcell : cellArgument type cell = .bare cell := if_neg hstring
    have hne : cell ≠ "" := by
      rintro rfl
      exact hstring (Except.ok.inj hvalue).symm
    obtain ⟨hwords, hnumeral⟩ := cell_of_ofValue hvalue
    rw [hcell]
    cases type with
    | boolean =>
      rcases hwords rfl with rfl | rfl
      · exact spells_bare (by decide)
      · exact spells_bare (by decide)
    | integer => exact spells_bare (isBare_of_numeral hne (hnumeral (.inl rfl)))
    | float => exact spells_bare (isBare_of_numeral hne (hnumeral (.inr rfl)))
    | string => exact absurd rfl hstring

/-! ## Test cases -/

/-- The argument that names the tags of a table. -/
def categoryArguments (tags : TagSet) : List CallArgument :=
  let category := String.intercalate "," tags.names
  if category = "" then [] else [.named "Category" category]

theorem spells_categoryArgument (tags : TagSet) :
    List.Forall₂ Spells (Fixture.categoryArgument tags) (categoryArguments tags) := by
  simp only [Fixture.categoryArgument, categoryArguments]
  split
  · exact .nil
  · have hname : "Category=\"" = "Category" ++ "=\"" := by decide
    rw [hname]
    exact .cons (spells_named (by decide) _) .nil

theorem spells_rowArguments {types : List ArgType} {row : Row}
    (h : ∀ type cell, (type, cell) ∈ types.zip row.cells →
      type = .string ∨ ArgType.ofValue cell = .ok type) :
    List.Forall₂ Spells (Fixture.rowArguments types row)
      (List.zipWith cellArgument types row.cells) := by
  rw [Fixture.rowArguments, ← List.map_uncurry_zip_eq_zipWith, ← List.map_uncurry_zip_eq_zipWith,
    List.forall₂_map_left_iff, List.forall₂_map_right_iff, List.forall₂_same]
  rintro ⟨type, cell⟩ hmem
  exact spells_argument (h type cell hmem)

/-- A test case is read as the cells of its row that have a type, and the tags of its table. -/
theorem call?_testCase {types : List ArgType} {row : Row} (tags : TagSet)
    (h : ∀ type cell, (type, cell) ∈ types.zip row.cells →
      type = .string ∨ ArgType.ofValue cell = .ok type) :
    call? (Fixture.testCase types tags row) =
      some ⟨"TestCase", List.zipWith cellArgument types row.cells ++ categoryArguments tags⟩ := by
  have hname : "TestCase(" = "TestCase" ++ "(" := by decide
  have hspells := List.rel_append (spells_rowArguments h) (spells_categoryArgument tags)
  rw [Fixture.testCase, hname]
  exact call?_eq (by decide) hspells

/-! ## Parameters -/

theorem isMark_of_mem_upperChar {c d : Char} (hc : isMark c = false) (hd : d ∈ upperChar c) :
    isMark d = false :=
  inRanges_of_mem_upperChar (by decide) (by decide +kernel) (by decide +kernel) hc hd

/-- No mark belongs to a word. -/
theorem isMark_of_not_isSeparator {c : Char} (h : isSeparator c = false) : isMark c = false := by
  have hmarks : ∀ n < 48, inRanges markRanges n = true → inRanges wordCharRanges n = false := by
    decide +kernel
  have hle : ∀ range ∈ markRanges, range.2 < 48 := by decide
  refine Bool.eq_false_iff.2 fun hmark => ?_
  obtain ⟨range, hrange, -, hhigh⟩ := exists_of_inRanges hmark
  have hword := hmarks c.toNat (lt_of_le_of_lt hhigh (hle range hrange)) hmark
  rw [isSeparator, isWordChar, hword] at h
  exact absurd h (by decide)

theorem unmarked_pascal (s : String) : ∀ c ∈ (pascal s).toList, isMark c = false :=
  forall_mem_pascal (fun _ _ => isMark_of_mem_upperChar) fun _ _ => isMark_of_not_isSeparator

theorem unmarked_camel (s : String) : ∀ c ∈ (camel s).toList, isMark c = false :=
  forall_mem_camel (fun _ _ => isMark_of_mem_upperChar) fun _ _ => isMark_of_not_isSeparator

/-- A declaration starts with the keyword of its type. -/
theorem isBare_declaration (type : ArgType) (label : String) :
    IsBare (Literal.typeName type ++ " " ++ camel label) := by
  have htype : IsBare (Literal.typeName type) := by
    cases type <;> decide
  have hne : (Literal.typeName type).toList ≠ [] := fun hnil =>
    htype.nonempty (String.toList_eq_nil_iff.1 hnil)
  refine ⟨by simp, ?_, ?_⟩
  · rw [String.toList_append, String.toList_append, List.append_assoc,
      List.head?_append_of_ne_nil _ hne]
    exact htype.unsigned
  · rw [String.toList_append, String.toList_append, List.forall_mem_append, List.forall_mem_append]
    exact ⟨⟨htype.unmarked, fun c hc => List.mem_singleton.1 hc ▸ rfl⟩, unmarked_camel label⟩

theorem isBare_of_mem_parameters {types : List ArgType} {o : Outline} {parameter : String}
    (h : parameter ∈ Fixture.parameters types o) : IsBare parameter := by
  unfold Fixture.parameters at h
  split at h
  · simp at h
  · obtain ⟨⟨label, index⟩, -, rfl⟩ := List.mem_map.1 h
    exact isBare_declaration _ label

theorem length_parameters (types : List ArgType) (o : Outline) :
    (Fixture.parameters types o).length = (o.labels?.map Row.width).getD 0 := by
  unfold Fixture.parameters
  split
  · next hnone => simp [hnone]
  · next labels hsome => simp [hsome, Row.width]

/-! ## Lines of a method -/

/-- The call between the brackets of a line above a method. -/
def attribute? (line : String) : Option Call :=
  if "    [".toList <+: line.toList ∧ line.toList.getLast? = some ']' then
    call? (String.ofList (line.toList.drop 5).dropLast)
  else none

/-- The arguments of a line that is a test case. -/
def testCase? (line : String) : Option (List CallArgument) :=
  (attribute? line).bind fun call =>
    if call.name = "TestCase" then some call.arguments else none

/-- The name and the parameters of a line that opens a method. -/
def signature? (line : String) : Option Call :=
  if "    public void ".toList <+: line.toList then call? (String.ofList (line.toList.drop 16))
  else none

theorem attribute?_mark (mark : String) : attribute? ("    [" ++ mark ++ "]") = call? mark := by
  have hchars : ("    [" ++ mark ++ "]").toList = "    [".toList ++ (mark.toList ++ [']']) := by
    simp
  have hdrop : ("    [".toList ++ (mark.toList ++ [']'])).drop 5 = mark.toList ++ [']'] := by simp
  have hlast : ("    [".toList ++ (mark.toList ++ [']'])).getLast? = some ']' := by
    rw [← List.append_assoc, List.getLast?_concat]
  rw [attribute?, hchars, if_pos ⟨List.prefix_append _ _, hlast⟩, hdrop, List.dropLast_concat,
    String.ofList_toList]

theorem name_of_call? {name rest : String} {call : Call} (hname : '(' ∉ name.toList)
    (h : call? (name ++ "(" ++ rest) = some call) : call.name = name := by
  have hchars : (name ++ "(" ++ rest).toList = name.toList ++ '(' :: rest.toList := by simp
  rw [call?, hchars, cutAt_append_cons hname] at h
  obtain ⟨arguments, -, rfl⟩ := Option.map_eq_some_iff.1 h
  exact String.ofList_toList

theorem testCase?_eq_none {line : String} (h : ¬"    [".toList <+: line.toList) :
    testCase? line = none := by
  rw [testCase?, attribute?, if_neg fun hattribute => h hattribute.1]
  rfl

theorem testCase?_categoryLine (tag : String) :
    testCase? ("    " ++ Fixture.categoryLine tag) = none := by
  have hline : "    " ++ Fixture.categoryLine tag =
      "    [" ++ ("Category" ++ "(" ++ ("\"" ++ Literal.regular tag ++ "\")")) ++ "]" := by
    apply String.toList_injective
    simp [Fixture.categoryLine]
  -- whatever the tag is, the line is a call of another name, if it is one at all
  rw [testCase?, hline, attribute?_mark, Option.bind_eq_none_iff]
  intro call hcall
  rw [name_of_call? (by decide) hcall, if_neg (by decide)]

section Methods

variable (name : String) (marks tags : List String) {parameters : List String} (steps : List Step)

/-- The test cases of a method are among its marks. -/
theorem filterMap_testCase?_methodLines :
    (Fixture.methodLines name marks tags parameters steps).filterMap testCase? =
      marks.filterMap fun mark => testCase? ("    [" ++ mark ++ "]") := by
  have htags : (tags.map fun tag => "    " ++ Fixture.categoryLine tag).filterMap testCase? =
      [] := by
    rw [List.filterMap_eq_nil_iff, List.forall_mem_map]
    exact fun tag _ => testCase?_categoryLine tag
  have hsteps : (steps.map fun s => "        " ++ Fixture.step s).filterMap testCase? = [] := by
    rw [List.filterMap_eq_nil_iff, List.forall_mem_map]
    intro s _
    exact testCase?_eq_none (by simp)
  have hsignature : testCase? ("    public void " ++ pascal name ++ "(" ++
      String.intercalate ", " parameters ++ ")") = none := testCase?_eq_none (by simp)
  have hbraces : testCase? "    \x7b" = none ∧ testCase? "    \x7d" = none := by decide
  simp only [Fixture.methodLines, List.filterMap_append, List.filterMap_map, htags, hsteps,
    List.filterMap_cons, hsignature, hbraces.1, hbraces.2, List.filterMap_nil, List.append_nil]
  rfl

/-- The signature of a method is its one line that opens it. -/
theorem filterMap_signature?_methodLines (h : ∀ parameter ∈ parameters, IsBare parameter) :
    (Fixture.methodLines name marks tags parameters steps).filterMap signature? =
      [⟨pascal name, parameters.map .bare⟩] := by
  have hmarks : (marks.map fun mark => "    [" ++ mark ++ "]").filterMap signature? = [] := by
    rw [List.filterMap_eq_nil_iff, List.forall_mem_map]
    intro mark _
    simp [signature?]
  have htags : (tags.map fun tag => "    " ++ Fixture.categoryLine tag).filterMap signature? =
      [] := by
    rw [List.filterMap_eq_nil_iff, List.forall_mem_map]
    intro tag _
    simp [signature?, Fixture.categoryLine]
  have hsteps : (steps.map fun s => "        " ++ Fixture.step s).filterMap signature? = [] := by
    rw [List.filterMap_eq_nil_iff, List.forall_mem_map]
    intro s _
    simp [signature?]
  have hspells : List.Forall₂ Spells parameters (parameters.map .bare) := by
    rw [List.forall₂_map_right_iff, List.forall₂_same]
    exact fun parameter hmem => spells_bare (h parameter hmem)
  have hname : '(' ∉ (pascal name).toList := by
    intro hmem
    exact absurd (unmarked_pascal name '(' hmem) (by decide)
  have hline : signature? ("    public void " ++ pascal name ++ "(" ++
      String.intercalate ", " parameters ++ ")") = some ⟨pascal name, parameters.map .bare⟩ := by
    have hchars : ("    public void " ++ pascal name ++ "(" ++
        String.intercalate ", " parameters ++ ")").toList = "    public void ".toList ++
          (pascal name ++ "(" ++ String.intercalate ", " parameters ++ ")").toList := by
      rw [← String.toList_append]
      simp only [String.append_assoc]
    have hdrop : ∀ cs : List Char, ("    public void ".toList ++ cs).drop 16 = cs := by simp
    rw [signature?, hchars, if_pos (List.prefix_append _ _), hdrop, String.ofList_toList]
    exact call?_eq hname hspells
  have hbraces : signature? "    \x7b" = none ∧ signature? "    \x7d" = none := by decide
  simp only [Fixture.methodLines, List.filterMap_append, hmarks, htags, hsteps,
    List.filterMap_cons, hline, hbraces.1, hbraces.2, List.filterMap_nil]
  rfl

end Methods

/-! ## Outlines -/

/-- The rows of an outline, each with its table. -/
def Outline.tableRows (o : Outline) : List (ExampleBlock × Row) :=
  o.blocks.flatMap fun block => block.rows.map fun row => (block, row)

theorem Outline.mem_tableRows_iff {o : Outline} {block : ExampleBlock} {row : Row} :
    (block, row) ∈ o.tableRows ↔ block ∈ o.blocks ∧ row ∈ block.rows := by
  simp [Outline.tableRows]

/-- The test cases of an outline, read off its method, are its rows. -/
theorem filterMap_testCase?_outlineLines {o : Outline} {types : List ArgType}
    (htypes : o.argTypes = .ok types) :
    (Fixture.outlineLines types o).filterMap testCase? = o.tableRows.map fun tableRow =>
      List.zipWith cellArgument types tableRow.2.cells ++ categoryArguments tableRow.1.tags := by
  have hmarks : (o.blocks.flatMap fun block =>
      block.rows.map (Fixture.testCase types block.tags)) =
        o.tableRows.map fun tableRow => Fixture.testCase types tableRow.1.tags tableRow.2 := by
    simp [Outline.tableRows, List.map_flatMap, Function.comp_def]
  rw [Fixture.outlineLines, filterMap_testCase?_methodLines, hmarks, List.filterMap_map,
    ← List.filterMap_eq_map]
  refine List.filterMap_congr ?_
  rintro ⟨block, row⟩ hmem
  obtain ⟨hblock, hrow⟩ := Outline.mem_tableRows_iff.1 hmem
  have hread := @call?_testCase types row block.tags fun type cell hpair =>
    Outline.ofValue_of_mem_zip htypes (List.mem_flatMap.2 ⟨block, hblock, hrow⟩) hpair
  show testCase? ("    [" ++ Fixture.testCase types block.tags row ++ "]") = _
  rw [testCase?, attribute?_mark, hread]
  rfl

/-- How the test case of a row fits the parameters of its method. -/
structure TestCaseFits (parameters : List CallArgument) (block : ExampleBlock) (row : Row)
    (arguments : List CallArgument) : Prop where
  /-- There are as many arguments as there are parameters, or cells if these are fewer. -/
  count : (arguments.filter CallArgument.isPositional).length = min parameters.length row.width
  /-- They stand for the first cells, one for one. -/
  cells : List.Forall₂ CallArgument.Denotes (arguments.filter CallArgument.isPositional)
    (row.cells.take parameters.length)
  /-- In a table with as many labels as there are parameters, there is an argument for each
      parameter and for each cell. -/
  all : block.labels.width = parameters.length →
    (arguments.filter CallArgument.isPositional).length = parameters.length ∧
      List.Forall₂ CallArgument.Denotes (arguments.filter CallArgument.isPositional) row.cells

theorem filter_isPositional (types : List ArgType) (row : Row) (tags : TagSet) :
    ((List.zipWith cellArgument types row.cells ++ categoryArguments tags).filter
      CallArgument.isPositional) = List.zipWith cellArgument types row.cells := by
  have hcells : (List.zipWith cellArgument types row.cells).filter CallArgument.isPositional =
      List.zipWith cellArgument types row.cells := by
    rw [List.filter_eq_self, ← List.map_uncurry_zip_eq_zipWith, List.forall_mem_map]
    exact fun pair _ => isPositional_cellArgument pair.1 pair.2
  have hcategory : (categoryArguments tags).filter CallArgument.isPositional = [] := by
    simp only [categoryArguments]
    split <;> rfl
  rw [List.filter_append, hcells, hcategory, List.append_nil]

theorem denotes_zipWith (types : List ArgType) (cells : List String) :
    List.Forall₂ CallArgument.Denotes (List.zipWith cellArgument types cells)
      (cells.take types.length) := by
  induction types generalizing cells with
  | nil => simp
  | cons type types ih =>
    cases cells with
    | nil => exact .nil
    | cons cell cells => exact .cons (denotes_cellArgument type cell) (ih cells)

theorem testCaseFits {types : List ArgType} {parameters : List CallArgument} {block : ExampleBlock}
    {row : Row} (htypes : types.length = parameters.length)
    (hwidth : row.width = block.labels.width) :
    TestCaseFits parameters block row
      (List.zipWith cellArgument types row.cells ++ categoryArguments block.tags) := by
  have hcells := denotes_zipWith types row.cells
  rw [htypes] at hcells
  have hcount : (List.zipWith cellArgument types row.cells).length =
      min parameters.length row.width := by
    rw [List.length_zipWith, htypes]
    rfl
  refine ⟨?_, ?_, fun hlabels => ?_⟩
  · rw [filter_isPositional, hcount]
  · rw [filter_isPositional]
    exact hcells
  · -- the reader has compared the row with the labels of its own table
    have hall : row.cells.length = parameters.length := hwidth.trans hlabels
    rw [List.take_of_length_le hall.le] at hcells
    rw [filter_isPositional, hcount, hwidth, hlabels, Nat.min_self]
    exact ⟨rfl, hcells⟩

/-- The lines of the method of an outline. -/
theorem splitLines_outline {o : Outline} (h : ∀ t ∈ (Member.item (.outline o)).texts, Unbroken t)
    {types : List ArgType} (htypes : o.argTypes = .ok types) :
    splitLines (Fixture.outline types o) = Fixture.outlineLines types o := by
  have hlines : Fixture.itemLines (.outline o) = .ok (Fixture.outlineLines types o) := by
    rw [Fixture.itemLines, htypes]
    rfl
  obtain ⟨-, -, -, hblocks⟩ := Member.forall_mem_texts.1 h
  rw [Fixture.outline_eq hblocks types]
  refine Fixture.splitLines_joinLines (Fixture.unbroken_itemLines h hlines) ?_
  simp only [Fixture.outlineLines, Fixture.methodLines, List.forall_mem_append,
    List.forall_mem_map, List.forall_mem_cons]
  simp

/-- How the lines of a method fit its outline. -/
structure MethodFits (o : Outline) (lines : List String) (parameters : List CallArgument) :
    Prop where
  /-- One line opens the method, with the given parameters. -/
  signature : lines.filterMap signature? = [⟨pascal o.name, parameters⟩]
  /-- There is one parameter for each label of the first table. -/
  labels : parameters.length = (o.labels?.map Row.width).getD 0
  /-- There is one test case for each row, which fits the parameters. -/
  testCases : List.Forall₂ (fun tableRow => TestCaseFits parameters tableRow.1 tableRow.2)
    o.tableRows (lines.filterMap testCase?)

/-- In every file that is read, the method of an outline stands in the fixture in one piece, and its
    test cases fit its parameters. -/
theorem testCases_fit {source : String} {f : Feature} {o : Outline} {types : List ArgType}
    (h : parse source = .ok f) (ho : .outline o ∈ f.items) (htypes : o.argTypes = .ok types) :
    (∀ output, Format.nunit.render f = .ok output →
      splitLines (Fixture.outline types o) <:+: splitLines output) ∧
    ∃ parameters, MethodFits o (splitLines (Fixture.outline types o)) parameters := by
  have hunbroken : ∀ t ∈ f.texts, Unbroken t := fun t ht => unbroken_of_mem_texts h ht
  have hmember : Member.item (.outline o) ∈ f.members := by simp [Feature.members, ho]
  obtain ⟨-, -, -, hmembers⟩ := Feature.forall_mem_texts.1 hunbroken
  rw [splitLines_outline (hmembers _ hmember) htypes]
  refine ⟨?_, (Fixture.parameters types o).map .bare, ?_, ?_, ?_⟩
  · intro output houtput
    obtain ⟨text, htext, rfl⟩ := except_map_eq_ok_iff.1 houtput
    obtain ⟨method, hmethod, hinfix⟩ := Fixture.itemLines_infix hunbroken htext ho
    rw [Fixture.itemLines, htypes] at hmethod
    cases hmethod
    exact hinfix
  · exact filterMap_signature?_methodLines _ _ _ _ fun parameter => isBare_of_mem_parameters
  · rw [List.length_map, length_parameters]
  · have hlength : types.length = ((Fixture.parameters types o).map CallArgument.bare).length := by
      rw [List.length_map, length_parameters, Outline.length_argTypes htypes]
    have hblocks := ((Feature.wellFormed_of_parse h).members _ hmember).blocks
    rw [filterMap_testCase?_outlineLines htypes, List.forall₂_map_right_iff, List.forall₂_same]
    rintro ⟨block, row⟩ hmem
    obtain ⟨hblock, hrow⟩ := Outline.mem_tableRows_iff.1 hmem
    exact testCaseFits hlength ((hblocks block hblock).widths row hrow)

/-- A source with one outline, whose tables are given. -/
def tablesSource (tables : String) : String := "Feature: f\nScenario Outline: o\n" ++ tables

/-- Its outline. -/
def tablesOutline (blocks : List ExampleBlock) : Outline := ⟨"o", [], blocks, .empty⟩

/-- Its feature. -/
def tablesFeature (blocks : List ExampleBlock) : Feature :=
  ⟨"f", .empty, [], none, [.outline (tablesOutline blocks)]⟩

/-- A table with tags and a comma in a cell, and a table with fewer labels. -/
def mixedTables : List ExampleBlock :=
  [⟨⟨["a", "b"], by decide⟩, [⟨["1", "\"x, y\""], by decide⟩], .ofList ["t"]⟩,
    ⟨⟨["a"], by decide⟩, [⟨["2"], by decide⟩], .empty⟩]

theorem testCases_fit_mixedTables :
    parse (tablesSource "@t\nExamples:\n|a|b|\n|1|\"x, y\"|\nExamples:\n|a|\n|2|\n") =
        .ok (tablesFeature mixedTables) ∧
      (tablesOutline mixedTables).argTypes = .ok [.integer, .string] ∧
      (∀ output, Format.nunit.render (tablesFeature mixedTables) = .ok output →
        splitLines (Fixture.outline [.integer, .string] (tablesOutline mixedTables)) <:+:
          splitLines output) ∧
      ∃ parameters, MethodFits (tablesOutline mixedTables)
        (splitLines (Fixture.outline [.integer, .string] (tablesOutline mixedTables)))
        parameters := by
  have hsource : parse (tablesSource
      "@t\nExamples:\n|a|b|\n|1|\"x, y\"|\nExamples:\n|a|\n|2|\n") =
        .ok (tablesFeature mixedTables) := by decide +kernel
  have htypes : (tablesOutline mixedTables).argTypes = .ok [.integer, .string] := by
    decide +kernel
  exact ⟨hsource, htypes, testCases_fit hsource (List.mem_singleton_self _) htypes⟩

/-- A table with two labels and no rows, and a row of a table with one label. -/
def narrowTables : List ExampleBlock :=
  [⟨⟨["a", "b"], by decide⟩, [], .empty⟩, ⟨⟨["a"], by decide⟩, [⟨["3"], by decide⟩], .empty⟩]

/-- A table with one label and no rows, and a row of a table with two labels. -/
def wideTables : List ExampleBlock :=
  [⟨⟨["a"], by decide⟩, [], .empty⟩,
    ⟨⟨["a", "b"], by decide⟩, [⟨["3", "x"], by decide⟩], .empty⟩]

/-- A class with one method. -/
def methodFixture (signature : String) : String :=
  "[TestFixture]\npublic class F\n\x7b\n    [TestCase(3)]\n    public void " ++ signature ++
    "\n    \x7b\n    \x7d\n\x7d\n"

/-- A row of a table with fewer labels than the first one leaves a parameter without an argument,
    and a row of a table with more labels loses the cells behind those of the first. -/
theorem arguments_of_uneven_tables :
    (parse (tablesSource "Examples:\n|a|b|\nExamples:\n|a|\n|3|\n") =
        .ok (tablesFeature narrowTables) ∧
      Format.nunit.render (tablesFeature narrowTables) =
        .ok (methodFixture "O(long a, string b)") ∧
      (splitLines (methodFixture "O(long a, string b)")).filterMap signature? =
        [⟨"O", [.bare "long a", .bare "string b"]⟩] ∧
      (splitLines (methodFixture "O(long a, string b)")).filterMap testCase? = [[.bare "3"]]) ∧
    (parse (tablesSource "Examples:\n|a|\nExamples:\n|a|b|\n|3|x|\n") =
        .ok (tablesFeature wideTables) ∧
      Format.nunit.render (tablesFeature wideTables) = .ok (methodFixture "O(long a)") ∧
      (splitLines (methodFixture "O(long a)")).filterMap signature? =
        [⟨"O", [.bare "long a"]⟩] ∧
      (splitLines (methodFixture "O(long a)")).filterMap testCase? = [[.bare "3"]]) := by
  decide +kernel

end FeatureFile
