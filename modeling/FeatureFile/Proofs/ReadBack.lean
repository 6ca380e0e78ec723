import FeatureFile.Proofs.RenderHistory
import FeatureFile.Proofs.TestCases

set_option autoImplicit false

/-! # Test cases read back as rows

A row of an outline becomes a test case, a line of code with the cells as arguments. Read as a call
again, the line gives back the row: an argument for each cell that has a type, in order, and behind
them the tags of the table (`testCases_read_back`). This holds for every outline, whether it comes
from a file or not, and so for cells and tags of any characters. -/

namespace FeatureFile

open Text CallReader

/-! ## Cells -/

/-- The text that a cell of a string column stands for. A cell in quotes that has no others stands
    for what is between them, and one backslash, or else one slash, at the start of a cell is left
    out. -/
inductive StandsFor : String → String → Prop where
  | quoted {body : String} (plain : '"' ∉ body.toList) : StandsFor ("\"" ++ body ++ "\"") body
  | backslash (rest : String) : StandsFor ("\\" ++ rest) rest
  | slash (rest : String) : StandsFor ("/" ++ rest) rest
  | itself {cell : String} (quoted : ∀ body, '"' ∉ body.toList → cell ≠ "\"" ++ body ++ "\"")
      (backslash : ∀ rest, cell ≠ "\\" ++ rest) (slash : ∀ rest, cell ≠ "/" ++ rest) :
      StandsFor cell cell

theorem isQuoted_iff {cell : String} :
    Literal.isQuoted cell = true ↔
      ∃ body : String, '"' ∉ body.toList ∧ cell = "\"" ++ body ++ "\"" := by
  constructor
  · intro h
    obtain ⟨body, hcell, hplain⟩ := exists_of_isQuoted h
    refine ⟨String.ofList body, by rwa [String.toList_ofList], String.toList_injective ?_⟩
    simp [hcell]
  · rintro ⟨body, hplain, rfl⟩
    have hcount : body.toList.count '"' = 0 := List.count_eq_zero.2 hplain
    simp [Literal.isQuoted, hcount, List.getLast?_cons]

/-- A cell that is not in quotes stands for itself, but for a mark at its start. -/
theorem literalText_of_not_isQuoted {cell : String} (h : ¬Literal.isQuoted cell = true) :
    literalText cell = String.ofList (Literal.dropEscape cell.toList) := if_neg h

theorem literalText_quoted {body : String} (h : '"' ∉ body.toList) :
    literalText ("\"" ++ body ++ "\"") = body := by
  rw [literalText, if_pos (isQuoted_iff.2 ⟨body, h, rfl⟩)]
  simp

theorem literalText_backslash (rest : String) : literalText ("\\" ++ rest) = rest := by
  rw [literalText_of_not_isQuoted (by simp [Literal.isQuoted])]
  simp [Literal.dropEscape]

theorem literalText_slash (rest : String) : literalText ("/" ++ rest) = rest := by
  rw [literalText_of_not_isQuoted (by simp [Literal.isQuoted])]
  simp [Literal.dropEscape]

theorem literalText_itself {cell : String} (hquoted : ¬Literal.isQuoted cell = true)
    (hbackslash : ∀ rest, cell ≠ "\\" ++ rest) (hslash : ∀ rest, cell ≠ "/" ++ rest) :
    literalText cell = cell := by
  have hstart : ∀ c rest, cell.toList = c :: rest →
      cell = String.ofList [c] ++ String.ofList rest := by
    intro c rest hcell
    rw [← String.ofList_append, List.singleton_append, ← hcell, String.ofList_toList]
  rw [literalText_of_not_isQuoted hquoted]
  unfold Literal.dropEscape
  split
  · next rest hcell => exact absurd (hstart _ rest hcell) (hbackslash _)
  · next rest hcell => exact absurd (hstart _ rest hcell) (hslash _)
  · exact String.ofList_toList

/-- Every cell stands for one text. -/
theorem standsFor_iff {cell value : String} : StandsFor cell value ↔ value = literalText cell := by
  constructor
  · intro h
    cases h with
    | quoted plain => rw [literalText_quoted plain]
    | backslash => rw [literalText_backslash]
    | slash => rw [literalText_slash]
    | itself quoted backslash slash =>
      have hquoted : ¬Literal.isQuoted cell = true := by
        intro hquoted
        obtain ⟨body, hplain, hcell⟩ := isQuoted_iff.1 hquoted
        exact quoted body hplain hcell
      rw [literalText_itself hquoted backslash slash]
  · rintro rfl
    by_cases hquoted : Literal.isQuoted cell = true
    · obtain ⟨body, hplain, rfl⟩ := isQuoted_iff.1 hquoted
      rw [literalText_quoted hplain]
      exact .quoted hplain
    by_cases hbackslash : ∃ rest, cell = "\\" ++ rest
    · obtain ⟨rest, rfl⟩ := hbackslash
      rw [literalText_backslash]
      exact .backslash rest
    by_cases hslash : ∃ rest, cell = "/" ++ rest
    · obtain ⟨rest, rfl⟩ := hslash
      rw [literalText_slash]
      exact .slash rest
    rw [not_exists] at hbackslash hslash
    rw [literalText_itself hquoted hbackslash hslash]
    refine .itself (fun body hplain hcell => hquoted ?_) hbackslash hslash
    exact isQuoted_iff.2 ⟨body, hplain, hcell⟩

/-- The argument for a cell of a column with the given type: the cell as it is, or in a string
    column one verbatim string. -/
inductive IsArgument : ArgType → String → CallArgument → Prop where
  | plain {type : ArgType} {cell : String} (other : type ≠ .string) :
      IsArgument type cell (.bare cell)
  | string {cell value : String} (denotes : StandsFor cell value) :
      IsArgument .string cell (.verbatim value)

theorem isArgument_iff {type : ArgType} {cell : String} {argument : CallArgument} :
    IsArgument type cell argument ↔ argument = cellArgument type cell := by
  constructor
  · intro h
    cases h with
    | plain other => rw [cellArgument, if_neg other]
    | string denotes => rw [cellArgument, if_pos rfl, standsFor_iff.1 denotes]
  · rintro rfl
    by_cases hstring : type = .string
    · rw [cellArgument, if_pos hstring, hstring]
      exact .string (standsFor_iff.2 rfl)
    · rw [cellArgument, if_neg hstring]
      exact .plain hstring

/-! ## Rows -/

/-- Arguments by position, and for names, that say what a row and the tags of its table say. -/
structure ReadsAsRow (types : List ArgType) (tags : TagSet) (row : Row)
    (positional named : List CallArgument) : Prop where
  /-- There is an argument for each cell that has a type. -/
  count : positional.length = min row.width types.length
  /-- Each is the argument for its cell. -/
  cells : ∀ (column : Nat) (type : ArgType) (cell : String), types[column]? = some type →
    row.cells[column]? = some cell →
    ∀ argument, positional[column]? = some argument ↔ IsArgument type cell argument
  /-- No argument has a name if there are no tags, or none but an empty one. -/
  untagged : String.intercalate "," tags.names = "" → named = []
  /-- The tags, joined by commas, are the text of the one argument that has a name. -/
  tagged : String.intercalate "," tags.names ≠ "" →
    named = [.named "Category" (String.intercalate "," tags.names)]

theorem readsAsRow (types : List ArgType) (tags : TagSet) (row : Row) :
    ReadsAsRow types tags row (List.zipWith cellArgument types row.cells)
      (categoryArguments tags) := by
  refine ⟨?_, ?_, fun h => if_pos h, fun h => if_neg h⟩
  · rw [List.length_zipWith, Nat.min_comm]
    rfl
  · intro column type cell htype hcell argument
    rw [List.getElem?_zipWith, htype, hcell, isArgument_iff]
    show some (cellArgument type cell) = some argument ↔ argument = cellArgument type cell
    rw [Option.some.injEq]
    exact eq_comm

/-- In every outline whose types are inferred, the renderer that has these types makes of a table
    one test case for each row, and each test case, read as a call, gives back its row and the tags
    of the table. -/
theorem testCases_read_back {o : Outline} {types : List ArgType} {block : ExampleBlock}
    (htypes : o.argTypes = .ok types) (hblock : block ∈ o.blocks) :
    ∃ texts, ((Renderer.nunit types).visit (.block block)).1 =
        .ok (.text (Fixture.joinLines texts)) ∧
      List.Forall₂ (fun row text => ∃ positional named,
        call? text = some ⟨"TestCase", positional ++ named⟩ ∧
          ReadsAsRow types block.tags row positional named) block.rows texts := by
  refine ⟨block.rows.map (Fixture.testCase types block.tags), rfl, ?_⟩
  rw [List.forall₂_map_right_iff, List.forall₂_same]
  intro row hrow
  have hrows : row ∈ o.rows := List.mem_flatMap.2 ⟨block, hblock, hrow⟩
  have hread := @call?_testCase types row block.tags fun type cell hpair =>
    Outline.ofValue_of_mem_zip htypes hrows hpair
  exact ⟨_, _, hread, readsAsRow types block.tags row⟩

/-- A table whose cells and tags are full of quotes, commas, parentheses and backslashes. -/
def markedTable : ExampleBlock :=
  ⟨⟨["number", "a", "b"], by decide⟩,
    [⟨["-1", "\"x, y\"", "\\\\\")"], by decide⟩, ⟨["+2", "/\"", "@\"a\", \"b\")"], by decide⟩],
    .ofList ["t\\", "\"u, v\")"]⟩

/-- An outline with this table, and a table that has only numbers. -/
def markedOutline : Outline :=
  ⟨"o", [], [markedTable, ⟨⟨["number"], by decide⟩, [⟨["30"], by decide⟩], .empty⟩], .empty⟩

theorem testCases_read_back_markedOutline :
    markedOutline.argTypes = .ok [.integer, .string, .string] ∧
    markedTable ∈ markedOutline.blocks ∧
    ∃ texts, ((Renderer.nunit [.integer, .string, .string]).visit (.block markedTable)).1 =
        .ok (.text (Fixture.joinLines texts)) ∧
      List.Forall₂ (fun row text => ∃ positional named,
        call? text = some ⟨"TestCase", positional ++ named⟩ ∧
          ReadsAsRow [.integer, .string, .string] markedTable.tags row positional named)
        markedTable.rows texts := by
  have htypes : markedOutline.argTypes = .ok [.integer, .string, .string] := by decide +kernel
  have hblock : markedTable ∈ markedOutline.blocks := List.mem_cons_self
  exact ⟨htypes, hblock, testCases_read_back htypes hblock⟩

end FeatureFile
