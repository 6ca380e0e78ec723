import FeatureFile.Proofs.DigitLimit
import FeatureFile.Proofs.Layout

set_option autoImplicit false

/-! # What a column type says about its cells

A column has another type than a string exactly if there are cells, none is missing, and each has
that type. So the types of some tables depend only on the number of labels in the first one and on
the set of their rows (`ArgType.infer_of_rows`). A cell of a boolean column is one of the two words,
and a cell of a numeric column is spelled with the characters of numerals. -/

namespace FeatureFile

open Text

namespace ArgType

/-! ## Columns -/

theorem join_eq_iff {a b type : ArgType} (h : type ≠ .string) :
    join a b = type ↔ a = type ∧ b = type := by
  unfold join
  split
  · next hab => simp [hab]
  · next hab =>
    constructor
    · intro hstring
      exact absurd hstring.symm h
    · rintro ⟨ha, hb⟩
      exact absurd (ha.trans hb.symm) hab

theorem foldl_join_eq_iff {types : List ArgType} {first type : ArgType} (h : type ≠ .string) :
    types.foldl join first = type ↔ first = type ∧ ∀ t ∈ types, t = type := by
  induction types generalizing first with
  | nil => simp
  | cons t rest ih => rw [List.foldl_cons, ih, join_eq_iff h, List.forall_mem_cons, and_assoc]

/-- A list has a common type other than a string only if all its types are that one. -/
theorem joinAll_eq_iff {types : List ArgType} {type : ArgType} (h : type ≠ .string) :
    joinAll types = type ↔ types ≠ [] ∧ ∀ t ∈ types, t = type := by
  cases types with
  | nil => simp [joinAll, h.symm]
  | cons first rest => simp [joinAll, foldl_join_eq_iff h]

/-- There are rows, and the column has a cell of the given type in each of them. -/
def Agree (rows : List Row) (column : Nat) (type : ArgType) : Prop :=
  rows ≠ [] ∧ ∀ row ∈ rows, ∃ cell, row.cells[column]? = some cell ∧ ofValue cell = .ok type

theorem ofCell_eq_ok_iff {row : Row} {column : Nat} {type : ArgType} (h : type ≠ .string) :
    ofCell column row = .ok type ↔
      ∃ cell, row.cells[column]? = some cell ∧ ofValue cell = .ok type := by
  unfold ofCell
  cases row.cells[column]? with
  | none => simp [h.symm]
  | some cell => simp

/-- A column has another type than a string exactly if its cells agree on it. -/
theorem agree_iff_of_ofColumn {rows : List Row} {column : Nat} {result type : ArgType}
    (h : ofColumn rows column = .ok result) (hne : type ≠ .string) :
    result = type ↔ Agree rows column type := by
  obtain ⟨types, htypes, rfl⟩ := except_map_eq_ok_iff.1 h
  have hcells := forall₂_of_mapM htypes
  rw [joinAll_eq_iff hne, Agree]
  refine and_congr ?_ ?_
  · rw [ne_eq, ne_eq, ← List.length_eq_zero_iff, ← List.length_eq_zero_iff, hcells.length_eq]
  · simp only [← ofCell_eq_ok_iff hne]
    constructor
    · intro hall row hrow
      obtain ⟨t, ht, hcell⟩ := exists_of_forall₂_left hcells hrow
      rw [hcell, hall t ht]
    · intro hall t ht
      obtain ⟨row, hrow, hcell⟩ := exists_of_forall₂_left hcells.flip ht
      exact Except.ok.inj (hcell.symm.trans (hall row hrow))

/-! ## Tables -/

section Tables

variable {first : ExampleBlock} {rest : List ExampleBlock} {types : List ArgType}

theorem length_of_infer (h : infer (first :: rest) = .ok types) :
    types.length = first.labels.width := by
  have hlength := (forall₂_of_mapM h).length_eq
  rw [List.length_range] at hlength
  exact hlength.symm

theorem ofColumn_of_infer {column : Nat} {type : ArgType} (h : infer (first :: rest) = .ok types)
    (htype : types[column]? = some type) :
    ofColumn ((first :: rest).flatMap (·.rows)) column = .ok type := by
  obtain ⟨hlt, hget⟩ := List.getElem?_eq_some_iff.1 htype
  obtain ⟨hlength, hcolumns⟩ := List.forall₂_iff_get.1 (forall₂_of_mapM h)
  have hcolumn := hcolumns column (by omega) hlt
  simpa only [List.get_eq_getElem, List.getElem_range, hget] using hcolumn

/-- What the type of a column says: it is another type than a string exactly if the cells agree on
    that type, and a string in all other cases. -/
structure IsColumnType (rows : List Row) (column : Nat) (result : ArgType) : Prop where
  agreed : ∀ type, type ≠ .string → (result = type ↔ Agree rows column type)
  string : result = .string ↔ ∀ type, type ≠ .string → ¬Agree rows column type

theorem isColumnType_of_infer {column : Nat} {result : ArgType}
    (h : infer (first :: rest) = .ok types) (hresult : types[column]? = some result) :
    IsColumnType ((first :: rest).flatMap (·.rows)) column result := by
  have hagreed : ∀ type, type ≠ .string →
      (result = type ↔ Agree ((first :: rest).flatMap (·.rows)) column type) :=
    fun type hne => agree_iff_of_ofColumn (ofColumn_of_infer h hresult) hne
  refine ⟨hagreed, ?_, ?_⟩
  · rintro rfl type hne hagree
    exact hne ((hagreed type hne).2 hagree).symm
  · intro hnone
    by_contra hne
    exact hnone result hne ((hagreed result hne).1 rfl)

theorem agree_congr {rows others : List Row} (h : ∀ row, row ∈ rows ↔ row ∈ others) (column : Nat)
    (type : ArgType) : Agree rows column type ↔ Agree others column type := by
  simp only [Agree, ne_eq, List.eq_nil_iff_forall_not_mem, h]

/-- There is only one type for a column, and it depends on the set of the rows. -/
theorem IsColumnType.unique {rows others : List Row} {column : Nat} {result other : ArgType}
    (h : IsColumnType rows column result) (h' : IsColumnType others column other)
    (hrows : ∀ row, row ∈ rows ↔ row ∈ others) : result = other := by
  by_cases hstring : result = .string
  · have hnone := h.string.1 hstring
    simp only [agree_congr hrows] at hnone
    rw [hstring, h'.string.2 hnone]
  · have hagree := (h.agreed result hstring).1 rfl
    rw [agree_congr hrows] at hagree
    exact ((h'.agreed result hstring).2 hagree).symm

theorem infer_congr {other : ExampleBlock} {others : List ExampleBlock}
    (hwidth : other.labels.width = first.labels.width)
    (hrows : ∀ row, row ∈ (other :: others).flatMap (·.rows) ↔
      row ∈ (first :: rest).flatMap (·.rows))
    (h : infer (first :: rest) = .ok types) : infer (other :: others) = .ok types := by
  have hok : (infer (other :: others)).isOk = true := by
    have hcells := isOk_infer_iff.1 (isOk_iff_exists.2 ⟨types, h⟩)
    rw [isOk_infer_iff, hwidth]
    exact fun row hrow => hcells row ((hrows row).1 hrow)
  obtain ⟨inferred, hinferred⟩ := isOk_iff_exists.1 hok
  -- both lists have a type for each label, and column by column they have the same one
  have hlength : inferred.length = types.length := by
    rw [length_of_infer hinferred, length_of_infer h, hwidth]
  have htypes : inferred = types := by
    refine List.ext_getElem hlength fun column hleft hright => ?_
    exact (isColumnType_of_infer hinferred (List.getElem?_eq_getElem hleft)).unique
      (isColumnType_of_infer h (List.getElem?_eq_getElem hright)) hrows
  rw [hinferred, htypes]

end Tables

/-- The types of some tables depend on the number of labels in the first table and on the set of
    the rows. If every cell below these labels has a type, there is one type for each label, and a
    column has another type than a string exactly if there are rows, each has a cell there, and each
    of these cells has that type. Tables with as many labels in the first one and with the same
    rows, in whatever order and number and however divided, have the same types or none alike. -/
theorem infer_of_rows (first : ExampleBlock) (rest : List ExampleBlock) :
    ((∀ row ∈ (first :: rest).flatMap (·.rows), ∀ cell ∈ row.cells.take first.labels.width,
        (ofValue cell).isOk = true) →
      ∃ types, infer (first :: rest) = .ok types ∧ types.length = first.labels.width ∧
        ∀ column result, types[column]? = some result →
          IsColumnType ((first :: rest).flatMap (·.rows)) column result) ∧
    ∀ other others, other.labels.width = first.labels.width →
      (∀ row, row ∈ (other :: others).flatMap (·.rows) ↔
        row ∈ (first :: rest).flatMap (·.rows)) →
      (∀ types, infer (other :: others) = .ok types ↔ infer (first :: rest) = .ok types) ∧
      ((∃ limit, infer (other :: others) = .error limit) ↔
        ∃ limit, infer (first :: rest) = .error limit) := by
  constructor
  · intro hcells
    have hok : (infer (first :: rest)).isOk = true := by
      rw [isOk_infer_iff]
      exact fun row hrow cell hcell => isOk_ofValue_iff.1 (hcells row hrow cell hcell)
    obtain ⟨types, h⟩ := isOk_iff_exists.1 hok
    exact ⟨types, h, length_of_infer h, fun column result => isColumnType_of_infer h⟩
  · intro other others hwidth hrows
    have hiff : ∀ types, infer (other :: others) = .ok types ↔ infer (first :: rest) = .ok types :=
      fun types => ⟨infer_congr hwidth.symm fun row => (hrows row).symm,
        infer_congr hwidth hrows⟩
    refine ⟨hiff, ?_⟩
    rw [exists_eq_error_iff, exists_eq_error_iff]
    simp only [ne_eq, hiff]

/-- A table of counts and sizes. -/
def sizesTable : ExampleBlock :=
  ⟨⟨["count", "size"], by decide⟩, [⟨["1", ".5"], by decide⟩, ⟨["-2", "3e4"], by decide⟩], .empty⟩

/-- A table that lacks the sizes. -/
def countsTable : ExampleBlock := ⟨⟨["count"], by decide⟩, [⟨["+3"], by decide⟩], .empty⟩

/-- A table of counts and sizes without rows. -/
def bareTable : ExampleBlock := { sizesTable with rows := [], tags := .ofList ["t"] }

/-- The rows of these tables in another order, one of them twice. -/
def rearrangedTables : List ExampleBlock :=
  [countsTable, { sizesTable with rows := sizesTable.rows.reverse ++ sizesTable.rows.take 1 }]

/-- A missing cell makes a column of floats a string, before and after the rows are rearranged. -/
theorem infer_rearrangedTables :
    (∀ row ∈ [sizesTable, countsTable].flatMap (·.rows), ∀ cell ∈ row.cells.take 2,
      (ofValue cell).isOk = true) ∧
    (∀ row, row ∈ (bareTable :: rearrangedTables).flatMap (·.rows) ↔
      row ∈ [sizesTable, countsTable].flatMap (·.rows)) ∧
    infer [sizesTable, countsTable] = .ok [.integer, .string] ∧
    infer (bareTable :: rearrangedTables) = .ok [.integer, .string] ∧
    Agree ([sizesTable, countsTable].flatMap (·.rows)) 0 .integer ∧
    ¬Agree ([sizesTable, countsTable].flatMap (·.rows)) 1 .float := by
  have hcells : ∀ row ∈ [sizesTable, countsTable].flatMap (·.rows), ∀ cell ∈ row.cells.take 2,
      (ofValue cell).isOk = true := by decide +kernel
  have hrows : ∀ row, row ∈ (bareTable :: rearrangedTables).flatMap (·.rows) ↔
      row ∈ [sizesTable, countsTable].flatMap (·.rows) := by
    intro row
    simp only [bareTable, rearrangedTables, sizesTable, countsTable, List.flatMap_cons,
      List.flatMap_nil, List.mem_append, List.mem_reverse, List.take_succ_cons, List.take_zero,
      List.mem_cons, List.not_mem_nil]
    tauto
  have hinfer : infer [sizesTable, countsTable] = .ok [.integer, .string] := by decide +kernel
  obtain ⟨hspec, hsame⟩ := infer_of_rows sizesTable [countsTable]
  obtain ⟨types, htypes, -, hcolumns⟩ := hspec hcells
  obtain rfl : types = [.integer, .string] := Except.ok.inj (htypes.symm.trans hinfer)
  obtain ⟨hok, -⟩ := hsame bareTable rearrangedTables rfl hrows
  refine ⟨hcells, hrows, hinfer, (hok _).2 hinfer, ?_, ?_⟩
  · exact ((hcolumns 0 .integer rfl).agreed .integer (by decide)).1 rfl
  · exact (hcolumns 1 .string rfl).string.1 rfl .float (by decide)

end ArgType

section Outlines

variable {o : Outline} {types : List ArgType}

/-- There is one type for each label of the first table. -/
theorem Outline.length_argTypes (h : o.argTypes = .ok types) :
    types.length = (o.labels?.map Row.width).getD 0 := by
  rw [Outline.argTypes] at h
  rw [Outline.labels?]
  cases hblocks : o.blocks with
  | nil =>
    rw [hblocks] at h
    cases h
    rfl
  | cons first rest =>
    rw [hblocks] at h
    exact ArgType.length_of_infer h

/-- A cell has the type of its column, unless that is a string. -/
theorem Outline.ofValue_of_mem_zip {row : Row} {type : ArgType} {cell : String}
    (h : o.argTypes = .ok types) (hrow : row ∈ o.rows) (hmem : (type, cell) ∈ types.zip row.cells) :
    type = .string ∨ ArgType.ofValue cell = .ok type := by
  obtain ⟨i, hi, hpair⟩ := List.getElem_of_mem hmem
  rw [List.getElem_zip, Prod.mk.injEq] at hpair
  rw [List.length_zip, Nat.lt_min] at hi
  rw [Outline.argTypes] at h
  rw [Outline.rows] at hrow
  cases hblocks : o.blocks with
  | nil => simp [hblocks] at hrow
  | cons first rest =>
    rw [hblocks] at h hrow
    have hget : types[i]? = some type := by rw [List.getElem?_eq_getElem hi.1, hpair.1]
    have hcolumn := ArgType.ofColumn_of_infer h hget
    -- a row that is too short would have made the column a string, so the cell is there
    refine or_iff_not_imp_left.2 fun hne => ?_
    obtain ⟨-, hcells⟩ := (ArgType.agree_iff_of_ofColumn hcolumn hne).1 rfl
    obtain ⟨value, hvalue, htype⟩ := hcells row hrow
    rw [List.getElem?_eq_getElem hi.2, hpair.2, Option.some.injEq] at hvalue
    rw [hvalue, htype]

end Outlines

/-! ## Cells -/

/-- Whether a character occurs in numerals; one line feed may follow them. -/
def isNumeralChar (c : Char) : Bool := isAsciiDigit c || c ∈ ['+', '-', '.', 'e', 'E', '\n']

theorem isNumeralChar_of_isDigits {cs : List Char} (h : Numeral.isDigits cs = true) :
    ∀ c ∈ cs, isNumeralChar c = true := by
  rw [Numeral.isDigits, Bool.and_eq_true, List.all_eq_true] at h
  intro c hc
  rw [isNumeralChar, h.2 c hc, Bool.true_or]

theorem isNumeralChar_of_cutSign {cs : List Char}
    (h : ∀ c ∈ (Numeral.cutSign cs).2, isNumeralChar c = true) :
    ∀ c ∈ cs, isNumeralChar c = true := by
  obtain ⟨sign, hcs, hsign⟩ := exists_cutSign cs
  rw [hcs]
  refine List.forall_mem_append.2 ⟨?_, h⟩
  rcases hsign with rfl | rfl | rfl <;> exact List.all_eq_true.1 (by decide)

theorem isNumeralChar_of_readExponent {cs : List Char} {exponent : Int}
    (h : Decimal.readExponent? cs = some exponent) : ∀ c ∈ cs, isNumeralChar c = true := by
  cases cs with
  | nil => simp
  | cons c rest =>
    rw [Decimal.readExponent?] at h
    split at h
    · next hmark =>
      simp only [Option.ite_none_right_eq_some] at h
      refine List.forall_mem_cons.2 ⟨?_, isNumeralChar_of_cutSign (isNumeralChar_of_isDigits h.1)⟩
      rcases hmark with rfl | rfl <;> decide
    · simp at h

theorem isNumeralChar_of_readUnsigned {cs : List Char} {decimal : Decimal}
    (h : Decimal.readUnsigned? cs = some decimal) : ∀ c ∈ cs, isNumeralChar c = true := by
  have hdigits : ∀ ds : List Char, ∀ c ∈ ds.takeWhile isAsciiDigit, isNumeralChar c = true := by
    intro ds c hc
    rw [isNumeralChar, List.mem_takeWhile_imp hc, Bool.true_or]
  rw [← List.takeWhile_append_dropWhile (p := isAsciiDigit) (l := cs), List.forall_mem_append]
  refine ⟨hdigits cs, ?_⟩
  simp only [Decimal.readUnsigned?, Decimal.ofParts?] at h
  split at h
  · next rest hrest =>
    rw [hrest, List.forall_mem_cons]
    refine ⟨by decide, ?_⟩
    rw [← List.takeWhile_append_dropWhile (p := isAsciiDigit) (l := rest), List.forall_mem_append]
    split at h
    · simp at h
    · obtain ⟨exponent, hexponent, -⟩ := Option.map_eq_some_iff.1 h
      exact ⟨hdigits rest, isNumeralChar_of_readExponent hexponent⟩
  · split at h
    · simp at h
    · obtain ⟨exponent, hexponent, -⟩ := Option.map_eq_some_iff.1 h
      exact isNumeralChar_of_readExponent hexponent

theorem isNumeralChar_of_dropLineFeed {cs : List Char}
    (h : ∀ c ∈ ArgType.dropLineFeed cs, isNumeralChar c = true) :
    ∀ c ∈ cs, isNumeralChar c = true := by
  obtain ⟨feed, hcs, hfeed⟩ := exists_dropLineFeed cs
  rw [hcs]
  refine List.forall_mem_append.2 ⟨h, ?_⟩
  rcases hfeed with rfl | rfl <;> exact List.all_eq_true.1 (by decide)

/-- The cells of each type: one of two words for a boolean, a numeral for a number. -/
theorem cell_of_ofValue {cell : String} {type : ArgType} (h : ArgType.ofValue cell = .ok type) :
    (type = .boolean → cell = "true" ∨ cell = "false") ∧
      (type = .integer ∨ type = .float → ∀ c ∈ cell.toList, isNumeralChar c = true) := by
  have hnumeral : ∀ numeral, IntegerNumeral.read? (ArgType.dropLineFeed cell.toList) =
      some numeral → ∀ c ∈ cell.toList, isNumeralChar c = true := fun numeral hread =>
    isNumeralChar_of_dropLineFeed
      (isNumeralChar_of_cutSign (isNumeralChar_of_isDigits (read?_eq_some_iff.1 hread).1))
  -- an integer that is out of range is typed like a cell that is no integer
  have hother : ArgType.ofNonInteger cell = type → (type = .boolean → cell = "true" ∨
      cell = "false") ∧ (type = .integer ∨ type = .float → ∀ c ∈ cell.toList, isNumeralChar c) := by
    rintro rfl
    unfold ArgType.ofNonInteger
    split
    · next decimal hread =>
      have hchars := isNumeralChar_of_dropLineFeed
        (isNumeralChar_of_cutSign (isNumeralChar_of_readUnsigned hread))
      refine ⟨fun hboolean => ?_, fun _ => hchars⟩
      split at hboolean <;> simp at hboolean
    · split
      · next hword => exact ⟨fun _ => hword, by simp⟩
      · simp
  unfold ArgType.ofValue at h
  split at h
  · next numeral hread =>
    split_ifs at h
    · obtain rfl := Except.ok.inj h
      exact ⟨by simp, fun _ => hnumeral numeral hread⟩
    · exact hother (Except.ok.inj h)
  · exact hother (Except.ok.inj h)

end FeatureFile
