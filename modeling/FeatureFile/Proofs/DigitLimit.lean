import FeatureFile.Conversion
import FeatureFile.Proofs.Encoding
import FeatureFile.Proofs.Sources
import FeatureFile.Proofs.Spelling
import Mathlib.Data.List.Basic

set_option autoImplicit false

/-! # Features that cannot be exported

The types of an outline's arguments are inferred when it is exported, and inference reads every cell
that has a label in the first table of its outline. It gives up at an integer of more digits than
are converted. Nothing else can go wrong in an export, whatever its format: `isOk_render_iff`.

For the conversion of a file this means that it comes to a result unless the file holds such a cell
(`Conversion.returned_iff_not_overlong`). -/

namespace FeatureFile

open Text

/-! ## Results that may be faults -/

section Results

variable {ε α β : Type}

@[simp] theorem isOk_ok (a : α) : (Except.ok a : Except ε α).isOk = true := rfl

@[simp] theorem isOk_error (e : ε) : (Except.error e : Except ε α).isOk = false := rfl

@[simp] theorem isOk_map (x : Except ε α) (f : α → β) : (x.map f).isOk = x.isOk := by
  cases x <;> rfl

theorem isOk_iff_exists {x : Except ε α} : x.isOk = true ↔ ∃ a, x = .ok a := by
  cases x <;> simp

theorem exists_eq_error_iff {x : Except ε α} : (∃ e, x = .error e) ↔ ∀ a, x ≠ .ok a := by
  cases x <;> simp

theorem isOk_mapM_iff {f : α → Except ε β} {xs : List α} :
    (xs.mapM f).isOk = true ↔ ∀ x ∈ xs, (f x).isOk = true := by
  induction xs with
  | nil => simp [pure, Except.pure]
  | cons x xs ih =>
    rw [List.mapM_cons, List.forall_mem_cons, ← ih]
    cases f x with
    | error e => simp [bind, Except.bind]
    | ok a => cases xs.mapM f <;> simp [bind, Except.bind, pure, Except.pure]

end Results

/-! ## Cells over the limit -/

/-- A cell is written as an integer of too many digits: an optional sign, the digits, and at most
    one line feed. -/
def IsOverlong (cell : String) : Prop :=
  ∃ sign digits feed, cell.toList = sign ++ digits ++ feed ∧
    (sign = [] ∨ sign = ['+'] ∨ sign = ['-']) ∧ (∀ c ∈ digits, isAsciiDigit c = true) ∧
    4300 < digits.length ∧ (feed = [] ∨ feed = ['\n'])

theorem exists_dropLineFeed (cs : List Char) :
    ∃ feed, cs = ArgType.dropLineFeed cs ++ feed ∧ (feed = [] ∨ feed = ['\n']) := by
  unfold ArgType.dropLineFeed
  split
  · next rest hrest =>
    refine ⟨['\n'], ?_, .inr rfl⟩
    rw [← List.reverse_cons, ← hrest, List.reverse_reverse]
  · exact ⟨[], by simp, .inl rfl⟩

theorem dropLineFeed_append_newline (cs : List Char) :
    ArgType.dropLineFeed (cs ++ ['\n']) = cs := by
  simp [ArgType.dropLineFeed]

theorem dropLineFeed_eq_self {cs : List Char} (h : cs.getLast? ≠ some '\n') :
    ArgType.dropLineFeed cs = cs := by
  unfold ArgType.dropLineFeed
  split
  · next rest hrest =>
    rw [← List.head?_reverse, hrest] at h
    exact absurd rfl h
  · rfl

theorem exists_cutSign (cs : List Char) :
    ∃ sign, cs = sign ++ (Numeral.cutSign cs).2 ∧ (sign = [] ∨ sign = ['+'] ∨ sign = ['-']) := by
  unfold Numeral.cutSign
  split
  · exact ⟨['-'], rfl, .inr (.inr rfl)⟩
  · exact ⟨['+'], rfl, .inr (.inl rfl)⟩
  · exact ⟨[], rfl, .inl rfl⟩

/-- Digits behind a sign are what is left when the sign is cut off. -/
theorem cutSign_append {sign digits : List Char}
    (hsign : sign = [] ∨ sign = ['+'] ∨ sign = ['-'])
    (hdigits : ∀ c ∈ digits, isAsciiDigit c = true) :
    (Numeral.cutSign (sign ++ digits)).2 = digits := by
  rcases hsign with rfl | rfl | rfl
  · -- a digit is not taken for a sign
    cases digits with
    | nil => rfl
    | cons c cs =>
      have hc : isAsciiDigit c = true := hdigits c (by simp)
      rw [List.nil_append]
      unfold Numeral.cutSign
      split
      · next heq =>
        cases heq
        exact absurd hc (by decide)
      · next heq =>
        cases heq
        exact absurd hc (by decide)
      · rfl
  · rfl
  · rfl

theorem read?_eq_some_iff {cs : List Char} {numeral : IntegerNumeral} :
    IntegerNumeral.read? cs = some numeral ↔
      Numeral.isDigits (Numeral.cutSign cs).2 = true ∧
        numeral = ⟨(Numeral.cutSign cs).1, (Numeral.cutSign cs).2⟩ := by
  simp only [IntegerNumeral.read?, Option.ite_none_right_eq_some, Option.some.injEq,
    eq_comm (a := numeral)]

/-- A cell over the limit is what the digits are counted of. -/
theorem isOverlong_iff {cell : String} :
    IsOverlong cell ↔ ∃ numeral, IntegerNumeral.read? (ArgType.dropLineFeed cell.toList) =
      some numeral ∧ DigitLimit.most < numeral.digits.length := by
  constructor
  · rintro ⟨sign, digits, feed, hcell, hsign, hdigits, hlength, hfeed⟩
    have hne : digits ≠ [] := by
      rintro rfl
      simp at hlength
    have hbody : ArgType.dropLineFeed cell.toList = sign ++ digits := by
      rw [hcell]
      rcases hfeed with rfl | rfl
      · rw [List.append_nil]
        refine dropLineFeed_eq_self fun hlast => ?_
        rw [List.getLast?_append_of_ne_nil _ hne] at hlast
        exact absurd (hdigits _ (List.mem_of_getLast? hlast)) (by decide)
      · exact dropLineFeed_append_newline _
    refine ⟨⟨(Numeral.cutSign (sign ++ digits)).1, digits⟩, ?_, hlength⟩
    rw [hbody, read?_eq_some_iff, cutSign_append hsign hdigits]
    exact ⟨by simpa [Numeral.isDigits, hne] using hdigits, rfl⟩
  · rintro ⟨numeral, hread, hlength⟩
    obtain ⟨hdigits, rfl⟩ := read?_eq_some_iff.1 hread
    obtain ⟨feed, hcell, hfeed⟩ := exists_dropLineFeed cell.toList
    obtain ⟨sign, hbody, hsign⟩ := exists_cutSign (ArgType.dropLineFeed cell.toList)
    refine ⟨sign, _, feed, ?_, hsign, ?_, hlength, hfeed⟩
    · rw [← hbody]
      exact hcell
    · rw [Numeral.isDigits, Bool.and_eq_true, List.all_eq_true] at hdigits
      exact hdigits.2

/-- The type of a cell is inferred unless the cell is over the limit. -/
theorem isOk_ofValue_iff {cell : String} :
    (ArgType.ofValue cell).isOk = true ↔ ¬IsOverlong cell := by
  rw [isOverlong_iff, ArgType.ofValue]
  cases hread : IntegerNumeral.read? (ArgType.dropLineFeed cell.toList) with
  | none => simp
  | some numeral =>
    by_cases hlength : DigitLimit.most < numeral.digits.length
    · simp [hlength]
    · by_cases hword : numeral.fitsWord <;> simp [hlength, hword]

/-! ## Outlines and features over the limit -/

/-- One of the cells that have a label in the first table of the outline is over the limit. -/
def Outline.Overlong (outline : Outline) : Prop :=
  ∃ labels, outline.labels? = some labels ∧
    ∃ row ∈ outline.rows, ∃ cell ∈ row.cells.take labels.width, IsOverlong cell

/-- One of the outlines of the feature has a cell over the limit. -/
def Feature.Overlong (feature : Feature) : Prop :=
  ∃ outline, .outline outline ∈ feature.items ∧ outline.Overlong

/-- The types of the cells of a row that have a label. -/
theorem isOk_ofCell_iff {row : Row} {width : Nat} :
    (∀ column < width, (ArgType.ofCell column row).isOk = true) ↔
      ∀ cell ∈ row.cells.take width, ¬IsOverlong cell := by
  constructor
  · intro h cell hcell
    obtain ⟨column, hcolumn, rfl⟩ := List.mem_take_iff_getElem.1 hcell
    have hlt : column < width ∧ column < row.cells.length := by omega
    have hok := h column hlt.1
    rw [ArgType.ofCell, List.getElem?_eq_getElem hlt.2] at hok
    exact isOk_ofValue_iff.1 hok
  · intro h column hcolumn
    rw [ArgType.ofCell]
    cases hcell : row.cells[column]? with
    | none => rfl
    | some cell =>
      obtain ⟨hlt, rfl⟩ := List.getElem?_eq_some_iff.1 hcell
      have hmem : row.cells[column] ∈ row.cells.take width :=
        List.mem_take_iff_getElem.2 ⟨column, by omega, rfl⟩
      exact isOk_ofValue_iff.2 (h _ hmem)

/-- The types of some tables are inferred unless a cell that has a label is over the limit. -/
theorem isOk_infer_iff {first : ExampleBlock} {rest : List ExampleBlock} :
    (ArgType.infer (first :: rest)).isOk = true ↔
      ∀ row ∈ (first :: rest).flatMap (·.rows), ∀ cell ∈ row.cells.take first.labels.width,
        ¬IsOverlong cell := by
  have hcolumns : (ArgType.infer (first :: rest)).isOk = true ↔
      ∀ row ∈ (first :: rest).flatMap (·.rows), ∀ column < first.labels.width,
        (ArgType.ofCell column row).isOk = true := by
    simp only [ArgType.infer, isOk_mapM_iff, ArgType.ofColumn, isOk_map, List.mem_range]
    exact ⟨fun h row hrow column hcolumn => h column hcolumn row hrow,
      fun h column hcolumn row hrow => h row hrow column hcolumn⟩
  rw [hcolumns]
  simp only [isOk_ofCell_iff]

theorem isOk_argTypes_iff {outline : Outline} :
    outline.argTypes.isOk = true ↔ ¬outline.Overlong := by
  rw [Outline.argTypes, Outline.Overlong, Outline.labels?, Outline.rows]
  cases outline.blocks with
  | nil => simp [ArgType.infer]
  | cons block blocks => simp [isOk_infer_iff]

/-- An item has an exported form unless it is an outline over the limit. -/
theorem isOk_item_iff {item : Item} :
    (Fixture.item item).isOk = true ↔ ∀ outline, item = .outline outline → ¬outline.Overlong := by
  cases item with
  | scenario scenario => simp [Fixture.item]
  | outline outline => simp [Fixture.item, isOk_argTypes_iff]

theorem isOk_itemJson_iff {item : Item} :
    item.toJson.isOk = true ↔ ∀ outline, item = .outline outline → ¬outline.Overlong := by
  cases item with
  | scenario scenario => simp [Item.toJson]
  | outline outline => simp [Item.toJson, Outline.toJson, isOk_argTypes_iff]

/-- A feature is exported, in any format, unless it has a cell over the limit. -/
theorem isOk_render_iff (format : Format) {feature : Feature} :
    (format.render feature).isOk = true ↔ ¬feature.Overlong := by
  have hitems : (∀ item ∈ feature.items, ∀ outline, item = .outline outline → ¬outline.Overlong) ↔
      ¬feature.Overlong := by
    constructor
    · rintro h ⟨outline, hmem, hoverlong⟩
      exact h _ hmem outline rfl hoverlong
    · rintro h item hmem outline rfl hoverlong
      exact h ⟨outline, hmem, hoverlong⟩
  cases format with
  | nunit =>
    simp only [Format.render, Fixture.feature, isOk_map, isOk_mapM_iff, isOk_item_iff, hitems]
  | json =>
    simp only [Format.render, Feature.toJson, isOk_map, isOk_mapM_iff, isOk_itemJson_iff, hitems]

theorem not_overlong_of_render {format : Format} {feature : Feature} {text : String}
    (h : format.render feature = .ok text) : ¬feature.Overlong := by
  rw [← isOk_render_iff format, h]
  rfl

theorem overlong_of_render {format : Format} {feature : Feature} {limit : DigitLimit}
    (h : format.render feature = .error limit) : feature.Overlong := by
  by_contra hfits
  rw [← isOk_render_iff format, h] at hfits
  exact Bool.false_ne_true hfits

/-! ## Conversions -/

theorem readFile_eq_ok_iff {tree : Tree} {path : Path} {bytes : List UInt8} :
    tree.readFile path = .ok bytes ↔
      ∃ location, tree.locate path = .ok location ∧ tree.get? location = some (.file bytes) := by
  unfold Tree.readFile
  cases tree.locate path with
  | error fault => simp
  | ok location =>
    cases hentry : tree.get? location with
    | none => simp [hentry]
    | some entry => cases entry <;> simp [hentry]

/-- What stands behind a feature that was read: the file, its text, and that it can be parsed. -/
theorem readFeature_eq_ok_iff {tree : Tree} {path : Path} {feature : Feature} :
    Conversion.readFeature tree path = .ok feature ↔
      ∃ location bytes source, tree.locate path = .ok location ∧
        tree.get? location = some (.file bytes) ∧ Utf8.decode bytes = .ok source ∧
        parse (unifyBreaks source) = .ok feature := by
  constructor
  · intro h
    obtain ⟨bytes, hbytes, h⟩ := except_bind_eq_ok_iff.1 h
    obtain ⟨source, hsource, h⟩ := except_bind_eq_ok_iff.1 h
    rw [except_mapError_eq_ok_iff] at hbytes hsource h
    obtain ⟨location, hlocation, hfile⟩ := readFile_eq_ok_iff.1 hbytes
    exact ⟨location, bytes, source, hlocation, hfile, hsource, h⟩
  · rintro ⟨location, bytes, source, hlocation, hfile, hsource, h⟩
    have hbytes := readFile_eq_ok_iff.2 ⟨location, hlocation, hfile⟩
    refine except_bind_eq_ok_iff.2 ⟨bytes, except_mapError_eq_ok_iff.2 hbytes, ?_⟩
    refine except_bind_eq_ok_iff.2 ⟨source, except_mapError_eq_ok_iff.2 hsource, ?_⟩
    exact except_mapError_eq_ok_iff.2 h

namespace Conversion

/-- What can come of a conversion, and the tree after it. -/
inductive Runs (tree : Tree) (path directory : Path) (format : Format) :
    Conversion → Tree → Prop where
  | unread {error : ConversionError} (read : readFeature tree path = .error error) :
      Runs tree path directory format (.failed none error) tree
  | overlong {feature : Feature} {limit : DigitLimit} (read : readFeature tree path = .ok feature)
      (render : format.render feature = .error limit) :
      Runs tree path directory format (.overlong feature limit) tree
  | unwritten {feature : Feature} {text : String} {error : FileError}
      (read : readFeature tree path = .ok feature) (render : format.render feature = .ok text)
      (write : tree.writeFile (outputPath path directory format) (Utf8.encode text) =
        .error error) :
      Runs tree path directory format (.failed (some feature) (.file error)) tree
  | converted {feature : Feature} {text : String} {written : Tree}
      (read : readFeature tree path = .ok feature) (render : format.render feature = .ok text)
      (write : tree.writeFile (outputPath path directory format) (Utf8.encode text) =
        .ok written) :
      Runs tree path directory format
        (.converted feature (outputPath path directory format)) written

theorem runs_run (tree : Tree) (path directory : Path) (format : Format) :
    Runs tree path directory format (run tree path directory format).1
      (run tree path directory format).2 := by
  unfold run
  cases hread : readFeature tree path with
  | error error => exact .unread hread
  | ok feature =>
    cases hrender : format.render feature with
    | error limit => simpa only [hrender] using Runs.overlong hread hrender
    | ok text =>
      cases hwrite : tree.writeFile (outputPath path directory format) (Utf8.encode text) with
      | error error => simpa only [hrender, hwrite] using Runs.unwritten hread hrender hwrite
      | ok written => simpa only [hrender, hwrite] using Runs.converted hread hrender hwrite

/-- Whether a conversion came to a result, or ended the run. -/
def isReturned : Conversion → Bool
  | converted _ _ | failed _ _ => true
  | overlong _ _ => false

theorem isReturned_run_iff {tree : Tree} {path directory : Path} {format : Format} :
    (run tree path directory format).1.isReturned = true ↔
      ∀ feature, readFeature tree path = .ok feature → ¬feature.Overlong := by
  have hruns := runs_run tree path directory format
  generalize run tree path directory format = result at hruns
  obtain ⟨result, after⟩ := result
  cases hruns with
  | unread read => simp [isReturned, read]
  | overlong read render => simp [isReturned, read, overlong_of_render render]
  | unwritten read render write => simp [isReturned, read, not_overlong_of_render render]
  | converted read render write => simp [isReturned, read, not_overlong_of_render render]

/-- A conversion comes to a result unless the file holds a cell over the limit. A file that cannot
    be read and one that cannot be written come back as failures that name the error. -/
theorem returned_iff_not_overlong (tree : Tree) (path directory : Path) (format : Format) :
    ((run tree path directory format).1.isReturned = true ↔
        ∀ feature, readFeature tree path = .ok feature → ¬feature.Overlong) ∧
      (∀ error, readFeature tree path = .error error →
        (run tree path directory format).1 = .failed none error) ∧
      ∀ feature text error, readFeature tree path = .ok feature →
        format.render feature = .ok text →
        tree.writeFile (outputPath path directory format) (Utf8.encode text) = .error error →
        (run tree path directory format).1 = .failed (some feature) (.file error) := by
  refine ⟨isReturned_run_iff, ?_, ?_⟩
  · intro error read
    simp [run, read]
  · intro feature text error read render write
    simp [run, read, render, write]

end Conversion

/-! ## A file over the limit -/

theorem segments_append_bar {cell rest : List Char} (hbar : '|' ∉ cell) (hslash : '\\' ∉ cell) :
    Row.segments false (cell ++ '|' :: rest) = cell :: Row.segments false rest := by
  induction cell with
  | nil => simp [Row.segments]
  | cons c cell ih =>
    simp only [List.mem_cons, not_or] at hbar hslash
    rw [List.cons_append, Row.segments, ih hbar.2 hslash.2]
    simp [Ne.symm hbar.1, Ne.symm hslash.1, consFirst]

theorem stripChars_eq_self {cs : List Char} (h : ∀ c ∈ cs, isBlank c = false) :
    stripChars cs = cs := by
  have hfront : cs.dropWhile isBlank = cs := by
    cases cs with
    | nil => rfl
    | cons c rest => exact List.dropWhile_cons_of_neg (by simp [h c (by simp)])
  rw [stripChars, hfront]
  exact dropEndBlanks_eq_self fun c hc => h c (List.mem_of_getLast? hc)

/-- A cell of `n` digits. -/
def sevens (n : Nat) : String := String.ofList (List.replicate n '7')

/-- The row of a table that holds this cell. -/
def sevensLine (n : Nat) : String := "|" ++ sevens n ++ "|"

/-- What stands above the row in a file. -/
def sevensHead : String := "Feature: f\nScenario Outline: o\nExamples:\n|size|"

/-- A file with an outline that has this row in its table. -/
def sevensSource (n : Nat) : String := sevensHead ++ ("\n" ++ sevensLine n)

/-- The feature of the file. -/
def sevensFeature (n : Nat) : Feature :=
  ⟨"f", .empty, [], none, [.outline ⟨"o", [],
    [⟨⟨["size"], by decide⟩, [⟨[sevens n], by simp⟩], .empty⟩], .empty⟩]⟩

/-- The file, and a directory for what is made of it. -/
def sevensTree (n : Nat) : Tree :=
  ⟨[], [(["long.feature"], .file (Utf8.encode (sevensSource n))), (["out"], .directory)], true⟩

section Sevens

variable {n : Nat}

theorem toList_sevensLine : (sevensLine n).toList = '|' :: (List.replicate n '7' ++ ['|']) := by
  simp [sevensLine, sevens]

/-- A row of digits has no other characters than these. -/
theorem forall_mem_sevensLine {p : Char → Prop} (hbar : p '|') (hdigit : p '7') :
    ∀ c ∈ (sevensLine n).toList, p c := by
  intro c hc
  rw [toList_sevensLine, List.mem_cons, List.mem_append, List.mem_singleton] at hc
  rcases hc with rfl | hc | rfl
  · exact hbar
  · rw [List.eq_of_mem_replicate hc]
    exact hdigit
  · exact hbar

theorem notMem_sevensLine {c : Char} (hbar : '|' ≠ c) (hdigit : '7' ≠ c) :
    c ∉ (sevensLine n).toList := fun hc =>
  forall_mem_sevensLine (p := (· ≠ c)) hbar hdigit c hc rfl

theorem strip_sevensLine : strip (sevensLine n) = sevensLine n := by
  rw [strip, stripChars_eq_self (forall_mem_sevensLine (by decide) (by decide)),
    String.ofList_toList]

theorem shape_sevensLine : Shape.ofText (sevensLine n) = .row := by
  have hcut : ∀ sep, sep ≠ '|' → sep ≠ '7' → cutTrimmed? sep (sevensLine n) = none := by
    intro sep hbar hdigit
    rw [cutTrimmed?, cutAt_eq_none_iff.2 (notMem_sevensLine hbar.symm hdigit.symm)]
    rfl
  simp [Shape.ofText, Shape.header?, Shape.step?, hcut, Shape.ofFirst, toList_sevensLine]

theorem decode_sevensLine : Row.decode (sevensLine n) = .ok ⟨[sevens n], by simp⟩ := by
  have hcell : ∀ c ∈ List.replicate n '7', c = '7' := fun c => List.eq_of_mem_replicate
  have hbar : '|' ∉ List.replicate n '7' := fun hc => absurd (hcell _ hc) (by decide)
  have hslash : '\\' ∉ List.replicate n '7' := fun hc => absurd (hcell _ hc) (by decide)
  have hblank : ∀ c ∈ List.replicate n '7', isBlank c = false := by
    intro c hc
    rw [hcell c hc]
    decide
  have hstrip : stripChars (sevensLine n).toList = (sevensLine n).toList :=
    stripChars_eq_self (forall_mem_sevensLine (by decide) (by decide))
  have hsegments : Row.segments false (sevensLine n).toList = [[], List.replicate n '7', []] := by
    have hfirst : ∀ rest, Row.segments false ('|' :: rest) = [] :: Row.segments false rest :=
      fun rest => segments_append_bar List.not_mem_nil List.not_mem_nil
    rw [toList_sevensLine, hfirst, segments_append_bar hbar hslash]
    rfl
  have hcells : (Row.cellChars (stripChars (sevensLine n).toList)).map String.ofList =
      [sevens n] := by
    rw [hstrip, Row.cellChars, hsegments]
    simp [stripChars_eq_self hblank, unescape_eq_self hslash, sevens]
  rw [Row.decode, hcells]
  rfl

theorem parse_sevensSource : parse (sevensSource n) = .ok (sevensFeature n) := by
  have hbreak : (sevensLine n).toList.any isLineBreak = false :=
    List.any_eq_false.2 (forall_mem_sevensLine (by decide) (by decide))
  have hkept : isKept (sevensLine n) = true := by
    rw [isKept, toList_sevensLine]
    rfl
  obtain ⟨number, hlines⟩ := exists_keptLines_append sevensHead hbreak strip_sevensLine hkept
  -- the table is open when the row comes
  have hhead : Draft.start.run (Line.ofSource sevensHead) =
      .ok (.body ⟨"f", .empty, [], none, []⟩
        (.rows ⟨"o", [], [], .empty⟩ ⟨⟨["size"], by decide⟩, [], .empty⟩)) := by
    decide +kernel
  have hrow : Row.decode (Line.ofText number (sevensLine n)).text = .ok ⟨[sevens n], by simp⟩ := by
    rw [Line.ofText, strip_sevensLine]
    exact decode_sevensLine
  have hshape : (Line.ofText number (sevensLine n)).shape = .row := by
    rw [Line.ofText, strip_sevensLine]
    exact shape_sevensLine
  have hsource : Line.ofSource (sevensSource n) =
      Line.ofSource sevensHead ++ [Line.ofText number (sevensLine n)] := by
    rw [Line.ofSource, sevensSource, hlines, List.map_append]
    rfl
  have hlast : ∀ feature outline block, block.labels.width = 1 →
      (Draft.body feature (.rows outline block)).run [Line.ofText number (sevensLine n)] =
        .ok (.body feature (.rows outline
          { block with rows := block.rows ++ [⟨[sevens n], by simp⟩] })) := by
    intro feature outline block hwidth
    rw [Draft.run_singleton]
    exact Draft.read_eq_ok_iff.2 (.row hshape hrow hwidth.symm)
  rw [parse, Feature.ofLines_eq_ok_iff, hsource]
  exact ⟨_, Draft.run_append_eq_ok_iff.2 ⟨_, hhead, hlast _ _ _ rfl⟩, rfl⟩

theorem overlong_sevensFeature (h : 4300 < n) : (sevensFeature n).Overlong := by
  refine ⟨_, List.mem_singleton.2 rfl, _, rfl, _, List.mem_singleton.2 rfl, _,
    List.mem_singleton.2 rfl, [], List.replicate n '7', [], ?_, .inl rfl, ?_, ?_, .inl rfl⟩
  · simp [sevens]
  · intro c hc
    rw [List.eq_of_mem_replicate hc]
    decide
  · rw [List.length_replicate]
    exact h

theorem readFeature_sevensTree :
    Conversion.readFeature (sevensTree n) ⟨.relative, ["long.feature"]⟩ =
      .ok (sevensFeature n) := by
  have hreturn : '\r' ∉ (sevensSource n).toList := by
    simp only [sevensSource, String.toList_append, List.mem_append, not_or]
    exact ⟨by decide, by decide, notMem_sevensLine (by decide) (by decide)⟩
  have hlocation : (sevensTree n).locate ⟨.relative, ["long.feature"]⟩ = .ok ["long.feature"] := by
    simp [sevensTree, Tree.locate, Tree.start, Tree.walk, Tree.get?, Tree.findEntry]
  refine readFeature_eq_ok_iff.2 ⟨_, _, _, hlocation, rfl, Utf8.decode_encode _, ?_⟩
  rw [unifyBreaks_eq_self hreturn, parse_sevensSource]

end Sevens

/-- The conversion of a file with a cell of 4301 digits does not come to a result. -/
theorem not_returned_sevensTree :
    (Conversion.run (sevensTree 4301) ⟨.relative, ["long.feature"]⟩ ⟨.relative, ["out"]⟩
      .json).1.isReturned = false := by
  rw [← Bool.not_eq_true, Conversion.isReturned_run_iff]
  intro h
  exact h _ readFeature_sevensTree (overlong_sevensFeature (by decide))

end FeatureFile
