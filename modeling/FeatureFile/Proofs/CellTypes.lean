import FeatureFile.Export.Literal
import FeatureFile.Proofs.Doubles

set_option autoImplicit false

/-! # The types of cells

The type of a cell depends on the number that it writes, and on nothing else if it writes one:
`ArgType.typedExactly` says for every cell which type it has, by the grammar of numerals and the
exact values of numbers.

Numbers are exported as they stand in their cell. A cell of the type of floats is a constant that a
C# compiler takes for a double, with one exception, an integer that is larger than any integer
literal may be (`Literal.isDoubleConstant_iff`). -/

namespace FeatureFile

open Text Numeral

/-! ## Digits behind a sign -/

/-- Nothing, or one sign. -/
def IsSign (cs : List Char) : Prop := cs = [] ∨ cs = ['+'] ∨ cs = ['-']

theorem cutSign_append_of_unsigned {sign body : List Char} (hsign : IsSign sign)
    (hbody : Unsigned body) : (cutSign (sign ++ body)).2 = body := by
  rcases hsign with rfl | rfl | rfl
  · rw [List.nil_append, cutSign_of_unsigned hbody]
  · rfl
  · rfl

/-- A text is cut in one way into a sign and what follows it. -/
theorem exists_sign_append_iff {cs : List Char} {p : List Char → Prop}
    (hp : ∀ body, p body → Unsigned body) :
    (∃ sign body, cs = sign ++ body ∧ IsSign sign ∧ p body) ↔ p (cutSign cs).2 := by
  constructor
  · rintro ⟨sign, body, rfl, hsign, hbody⟩
    rwa [cutSign_append_of_unsigned hsign (hp body hbody)]
  · intro hbody
    obtain ⟨sign, hcs, hsign⟩ := exists_cutSign cs
    exact ⟨sign, _, hcs, hsign, hbody⟩

namespace ArgType

/-! ## What a cell may write -/

/-- A cell is written as an integer of the given number of digits, which are too many. -/
def IsLong (cell : String) (count : ℕ) : Prop :=
  ∃ sign digits, cell.toList = sign ++ digits ∧ IsSign sign ∧ AreDigits digits ∧
    digits.length = count ∧ 4300 < count

/-- A cell writes an integer that is a signed word of 64 bits. -/
def IsWord (cell : String) : Prop :=
  ∃ n, WritesInteger cell.toList n ∧ -2 ^ 63 ≤ n ∧ n ≤ 2 ^ 63 - 1

/-- A cell writes a decimal that is in the range of doubles. -/
def IsInRange (cell : String) : Prop :=
  ∃ q, WritesDecimal cell.toList q ∧ |q| < 2 ^ 1024 - 2 ^ 970

section Cells

variable {cell : String}

/-- The words for truth values are no numerals. -/
theorem read?_of_boolean (h : cell = "true" ∨ cell = "false") :
    IntegerNumeral.read? (dropLineFeed cell.toList) = none ∧
      Decimal.read? (dropLineFeed cell.toList) = none := by
  rcases h with rfl | rfl <;> decide +kernel

theorem ofNonInteger_ne_integer : ofNonInteger cell ≠ .integer := by
  unfold ofNonInteger
  split <;> split_ifs <;> simp

theorem ofNonInteger_eq_boolean_iff :
    ofNonInteger cell = .boolean ↔ cell = "true" ∨ cell = "false" := by
  constructor
  · intro h
    unfold ofNonInteger at h
    split at h
    · split_ifs at h
    · split_ifs at h with hword
      exact hword
  · intro h
    simp only [ofNonInteger, (read?_of_boolean h).2, if_pos h]

variable (hcell : cell.toList.getLast? ≠ some '\n')
include hcell

theorem isLong_iff {count : ℕ} :
    IsLong cell count ↔ ∃ numeral, IntegerNumeral.read? (dropLineFeed cell.toList) = some numeral ∧
      numeral.digits.length = count ∧ DigitLimit.most < count := by
  have hcut : IsLong cell count ↔ AreDigits (cutSign cell.toList).2 ∧
      (cutSign cell.toList).2.length = count ∧ 4300 < count :=
    exists_sign_append_iff fun _ h => h.1.unsigned
  rw [hcut, dropLineFeed_eq_self hcell]
  constructor
  · rintro ⟨hdigits, hcount⟩
    exact ⟨_, read?_eq_some_iff.2 ⟨isDigits_iff.2 hdigits, rfl⟩, hcount⟩
  · rintro ⟨numeral, hread, hcount⟩
    obtain ⟨hdigits, rfl⟩ := read?_eq_some_iff.1 hread
    exact ⟨isDigits_iff.1 hdigits, hcount⟩

theorem isWord_iff :
    IsWord cell ↔ ∃ numeral, IntegerNumeral.read? (dropLineFeed cell.toList) = some numeral ∧
      numeral.fitsWord = true := by
  simp only [IsWord, exists_read?_iff, dropLineFeed_eq_self hcell, IntegerNumeral.fitsWord,
    Bool.and_eq_true, decide_eq_true_eq]
  constructor
  · rintro ⟨n, ⟨numeral, hread, rfl⟩, hlow, hhigh⟩
    exact ⟨numeral, hread, by omega, by omega⟩
  · rintro ⟨numeral, hread, hlow, hhigh⟩
    exact ⟨_, ⟨numeral, hread, rfl⟩, by omega, by omega⟩

theorem isInRange_iff :
    IsInRange cell ↔ ∃ decimal, Decimal.read? (dropLineFeed cell.toList) = some decimal ∧
      decimal.isFinite = true := by
  rw [dropLineFeed_eq_self hcell]
  constructor
  · rintro ⟨q, hwrites, hlt⟩
    obtain ⟨decimal, hread, hvalue⟩ := Decimal.exists_read?_iff.1 ⟨q, hwrites, rfl⟩
    exact ⟨decimal, hread, Decimal.isFinite_iff.2 (hvalue ▸ hlt)⟩
  · rintro ⟨decimal, hread, hfinite⟩
    obtain ⟨q, hwrites, habs⟩ := Decimal.exists_read?_iff.2 ⟨decimal, hread, rfl⟩
    exact ⟨q, hwrites, habs ▸ Decimal.isFinite_iff.1 hfinite⟩

theorem not_isWord_of_boolean (h : cell = "true" ∨ cell = "false") : ¬IsWord cell := by
  rw [isWord_iff hcell, (read?_of_boolean h).1]
  simp

theorem ofNonInteger_eq_float_iff : ofNonInteger cell = .float ↔ IsInRange cell := by
  rw [isInRange_iff hcell]
  unfold ofNonInteger
  split
  · next decimal hread => by_cases hfinite : decimal.isFinite = true <;> simp [hread, hfinite]
  · next hread => split_ifs <;> simp [hread]

/-! ## The type of a cell -/

/-- A cell is refused if it has too many digits. -/
theorem ofValue_eq_error_iff {limit : DigitLimit} :
    ofValue cell = .error limit ↔ IsLong cell limit.digits := by
  obtain ⟨count⟩ := limit
  rw [isLong_iff hcell]
  unfold ofValue
  split
  · next numeral hread =>
    rw [hread]
    simp only [Option.some.injEq, exists_eq_left']
    constructor
    · intro h
      split_ifs at h with hlong
      cases h
      exact ⟨rfl, hlong⟩
    · rintro ⟨rfl, hlong⟩
      rw [if_pos hlong]
  · next hread => simp [hread]

variable (hshort : ∀ count, ¬IsLong cell count)
include hshort

/-- Words are tested first. -/
theorem ofValue_of_isWord (hword : IsWord cell) : ofValue cell = .ok .integer := by
  obtain ⟨numeral, hread, hfits⟩ := (isWord_iff hcell).1 hword
  have hlength : ¬DigitLimit.most < numeral.digits.length := fun h =>
    hshort _ ((isLong_iff hcell).2 ⟨numeral, hread, rfl, h⟩)
  simp only [ofValue, hread, if_neg hlength, if_pos hfits]

/-- An integer that is no word is typed like any other cell. -/
theorem ofValue_of_not_isWord (hword : ¬IsWord cell) : ofValue cell = .ok (ofNonInteger cell) := by
  unfold ofValue
  split
  · next numeral hread =>
    have hlength : ¬DigitLimit.most < numeral.digits.length := fun h =>
      hshort _ ((isLong_iff hcell).2 ⟨numeral, hread, rfl, h⟩)
    have hfits : ¬numeral.fitsWord = true := fun h =>
      hword ((isWord_iff hcell).2 ⟨numeral, hread, h⟩)
    rw [if_neg hlength, if_neg hfits]
  · rfl

theorem ofValue_eq_integer_iff : ofValue cell = .ok .integer ↔ IsWord cell := by
  by_cases hword : IsWord cell
  · simp [ofValue_of_isWord hcell hshort hword, hword]
  · simp [ofValue_of_not_isWord hcell hshort hword, hword, ofNonInteger_ne_integer]

theorem ofValue_eq_float_iff : ofValue cell = .ok .float ↔ ¬IsWord cell ∧ IsInRange cell := by
  by_cases hword : IsWord cell
  · simp [ofValue_of_isWord hcell hshort hword, hword]
  · simp [ofValue_of_not_isWord hcell hshort hword, hword, ofNonInteger_eq_float_iff hcell]

theorem ofValue_eq_boolean_iff :
    ofValue cell = .ok .boolean ↔ cell = "true" ∨ cell = "false" := by
  by_cases hword : IsWord cell
  · have hother : ¬(cell = "true" ∨ cell = "false") := fun h => not_isWord_of_boolean hcell h hword
    simp [ofValue_of_isWord hcell hshort hword, hother]
  · simp [ofValue_of_not_isWord hcell hshort hword, ofNonInteger_eq_boolean_iff]

/-- A cell that is nothing else is a string. -/
theorem ofValue_eq_string_iff :
    ofValue cell = .ok .string ↔
      ¬IsWord cell ∧ ¬IsInRange cell ∧ ¬(cell = "true" ∨ cell = "false") := by
  by_cases hword : IsWord cell
  · simp [ofValue_of_isWord hcell hshort hword, hword]
  rw [ofValue_of_not_isWord hcell hshort hword, Except.ok.injEq, ← ofNonInteger_eq_float_iff hcell,
    ← ofNonInteger_eq_boolean_iff]
  cases htype : ofNonInteger cell with
  | integer => exact absurd htype ofNonInteger_ne_integer
  | boolean => simp
  | float => simp
  | string => simp [hword]

end Cells

/-- The type of a cell by what the cell writes. -/
structure TypedExactly (cell : String) : Prop where
  /-- An optional sign and more than 4300 digits have no type. -/
  refused : ∀ limit, ofValue cell = .error limit ↔ IsLong cell limit.digits
  integer : (∀ count, ¬IsLong cell count) → (ofValue cell = .ok .integer ↔ IsWord cell)
  float : (∀ count, ¬IsLong cell count) →
    (ofValue cell = .ok .float ↔ ¬IsWord cell ∧ IsInRange cell)
  boolean : (∀ count, ¬IsLong cell count) →
    (ofValue cell = .ok .boolean ↔ cell = "true" ∨ cell = "false")
  string : (∀ count, ¬IsLong cell count) →
    (ofValue cell = .ok .string ↔
      ¬IsWord cell ∧ ¬IsInRange cell ∧ ¬(cell = "true" ∨ cell = "false"))
  /-- The decimals in range are those that do not become infinite when they are rounded. -/
  rounding : ∀ q, WritesDecimal cell.toList q →
    (|q| < 2 ^ 1024 - 2 ^ 970 ↔ Double.IsFinite |q|)

/-- Every cell that does not end with a line feed has the type of what it writes. -/
theorem typedExactly {cell : String} (hcell : cell.toList.getLast? ≠ some '\n') :
    TypedExactly cell where
  refused := fun _ => ofValue_eq_error_iff hcell
  integer := ofValue_eq_integer_iff hcell
  float := ofValue_eq_float_iff hcell
  boolean := ofValue_eq_boolean_iff hcell
  string := ofValue_eq_string_iff hcell
  rounding := fun q _ => (Double.isFinite_iff (abs_nonneg q)).symm

/-- An integer just below the signed words, with zeros in front. -/
def belowWords : String := "-009223372036854775809"

theorem typedExactly_belowWords :
    belowWords.toList.getLast? ≠ some '\n' ∧ TypedExactly belowWords := by
  have hcell : belowWords.toList.getLast? ≠ some '\n' := by decide
  exact ⟨hcell, typedExactly hcell⟩

end ArgType

/-! ## Floats as constants -/

namespace Literal

/-- A real literal of C#: digits with a fraction, or with an exponent, or with both. -/
inductive IsReal : List Char → Prop where
  | point {digits fraction exponent : List Char} {n : ℤ}
      (whole : ∀ c ∈ digits, isAsciiDigit c = true) (part : AreDigits fraction)
      (writes : WritesExponent exponent n) : IsReal (digits ++ '.' :: fraction ++ exponent)
  | exponent {digits exponent : List Char} {n : ℤ} (whole : AreDigits digits)
      (writes : WritesExponent exponent n) (there : exponent ≠ []) : IsReal (digits ++ exponent)

/-- An integer literal of C#, which may be no larger than an unsigned word of 64 bits. -/
def IsInteger (cs : List Char) : Prop := AreDigits cs ∧ number cs ≤ 2 ^ 64 - 1

/-- A text is a constant that can be used as a double: an optional sign and a literal. -/
def IsDoubleConstant (text : String) : Prop :=
  ∃ sign literal, text.toList = sign ++ literal ∧ IsSign sign ∧ (IsReal literal ∨ IsInteger literal)

/-- An integer that is larger than any integer literal. -/
def IsTooLarge (text : String) : Prop :=
  ∃ sign digits, text.toList = sign ++ digits ∧ IsSign sign ∧ AreDigits digits ∧
    2 ^ 64 ≤ number digits

section Constants

variable {cs : List Char} {text : String}

theorem IsReal.unsigned (h : IsReal cs) : Unsigned cs := by
  cases h with
  | @point digits fraction exponent n whole part writes =>
    cases digits with
    | nil => exact ⟨by simp, by simp⟩
    | cons c rest => exact unsigned_of_isAsciiDigit (whole c List.mem_cons_self)
  | exponent whole writes there => exact whole.unsigned_append _

/-- A real literal has a character that is no digit. -/
theorem IsReal.not_areDigits (h : IsReal cs) : ¬AreDigits cs := by
  rintro ⟨-, hdigits⟩
  cases h with
  | point whole part writes => exact absurd (hdigits '.' (by simp)) (by decide)
  | exponent whole writes there =>
    cases writes with
    | none => exact there rfl
    | @some mark _ _ letter _ =>
      have hmark := hdigits mark (by simp)
      rcases letter with rfl | rfl <;> exact absurd hmark (by decide)

/-- A decimal is a real literal, or has digits only. -/
theorem isReal_or_areDigits {q : ℚ} (h : WritesMagnitude cs q) : IsReal cs ∨ AreDigits cs := by
  obtain ⟨fixed, exponent⟩ := h
  cases fixed with
  | whole whole =>
    cases exponent with
    | none =>
      rw [List.append_nil]
      exact .inr whole
    | some letter writes => exact .inl (.exponent whole (.some letter writes) (by simp))
  | point whole part => exact .inl (.point whole.2 part exponent)
  | @fraction fraction part => exact .inl (@IsReal.point [] _ _ _ (by simp) part exponent)

theorem isDoubleConstant_iff_cutSign :
    IsDoubleConstant text ↔ IsReal (cutSign text.toList).2 ∨ IsInteger (cutSign text.toList).2 := by
  refine exists_sign_append_iff ?_
  rintro body (h | h)
  · exact h.unsigned
  · exact h.1.unsigned

theorem isTooLarge_iff_cutSign :
    IsTooLarge text ↔
      AreDigits (cutSign text.toList).2 ∧ 2 ^ 64 ≤ number (cutSign text.toList).2 :=
  exists_sign_append_iff fun _ h => h.1.unsigned

instance (text : String) : Decidable (IsTooLarge text) :=
  decidable_of_iff _ isTooLarge_iff_cutSign.symm

/-- A decimal can be used as a double unless it is an integer that is too large. -/
theorem isDoubleConstant_of_writesDecimal {q : ℚ} (h : WritesDecimal text.toList q) :
    IsDoubleConstant text ↔ ¬IsTooLarge text := by
  rw [isDoubleConstant_iff_cutSign, isTooLarge_iff_cutSign]
  obtain ⟨x, hwrites, -⟩ := (signed_iff Decimal.unsigned_of_writesMagnitude).1 h
  rcases isReal_or_areDigits hwrites with hreal | hdigits
  · exact iff_of_true (.inl hreal) fun hlarge => hreal.not_areDigits hlarge.1
  · have hreal : ¬IsReal (cutSign text.toList).2 := fun hreal => hreal.not_areDigits hdigits
    simp only [hreal, IsInteger, hdigits, true_and, false_or]
    omega

/-- A cell of the type of floats writes a decimal. -/
theorem exists_writesDecimal_of_float (htext : text.toList.getLast? ≠ some '\n')
    (h : ArgType.ofValue text = .ok .float) : ∃ q, WritesDecimal text.toList q := by
  have hshort : ∀ count, ¬ArgType.IsLong text count := by
    intro count hlong
    have herror : ArgType.ofValue text = .error ⟨count⟩ :=
      (ArgType.ofValue_eq_error_iff htext).2 hlong
    simp [h] at herror
  obtain ⟨-, q, hwrites, -⟩ := (ArgType.ofValue_eq_float_iff htext hshort).1 h
  exact ⟨q, hwrites⟩

end Constants

/-- The argument for a cell of the type of floats is a constant that can be used as a double,
    unless the cell is an integer that is too large for a literal. -/
theorem isDoubleConstant_iff {cell : String} (hcell : cell.toList.getLast? ≠ some '\n')
    (h : ArgType.ofValue cell = .ok .float) :
    IsDoubleConstant (argument .float cell) ↔ ¬IsTooLarge cell := by
  obtain ⟨q, hwrites⟩ := exists_writesDecimal_of_float hcell h
  exact isDoubleConstant_of_writesDecimal hwrites

/-- The largest integer literal, which is no signed word. -/
def largestLiteral : String := "18446744073709551615"

theorem isDoubleConstant_largestLiteral :
    largestLiteral.toList.getLast? ≠ some '\n' ∧
    ArgType.ofValue largestLiteral = .ok .float ∧
    IsDoubleConstant (argument .float largestLiteral) := by
  have hcell : largestLiteral.toList.getLast? ≠ some '\n' := by decide
  have hfloat : ArgType.ofValue largestLiteral = .ok .float := by decide +kernel
  exact ⟨hcell, hfloat, (isDoubleConstant_iff hcell hfloat).2 (by decide +kernel)⟩

/-- The first integer that is no literal. -/
def firstTooLarge : String := "18446744073709551616"

theorem not_isDoubleConstant_firstTooLarge :
    firstTooLarge.toList.getLast? ≠ some '\n' ∧
    ArgType.ofValue firstTooLarge = .ok .float ∧
    ¬IsDoubleConstant (argument .float firstTooLarge) := by
  have hcell : firstTooLarge.toList.getLast? ≠ some '\n' := by decide
  have hfloat : ArgType.ofValue firstTooLarge = .ok .float := by decide +kernel
  obtain ⟨q, hwrites⟩ := exists_writesDecimal_of_float hcell hfloat
  have hlarge : IsTooLarge firstTooLarge := by decide +kernel
  exact ⟨hcell, hfloat, fun h => (isDoubleConstant_of_writesDecimal hwrites).1 h hlarge⟩

end Literal

end FeatureFile
