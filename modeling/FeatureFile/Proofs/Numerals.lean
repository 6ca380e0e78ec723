import FeatureFile.Proofs.DigitLimit
import Mathlib.Data.Nat.Digits.Defs
import Mathlib.Data.Rat.Cast.Order
import Mathlib.Tactic.FieldSimp
import Mathlib.Tactic.Ring

set_option autoImplicit false

/-! # The numbers that numerals write

Numerals are given here by their grammar, each form with the number that it writes: digits in base
ten, an optional sign, a fraction and a power of ten. The readers accept the texts of the grammar and
no others, and what they read is the number that is written (`exists_read?_iff` for integers,
`Decimal.exists_read?_iff` for decimals). Nothing is rounded: a decimal writes a rational number. -/

namespace FeatureFile

open Text

namespace Numeral

/-! ## Digits -/

/-- One or more ASCII digits. -/
def AreDigits (cs : List Char) : Prop := cs ≠ [] ∧ ∀ c ∈ cs, isAsciiDigit c = true

/-- The number that digits write in base ten. -/
def number (digits : List Char) : ℕ :=
  Nat.ofDigits 10 (digits.reverse.map fun c => c.toNat - '0'.toNat)

theorem isDigits_iff {cs : List Char} : isDigits cs = true ↔ AreDigits cs := by
  simp [isDigits, AreDigits]

instance (cs : List Char) : Decidable (AreDigits cs) := decidable_of_iff _ isDigits_iff

theorem digitsValue_eq (digits : List Char) : digitsValue digits = number digits := by
  rw [number, Nat.ofDigits_eq_foldr, List.foldr_map, List.foldr_reverse, digitsValue]
  simp only [Nat.cast_id, Nat.add_comm]

theorem number_append (digits more : List Char) :
    number (digits ++ more) = number digits * 10 ^ more.length + number more := by
  rw [number, List.reverse_append, List.map_append, Nat.ofDigits_append, List.length_map,
    List.length_reverse, number, number]
  ring

/-! ## Signs -/

/-- A text with an optional sign in front of one that writes a number. -/
inductive Signed {α : Type} [Neg α] (Writes : List Char → α → Prop) : List Char → α → Prop where
  | plain {cs : List Char} {x : α} (writes : Writes cs x) : Signed Writes cs x
  | plus {cs : List Char} {x : α} (writes : Writes cs x) : Signed Writes ('+' :: cs) x
  | minus {cs : List Char} {x : α} (writes : Writes cs x) : Signed Writes ('-' :: cs) (-x)

/-- The first character is no sign. -/
def Unsigned (cs : List Char) : Prop := cs.head? ≠ some '+' ∧ cs.head? ≠ some '-'

theorem cutSign_of_unsigned {cs : List Char} (h : Unsigned cs) : cutSign cs = (false, cs) := by
  unfold cutSign
  split
  · exact absurd rfl h.2
  · exact absurd rfl h.1
  · rfl

/-- The sign that is cut off is the sign of the number. -/
theorem signed_iff {α : Type} [Neg α] {Writes : List Char → α → Prop}
    (hunsigned : ∀ cs x, Writes cs x → Unsigned cs) {cs : List Char} {x : α} :
    Signed Writes cs x ↔
      ∃ y, Writes (cutSign cs).2 y ∧ x = if (cutSign cs).1 then -y else y := by
  constructor
  · intro h
    cases h with
    | plain writes =>
      rw [cutSign_of_unsigned (hunsigned cs x writes)]
      exact ⟨x, writes, rfl⟩
    | plus writes => exact ⟨x, writes, rfl⟩
    | @minus cs y writes => exact ⟨y, writes, rfl⟩
  · rintro ⟨y, writes, rfl⟩
    unfold cutSign at writes ⊢
    split at writes
    · exact .minus writes
    · exact .plus writes
    · exact .plain writes

/-! ## Integers -/

/-- Digits write a natural number. -/
def WritesNatural (cs : List Char) (n : ℤ) : Prop := AreDigits cs ∧ n = number cs

/-- Digits with an optional sign write an integer. -/
def WritesInteger : List Char → ℤ → Prop := Signed WritesNatural

theorem unsigned_of_isAsciiDigit {c : Char} {cs : List Char} (h : isAsciiDigit c = true) :
    Unsigned (c :: cs) := by
  constructor <;> rintro ⟨⟩ <;> exact absurd h (by decide)

theorem AreDigits.unsigned_append {digits : List Char} (h : AreDigits digits) (rest : List Char) :
    Unsigned (digits ++ rest) := by
  obtain ⟨c, cs, rfl⟩ := List.exists_cons_of_ne_nil h.1
  exact unsigned_of_isAsciiDigit (h.2 c List.mem_cons_self)

theorem AreDigits.unsigned {digits : List Char} (h : AreDigits digits) : Unsigned digits := by
  have hdigits := h.unsigned_append []
  rwa [List.append_nil] at hdigits

theorem unsigned_of_writesNatural (cs : List Char) (n : ℤ) (h : WritesNatural cs n) :
    Unsigned cs := h.1.unsigned

theorem writesInteger_iff {cs : List Char} {n : ℤ} :
    WritesInteger cs n ↔
      AreDigits (cutSign cs).2 ∧ n = signed (cutSign cs).1 (digitsValue (cutSign cs).2) := by
  rw [WritesInteger, signed_iff unsigned_of_writesNatural, digitsValue_eq, signed]
  constructor
  · rintro ⟨y, ⟨hdigits, rfl⟩, hn⟩
    exact ⟨hdigits, hn⟩
  · rintro ⟨hdigits, hn⟩
    exact ⟨_, ⟨hdigits, rfl⟩, hn⟩

/-- The reader of integers takes the texts that write one, and gives the integer that is written. -/
theorem exists_read?_iff {cs : List Char} {n : ℤ} :
    WritesInteger cs n ↔ ∃ numeral, IntegerNumeral.read? cs = some numeral ∧ numeral.value = n := by
  rw [writesInteger_iff]
  constructor
  · rintro ⟨hdigits, rfl⟩
    exact ⟨_, read?_eq_some_iff.2 ⟨isDigits_iff.2 hdigits, rfl⟩, rfl⟩
  · rintro ⟨numeral, hread, rfl⟩
    obtain ⟨hdigits, rfl⟩ := read?_eq_some_iff.1 hread
    exact ⟨isDigits_iff.1 hdigits, rfl⟩

/-! ## Decimals -/

/-- Digits with an optional fraction, or a fraction alone. -/
inductive WritesFixed : List Char → ℚ → Prop where
  | whole {digits : List Char} (whole : AreDigits digits) : WritesFixed digits (number digits)
  | point {digits fraction : List Char} (whole : AreDigits digits) (part : AreDigits fraction) :
      WritesFixed (digits ++ '.' :: fraction)
        (number digits + number fraction / 10 ^ fraction.length)
  | fraction {fraction : List Char} (part : AreDigits fraction) :
      WritesFixed ('.' :: fraction) (number fraction / 10 ^ fraction.length)

/-- An optional exponent. -/
inductive WritesExponent : List Char → ℤ → Prop where
  | none : WritesExponent [] 0
  | some {mark : Char} {cs : List Char} {n : ℤ} (letter : mark = 'e' ∨ mark = 'E')
      (writes : WritesInteger cs n) : WritesExponent (mark :: cs) n

/-- A decimal without its sign. -/
inductive WritesMagnitude : List Char → ℚ → Prop where
  | mk {cs ds : List Char} {q : ℚ} {n : ℤ} (fixed : WritesFixed cs q)
      (exponent : WritesExponent ds n) : WritesMagnitude (cs ++ ds) (q * 10 ^ n)

/-- A decimal: an optional sign, digits with an optional fraction, and an optional exponent. -/
def WritesDecimal : List Char → ℚ → Prop := Signed WritesMagnitude

end Numeral

open Numeral

namespace Decimal

/-- The number that a decimal stands for. -/
def value (decimal : Decimal) : ℚ := decimal.mantissa * 10 ^ decimal.exponent

theorem value_nonneg (decimal : Decimal) : 0 ≤ decimal.value :=
  mul_nonneg (Nat.cast_nonneg _) (zpow_nonneg (by norm_num) _)

theorem readExponent?_eq_some_iff {cs : List Char} {n : ℤ} :
    readExponent? cs = some n ↔ WritesExponent cs n := by
  constructor
  · intro h
    cases cs with
    | nil =>
      cases h
      exact .none
    | cons c cs =>
      rw [readExponent?] at h
      split at h
      · next hletter =>
        simp only [Option.ite_none_right_eq_some, Option.some.injEq] at h
        exact .some hletter (writesInteger_iff.2 ⟨isDigits_iff.1 h.1, h.2.symm⟩)
      · simp at h
  · intro h
    cases h with
    | none => rfl
    | some letter writes =>
      obtain ⟨hdigits, rfl⟩ := writesInteger_iff.1 writes
      simp [readExponent?, letter, isDigits_iff.2 hdigits]

/-- Behind the digits of a decimal stands the letter of its exponent, or nothing. -/
theorem head?_of_writesExponent {cs : List Char} {n : ℤ} (h : WritesExponent cs n) {c : Char}
    (hc : cs.head? = some c) : isAsciiDigit c = false ∧ c ≠ '.' := by
  cases h with
  | none => simp at hc
  | some letter writes =>
    obtain rfl := Option.some.inj hc
    rcases letter with rfl | rfl <;> decide

/-- The digits at the start of a text end where the rest starts. -/
theorem takeWhile_digits {digits rest : List Char} (hdigits : ∀ c ∈ digits, isAsciiDigit c = true)
    (hrest : ∀ c, rest.head? = some c → isAsciiDigit c = false) :
    (digits ++ rest).takeWhile isAsciiDigit = digits ∧
      (digits ++ rest).dropWhile isAsciiDigit = rest := by
  rw [List.takeWhile_append_of_pos hdigits, List.dropWhile_append_of_pos hdigits]
  cases rest with
  | nil => simp
  | cons c cs => simp [hrest c rfl]

theorem readUnsigned?_whole {digits rest : List Char} (hdigits : AreDigits digits)
    (hrest : ∀ c, rest.head? = some c → isAsciiDigit c = false ∧ c ≠ '.') :
    readUnsigned? (digits ++ rest) = ofParts? digits [] rest := by
  obtain ⟨htake, hdrop⟩ := takeWhile_digits hdigits.2 fun c hc => (hrest c hc).1
  have hne : ¬digits.isEmpty = true := by simpa using hdigits.1
  unfold readUnsigned?
  simp only [htake, hdrop]
  split
  · exact absurd rfl (hrest '.' rfl).2
  · rw [if_neg hne]

theorem readUnsigned?_point {digits fraction rest : List Char}
    (hdigits : ∀ c ∈ digits, isAsciiDigit c = true) (hfraction : AreDigits fraction)
    (hrest : ∀ c, rest.head? = some c → isAsciiDigit c = false) :
    readUnsigned? (digits ++ '.' :: (fraction ++ rest)) = ofParts? digits fraction rest := by
  have hpoint : ∀ c, ('.' :: (fraction ++ rest)).head? = some c → isAsciiDigit c = false := by
    rintro c ⟨⟩
    decide
  obtain ⟨htake, hdrop⟩ := takeWhile_digits hdigits hpoint
  obtain ⟨htake', hdrop'⟩ := takeWhile_digits hfraction.2 hrest
  have hne : ¬fraction.isEmpty = true := by simpa using hfraction.1
  unfold readUnsigned?
  simp only [htake, hdrop, htake', hdrop', if_neg hne]

/-- The fraction is read by moving the point behind it. -/
theorem value_ofParts {digits fraction : List Char} {n : ℤ} :
    value ⟨digitsValue (digits ++ fraction), n - fraction.length⟩ =
      (number digits + number fraction / 10 ^ fraction.length) * 10 ^ n := by
  have hten : (10 : ℚ) ≠ 0 := by norm_num
  rw [value, digitsValue_eq, number_append, zpow_sub₀ hten, zpow_natCast]
  push_cast
  field_simp

theorem exists_ofParts?_iff {digits fraction rest : List Char} {q : ℚ} :
    (∃ decimal, ofParts? digits fraction rest = some decimal ∧ decimal.value = q) ↔
      ∃ n, WritesExponent rest n ∧
        q = (number digits + number fraction / 10 ^ fraction.length) * 10 ^ n := by
  constructor
  · rintro ⟨decimal, hparts, rfl⟩
    obtain ⟨n, hn, rfl⟩ := Option.map_eq_some_iff.1 hparts
    exact ⟨n, readExponent?_eq_some_iff.1 hn, value_ofParts⟩
  · rintro ⟨n, hn, rfl⟩
    exact ⟨_, Option.map_eq_some_iff.2 ⟨n, readExponent?_eq_some_iff.2 hn, rfl⟩, value_ofParts⟩

/-- The value of digits that no fraction follows. -/
theorem fixed_nil (digits : List Char) :
    (number digits : ℚ) + number [] / 10 ^ ([] : List Char).length = number digits := by
  simp [number]

/-- The value of a fraction that no digits precede. -/
theorem nil_fixed (fraction : List Char) :
    (number [] : ℚ) + number fraction / 10 ^ fraction.length =
      number fraction / 10 ^ fraction.length := by
  simp [number]

theorem writesMagnitude_of_readUnsigned? {cs : List Char} {decimal : Decimal}
    (h : readUnsigned? cs = some decimal) : WritesMagnitude cs decimal.value := by
  have hdigits : ∀ ds : List Char, ∀ c ∈ ds.takeWhile isAsciiDigit, isAsciiDigit c = true :=
    fun ds c hc => List.mem_takeWhile_imp hc
  have hcs := List.takeWhile_append_dropWhile (p := isAsciiDigit) (l := cs)
  simp only [readUnsigned?] at h
  split at h
  · next rest hrest =>
    have hfraction := List.takeWhile_append_dropWhile (p := isAsciiDigit) (l := rest)
    split at h
    · simp at h
    · next hne =>
      obtain ⟨n, hn, hvalue⟩ := exists_ofParts?_iff.1 ⟨decimal, h, rfl⟩
      have hpart : AreDigits (rest.takeWhile isAsciiDigit) := ⟨by simpa using hne, hdigits rest⟩
      rw [hrest, ← hfraction] at hcs
      rw [← hcs, hvalue]
      by_cases hwhole : cs.takeWhile isAsciiDigit = []
      · rw [hwhole, List.nil_append, ← List.cons_append, nil_fixed]
        exact .mk (.fraction hpart) hn
      · rw [← List.cons_append, ← List.append_assoc]
        exact .mk (.point ⟨hwhole, hdigits cs⟩ hpart) hn
  · split at h
    · simp at h
    · next hne =>
      obtain ⟨n, hn, hvalue⟩ := exists_ofParts?_iff.1 ⟨decimal, h, rfl⟩
      rw [fixed_nil] at hvalue
      have hwhole : AreDigits (cs.takeWhile isAsciiDigit) := ⟨by simpa using hne, hdigits cs⟩
      have hmk := WritesMagnitude.mk (.whole hwhole) hn
      rwa [hcs, ← hvalue] at hmk

theorem exists_readUnsigned?_of_writesMagnitude {cs : List Char} {q : ℚ}
    (h : WritesMagnitude cs q) :
    ∃ decimal, readUnsigned? cs = some decimal ∧ decimal.value = q := by
  obtain ⟨fixed, exponent⟩ := h
  have hrest := fun c => head?_of_writesExponent (c := c) exponent
  cases fixed with
  | whole whole =>
    rw [readUnsigned?_whole whole hrest, exists_ofParts?_iff, fixed_nil]
    exact ⟨_, exponent, rfl⟩
  | point whole part =>
    rw [List.append_assoc, List.cons_append,
      readUnsigned?_point whole.2 part fun c hc => (hrest c hc).1, exists_ofParts?_iff]
    exact ⟨_, exponent, rfl⟩
  | @fraction fraction part =>
    have hread := @readUnsigned?_point [] fraction _ (by simp) part fun c hc => (hrest c hc).1
    rw [List.nil_append] at hread
    rw [List.cons_append, hread, exists_ofParts?_iff, nil_fixed]
    exact ⟨_, exponent, rfl⟩

theorem exists_readUnsigned?_iff {cs : List Char} {q : ℚ} :
    WritesMagnitude cs q ↔ ∃ decimal, readUnsigned? cs = some decimal ∧ decimal.value = q := by
  constructor
  · exact exists_readUnsigned?_of_writesMagnitude
  · rintro ⟨decimal, hread, rfl⟩
    exact writesMagnitude_of_readUnsigned? hread

theorem unsigned_of_writesMagnitude (cs : List Char) (q : ℚ) (h : WritesMagnitude cs q) :
    Unsigned cs := by
  obtain ⟨fixed, exponent⟩ := h
  cases fixed with
  | whole whole => exact whole.unsigned_append _
  | point whole part =>
    rw [List.append_assoc]
    exact whole.unsigned_append _
  | fraction part => exact ⟨by simp, by simp⟩

/-- The reader of decimals takes the texts that write one, and gives the magnitude of the number
    that is written. -/
theorem exists_read?_iff {cs : List Char} {x : ℚ} :
    (∃ q, WritesDecimal cs q ∧ |q| = x) ↔
      ∃ decimal, read? cs = some decimal ∧ decimal.value = x := by
  have habs : ∀ (negative : Bool) (decimal : Decimal),
      |if negative then -decimal.value else decimal.value| = decimal.value := by
    intro negative decimal
    cases negative <;> simp [abs_of_nonneg decimal.value_nonneg]
  simp only [WritesDecimal, signed_iff unsigned_of_writesMagnitude, exists_readUnsigned?_iff, read?]
  constructor
  · rintro ⟨_, ⟨_, ⟨decimal, hread, rfl⟩, rfl⟩, rfl⟩
    exact ⟨decimal, hread, (habs _ decimal).symm⟩
  · rintro ⟨decimal, hread, rfl⟩
    exact ⟨_, ⟨_, ⟨decimal, hread, rfl⟩, rfl⟩, habs _ decimal⟩

end Decimal

end FeatureFile
