import FeatureFile.Text.Digit

set_option autoImplicit false

/-! # Numerals

Integers and decimal fractions as they are written in ASCII: an optional sign, digits, and for
decimals a fraction and an exponent. A decimal is kept exactly, as a natural number times a power
of ten, so whether it is in the range of a double is decided by comparing natural numbers. -/

namespace FeatureFile

open Text

namespace Numeral

/-- The text after an optional sign, and whether the sign is a minus. -/
def cutSign : List Char → Bool × List Char
  | '-' :: cs => (true, cs)
  | '+' :: cs => (false, cs)
  | cs => (false, cs)

/-- Whether the characters are ASCII digits, at least one. -/
def isDigits (cs : List Char) : Bool := !cs.isEmpty && cs.all isAsciiDigit

/-- The number that ASCII digits write. -/
def digitsValue (digits : List Char) : Nat :=
  digits.foldl (fun value c => 10 * value + (c.toNat - '0'.toNat)) 0

/-- A natural number with a sign. -/
def signed (negative : Bool) (magnitude : Nat) : Int := if negative then -magnitude else magnitude

end Numeral

open Numeral

/-! ## Integers -/

/-- An integer as it is written. -/
structure IntegerNumeral where
  negative : Bool
  digits : List Char
deriving DecidableEq, Repr

namespace IntegerNumeral

/-- Reads an optional sign and digits. -/
def read? (cs : List Char) : Option IntegerNumeral :=
  let cut := cutSign cs
  if isDigits cut.2 then some ⟨cut.1, cut.2⟩ else none

/-- The integer that is written. -/
def value (numeral : IntegerNumeral) : Int := signed numeral.negative (digitsValue numeral.digits)

/-- Whether the integer is a signed word of 64 bits: from `-2 ^ 63` to `2 ^ 63 - 1`. -/
def fitsWord (numeral : IntegerNumeral) : Bool :=
  -9223372036854775808 ≤ numeral.value && numeral.value ≤ 9223372036854775807

end IntegerNumeral

/-! ## Decimals -/

/-- The magnitude `mantissa * 10 ^ exponent`. -/
structure Decimal where
  mantissa : Nat
  exponent : Int
deriving DecidableEq, Repr

namespace Decimal

/-- The exponent part of a decimal, `e` or `E` with an optional sign and digits; zero if missing. -/
def readExponent? : List Char → Option Int
  | [] => some 0
  | c :: cs =>
    if c = 'e' ∨ c = 'E' then
      let cut := cutSign cs
      if isDigits cut.2 then some (signed cut.1 (digitsValue cut.2)) else none
    else none

/-- The decimal with the given whole digits, fraction digits and exponent part. -/
def ofParts? (whole fraction rest : List Char) : Option Decimal :=
  (readExponent? rest).map fun exponent =>
    ⟨digitsValue (whole ++ fraction), exponent - fraction.length⟩

/-- Reads an unsigned decimal: digits with an optional fraction, or a fraction alone, and an
    optional exponent. A point needs digits after it. -/
def readUnsigned? (cs : List Char) : Option Decimal :=
  let whole := cs.takeWhile isAsciiDigit
  match cs.dropWhile isAsciiDigit with
  | '.' :: rest =>
    let fraction := rest.takeWhile isAsciiDigit
    if fraction.isEmpty then none else ofParts? whole fraction (rest.dropWhile isAsciiDigit)
  | rest => if whole.isEmpty then none else ofParts? whole [] rest

/-- Reads a decimal and forgets its sign. -/
def read? (cs : List Char) : Option Decimal := readUnsigned? (cutSign cs).2

/-- The least magnitude that a double cannot hold: from half a unit above the largest double on,
    rounding gives infinity. -/
def overflowBound : Nat := Nat.pow 2 1024 - Nat.pow 2 970

/-- Whether the magnitude rounds to a finite double. The exponent may be huge, so the powers of ten
    are formed only where the comparison needs them. -/
def isFinite (decimal : Decimal) : Bool :=
  match decimal.exponent with
  | .ofNat k =>
    decimal.mantissa == 0 || (k < 309 && decimal.mantissa * Nat.pow 10 k < overflowBound)
  | .negSucc k =>
    decimal.mantissa.log2 ≤ k || decimal.mantissa < overflowBound * Nat.pow 10 (k + 1)

end Decimal

end FeatureFile
