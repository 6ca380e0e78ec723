import FeatureFile.Proofs.Numerals
import Mathlib.Data.Int.Log
import Mathlib.Data.Rat.Floor
import Mathlib.Tactic.Linarith

set_option autoImplicit false

/-! # Decimals in the range of doubles

A double has 53 binary digits. A number is brought to that many digits by rounding it to the nearest
multiple of the unit in its last place, to the even one of two that are equally near, and becomes
infinite if this gives `2 ^ 1024` or more. Rounding goes up to `2 ^ 1024` from half a unit below it
on, so the numbers that stay finite are those below `2 ^ 1024 - 2 ^ 970` (`Double.isFinite_iff`).

Whether a decimal is finite is decided without rounding and without forming large powers of ten. The
decision is exact: `Decimal.isFinite_iff`. -/

namespace FeatureFile

/-! ## Rounding -/

namespace Double

/-- The nearest integer, and of two that are equally near the even one. -/
def nearest (x : ℚ) : ℤ :=
  if x - ⌊x⌋ < 1 / 2 then ⌊x⌋
  else if 1 / 2 < x - ⌊x⌋ then ⌊x⌋ + 1
  else ⌊x⌋ + ⌊x⌋ % 2

/-- The unit in the last of 53 binary digits; there are no digits below `2 ^ -1074`. -/
def unit (x : ℚ) : ℚ := 2 ^ max (Int.log 2 x - 52) (-1074)

/-- A magnitude brought to the digits of a double, however large it is. -/
def rounded (x : ℚ) : ℚ := nearest (x / unit x) * unit x

/-- A magnitude does not become infinite in a double. -/
def IsFinite (x : ℚ) : Prop := rounded x < 2 ^ 1024

theorem le_nearest {x : ℚ} {n : ℤ} (h : n ≤ x) : n ≤ nearest x := by
  have hfloor : n ≤ ⌊x⌋ := Int.le_floor.2 h
  unfold nearest
  split_ifs <;> omega

theorem nearest_le {x : ℚ} {n : ℤ} (h : x ≤ n) : nearest x ≤ n := by
  have hfloor : ⌊x⌋ ≤ n := Int.floor_le_iff.2 (by linarith)
  rcases hfloor.lt_or_eq with hlt | heq
  · unfold nearest
    split_ifs <;> omega
  · -- nothing is left of a number at its own floor
    have hx : x - ⌊x⌋ < 1 / 2 := by
      rw [heq]
      linarith
    rw [nearest, if_pos hx]
    exact hfloor

/-- An even number is reached from half below it on. -/
theorem nearest_lt_iff {x : ℚ} {n : ℤ} (heven : n % 2 = 0) :
    nearest x < n ↔ x < n - 1 / 2 := by
  have hle := Int.floor_le x
  have hlt := Int.lt_floor_add_one x
  rcases lt_trichotomy ⌊x⌋ (n - 1) with hfloor | hfloor | hfloor
  · have hx : x < n - 1 := by
      have hcast : (⌊x⌋ : ℚ) + 1 ≤ n - 1 := by exact_mod_cast hfloor
      linarith
    have hnearest : nearest x ≤ n - 1 := nearest_le (by push_cast; linarith)
    exact iff_of_true (by omega) (by linarith)
  · -- the floor is odd, so a tie goes up
    have hcast : (⌊x⌋ : ℚ) = n - 1 := by exact_mod_cast hfloor
    unfold nearest
    split_ifs with hbelow habove
    · exact iff_of_true (by omega) (by linarith)
    · exact iff_of_false (by omega) (by linarith)
    · exact iff_of_false (by omega) (by linarith)
  · have hn : (n : ℚ) ≤ x := Int.le_floor.1 (by omega)
    have hnearest := le_nearest hn
    exact iff_of_false (by omega) (by linarith)

section Range

variable {x : ℚ} {k : ℕ}

theorem unit_pos (x : ℚ) : 0 < unit x := zpow_pos (by norm_num) _

theorem log_lt_iff (hx : 0 < x) : Int.log 2 x < k ↔ x < 2 ^ k := by
  have h := Int.lt_zpow_iff_log_lt (b := 2) (x := k) (by norm_num) hx
  rw [zpow_natCast, Nat.cast_ofNat] at h
  exact h.symm

theorem le_log_iff (hx : 0 < x) : k ≤ Int.log 2 x ↔ 2 ^ k ≤ x := by
  rw [← not_lt, log_lt_iff hx, not_lt]

/-- Rounding does not pass a power of two that is above all digits. -/
theorem rounded_le_of_lt (hx : 0 ≤ x) (h : x < 2 ^ (k + 53)) : rounded x ≤ 2 ^ (k + 53) := by
  have hlog : Int.log 2 x ≤ k + 52 := by
    rcases hx.lt_or_eq with hpos | rfl
    · have hlt := (log_lt_iff hpos).2 h
      omega
    · rw [Int.log_zero_right]
      omega
  -- the power is a whole number of units
  obtain ⟨n, hn⟩ : ∃ n : ℕ, (n : ℤ) = (k + 53 : ℕ) - max (Int.log 2 x - 52) (-1074) :=
    ⟨((k + 53 : ℕ) - max (Int.log 2 x - 52) (-1074)).toNat, Int.toNat_of_nonneg (by omega)⟩
  have hunits : ((2 ^ n : ℤ) : ℚ) * unit x = 2 ^ (k + 53) := by
    rw [unit, Int.cast_pow, Int.cast_ofNat, ← zpow_natCast, hn, ← zpow_add₀ two_ne_zero,
      sub_add_cancel, zpow_natCast]
  have hscaled : x / unit x ≤ ((2 ^ n : ℤ) : ℚ) := by
    rw [div_le_iff₀ (unit_pos x), hunits]
    exact h.le
  calc rounded x ≤ ((2 ^ n : ℤ) : ℚ) * unit x :=
        mul_le_mul_of_nonneg_right (Int.cast_le.2 (nearest_le hscaled)) (unit_pos x).le
    _ = 2 ^ (k + 53) := hunits

/-- Rounding does not fall below a power of two. -/
theorem le_rounded_of_le (h : 2 ^ k ≤ x) : 2 ^ k ≤ rounded x := by
  have hpos : 0 < x := lt_of_lt_of_le (by positivity) h
  have hlog := (le_log_iff hpos).2 h
  have hmax : max (Int.log 2 x - 52) (-1074) = Int.log 2 x - 52 := by omega
  have hunits : ((2 ^ 52 : ℤ) : ℚ) * unit x = 2 ^ Int.log 2 x := by
    have hsum : Int.log 2 x = (52 : ℕ) + (Int.log 2 x - 52) := by omega
    rw [unit, hmax, Int.cast_pow, Int.cast_ofNat, ← zpow_natCast, ← zpow_add₀ two_ne_zero, ← hsum]
  have hscaled : ((2 ^ 52 : ℤ) : ℚ) ≤ x / unit x := by
    rw [le_div_iff₀ (unit_pos x), hunits]
    exact Int.zpow_log_le_self (by norm_num) hpos
  calc (2 : ℚ) ^ k = 2 ^ (k : ℤ) := (zpow_natCast _ _).symm
    _ ≤ 2 ^ Int.log 2 x := zpow_le_zpow_right₀ (by norm_num) hlog
    _ = ((2 ^ 52 : ℤ) : ℚ) * unit x := hunits.symm
    _ ≤ rounded x :=
        mul_le_mul_of_nonneg_right (Int.cast_le.2 (le_nearest hscaled)) (unit_pos x).le

/-- The unit between two powers of two. -/
theorem unit_eq (hlow : 2 ^ (k + 53) ≤ x) (hhigh : x < 2 ^ (k + 54)) : unit x = 2 ^ (k + 1) := by
  have hpos : 0 < x := lt_of_lt_of_le (by positivity) hlow
  have hge := (le_log_iff hpos).2 hlow
  have hlt := (log_lt_iff hpos).2 hhigh
  have hmax : max (Int.log 2 x - 52) (-1074) = (k + 1 : ℕ) := by omega
  rw [unit, hmax, zpow_natCast]

/-- A power of two is reached from half a unit below it on. -/
theorem rounded_lt_iff (hx : 0 ≤ x) : rounded x < 2 ^ (k + 54) ↔ x < 2 ^ (k + 54) - 2 ^ k := by
  have hpos : (0 : ℚ) < 2 ^ k := by positivity
  have hunit : (2 : ℚ) ^ (k + 1) = 2 * 2 ^ k := by ring
  have hlow : (2 : ℚ) ^ (k + 53) = 2 ^ 53 * 2 ^ k := by ring
  have hhigh : (2 : ℚ) ^ (k + 54) = ((2 ^ 53 : ℤ) : ℚ) * 2 ^ (k + 1) := by
    push_cast
    ring
  rcases lt_or_ge x (2 ^ (k + 53)) with h | h
  · have hrounded := rounded_le_of_lt hx h
    rw [hlow] at h hrounded
    rw [hhigh, hunit]
    push_cast
    exact iff_of_true (by linarith) (by linarith)
  rcases lt_or_ge x (2 ^ (k + 54)) with h' | h'
  · have hhalf : (((2 ^ 53 : ℤ) : ℚ) - 1 / 2) * 2 ^ (k + 1) =
        ((2 ^ 53 : ℤ) : ℚ) * 2 ^ (k + 1) - 2 ^ k := by
      rw [hunit]
      ring
    rw [rounded, unit_eq h h', hhigh, mul_lt_mul_iff_of_pos_right (by positivity), Int.cast_lt,
      nearest_lt_iff (by norm_num), div_lt_iff₀ (by positivity), hhalf]
  · have hrounded := le_rounded_of_le h'
    exact iff_of_false (by linarith) (by linarith)

/-- The magnitudes that do not become infinite. -/
theorem isFinite_iff (hx : 0 ≤ x) : IsFinite x ↔ x < 2 ^ 1024 - 2 ^ 970 :=
  rounded_lt_iff (k := 970) hx

end Range

end Double

/-! ## Decimals -/

namespace Decimal

theorem cast_overflowBound : (overflowBound : ℚ) = 2 ^ 1024 - 2 ^ 970 := by
  have hcast : ∀ bound low high : ℕ, bound = Nat.pow 2 high - Nat.pow 2 low → low ≤ high →
      (bound : ℚ) = 2 ^ high - 2 ^ low := by
    intro bound low high hbound hle
    rw [hbound, Nat.pow_eq, Nat.pow_eq, Nat.cast_sub (Nat.pow_le_pow_right (by norm_num) hle),
      Nat.cast_pow, Nat.cast_pow, Nat.cast_ofNat]
  exact hcast overflowBound 970 1024 (by decide +kernel) (by norm_num)

/-- A power of ten that is over the bound already. -/
theorem overflowBound_le {k : ℕ} (h : 309 ≤ k) : overflowBound ≤ 10 ^ k :=
  calc overflowBound ≤ 10 ^ 309 := by decide +kernel
    _ ≤ 10 ^ k := Nat.pow_le_pow_right (by norm_num) h

/-- The comparison of naturals decides about the number that is written. -/
theorem isFinite_iff {decimal : Decimal} :
    decimal.isFinite = true ↔ decimal.value < 2 ^ 1024 - 2 ^ 970 := by
  obtain ⟨mantissa, exponent⟩ := decimal
  rw [← cast_overflowBound]
  cases exponent with
  | ofNat k =>
    have hvalue : value ⟨mantissa, .ofNat k⟩ = ((mantissa * 10 ^ k : ℕ) : ℚ) := by
      rw [value]
      push_cast
      rfl
    have hlarge : 309 ≤ k → (mantissa * 10 ^ k < overflowBound ↔ mantissa = 0) := by
      intro hk
      have hbound := overflowBound_le hk
      constructor
      · intro hlt
        by_contra hne
        have hone := Nat.le_mul_of_pos_left (10 ^ k) (Nat.pos_of_ne_zero hne)
        omega
      · rintro rfl
        rw [Nat.zero_mul]
        decide +kernel
    rw [hvalue, Nat.cast_lt, isFinite]
    simp only [Bool.or_eq_true, beq_iff_eq, Bool.and_eq_true, decide_eq_true_eq]
    rcases Nat.lt_or_ge k 309 with hk | hk
    · simp only [hk, true_and]
      refine or_iff_right_of_imp ?_
      rintro rfl
      rw [Nat.zero_mul]
      decide +kernel
    · rw [hlarge hk]
      simp [Nat.not_lt.2 hk]
  | negSucc k =>
    have hvalue : value ⟨mantissa, .negSucc k⟩ = mantissa / 10 ^ (k + 1) := by
      rw [value, zpow_negSucc, div_eq_mul_inv]
    have hsmall : mantissa.log2 ≤ k → mantissa < overflowBound * 10 ^ (k + 1) := by
      intro hlog
      calc mantissa < 2 ^ (mantissa.log2 + 1) := Nat.lt_log2_self
        _ ≤ 10 ^ (k + 1) := (Nat.pow_le_pow_right (by norm_num) (by omega)).trans
            (Nat.pow_le_pow_left (by norm_num) _)
        _ ≤ overflowBound * 10 ^ (k + 1) := Nat.le_mul_of_pos_left _ (by decide +kernel)
    rw [hvalue, div_lt_iff₀ (by positivity), isFinite]
    simp only [Bool.or_eq_true, decide_eq_true_eq, Nat.pow_eq]
    rw [or_iff_right_of_imp hsmall]
    exact_mod_cast Iff.rfl

end Decimal

end FeatureFile
