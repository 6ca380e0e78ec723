set_option autoImplicit false

/-! # Ranges of code points

A property of characters is given as a list of closed ranges of code points, in ascending order
and without overlap. Membership walks the list and stops at the first range that does not end
before the code point asked for. -/

namespace FeatureFile.Text

/-- Whether `n` lies in one of the ascending closed ranges. -/
def inRanges : List (Nat × Nat) → Nat → Bool
  | [], _ => false
  | (lo, hi) :: rest, n => if n ≤ hi then decide (lo ≤ n) else inRanges rest n

/-- Every range is well-formed and starts above the end of the range before it. -/
def Ascending : List (Nat × Nat) → Bool
  | [] => true
  | [(lo, hi)] => decide (lo ≤ hi)
  | (lo, hi) :: (lo', hi') :: rest =>
    decide (lo ≤ hi) && decide (hi < lo') && Ascending ((lo', hi') :: rest)

end FeatureFile.Text
