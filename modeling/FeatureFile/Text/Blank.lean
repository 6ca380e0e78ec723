import FeatureFile.Text.Ranges

set_option autoImplicit false

/-! # White space

The blank characters are the white space of Unicode together with the four information
separators U+001C to U+001F. Zero-width characters (U+200B, U+2060, U+FEFF) are not blank. -/

namespace FeatureFile.Text

/-- Code points of the blank characters. -/
def blankRanges : List (Nat × Nat) :=
  [(0x09, 0x0D), (0x1C, 0x20), (0x85, 0x85), (0xA0, 0xA0), (0x1680, 0x1680), (0x2000, 0x200A),
    (0x2028, 0x2029), (0x202F, 0x202F), (0x205F, 0x205F), (0x3000, 0x3000)]

/-- Whether a character is white space. -/
def isBlank (c : Char) : Bool := inRanges blankRanges c.toNat

/-- Drops the blanks at the end. -/
def dropEndBlanks (cs : List Char) : List Char := (cs.reverse.dropWhile isBlank).reverse

/-- Drops the blanks at both ends. -/
def stripChars (cs : List Char) : List Char := dropEndBlanks (cs.dropWhile isBlank)

/-- A text without the blanks at its ends. -/
def strip (s : String) : String := String.ofList (stripChars s.toList)

@[simp] theorem toList_strip (s : String) : (strip s).toList = stripChars s.toList := by
  simp [strip]

/-- Dropping blanks at the end leaves no blank there. -/
theorem getLast?_dropEndBlanks {cs : List Char} {c : Char}
    (h : (dropEndBlanks cs).getLast? = some c) : isBlank c = false := by
  rw [dropEndBlanks, List.getLast?_reverse] at h
  have := List.head?_dropWhile_not isBlank cs.reverse
  simpa [h] using this

/-- A text without a blank at its end loses nothing there. -/
theorem dropEndBlanks_eq_self {cs : List Char}
    (h : ∀ c, cs.getLast? = some c → isBlank c = false) : dropEndBlanks cs = cs := by
  unfold dropEndBlanks
  cases hr : cs.reverse with
  | nil => simp_all
  | cons c rest =>
    have hlast : cs.getLast? = some c := by rw [← List.head?_reverse, hr]; rfl
    simp [List.dropWhile, h c hlast, ← hr]

end FeatureFile.Text
