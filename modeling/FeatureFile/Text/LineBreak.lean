import FeatureFile.Text.Ranges

set_option autoImplicit false

/-! # Lines of a text

A line ends at any of the characters below, and a carriage return followed by a line feed is one
break. A break at the very end of a text opens no further line. -/

namespace FeatureFile.Text

/-- Code points of the characters that end a line. -/
def lineBreakRanges : List (Nat × Nat) :=
  [(0x0A, 0x0D), (0x1C, 0x1E), (0x85, 0x85), (0x2028, 0x2029)]

/-- Whether a character ends a line. -/
def isLineBreak (c : Char) : Bool := inRanges lineBreakRanges c.toNat

/-- Puts a character in front of the first piece, opening one if there is none. -/
def consFirst (c : Char) : List (List Char) → List (List Char)
  | [] => [[c]]
  | piece :: rest => (c :: piece) :: rest

/-- The lines, without their breaks. -/
def lineChars : List Char → List (List Char)
  | [] => []
  | '\r' :: '\n' :: cs => [] :: lineChars cs
  | c :: cs => if isLineBreak c then [] :: lineChars cs else consFirst c (lineChars cs)

/-- The lines of a text, without their breaks. -/
def splitLines (s : String) : List String := (lineChars s.toList).map String.ofList

/-- Reads a carriage return, with or without a line feed after it, as a line feed. -/
def unifyBreakChars : List Char → List Char
  | [] => []
  | '\r' :: '\n' :: cs => '\n' :: unifyBreakChars cs
  | '\r' :: cs => '\n' :: unifyBreakChars cs
  | c :: cs => c :: unifyBreakChars cs

/-- The text with every carriage return, alone or before a line feed, as a line feed. -/
def unifyBreaks (s : String) : String := String.ofList (unifyBreakChars s.toList)

/-- No line holds a character that ends a line. -/
theorem not_isLineBreak_of_mem_lineChars (cs : List Char) :
    ∀ line ∈ lineChars cs, ∀ c ∈ line, isLineBreak c = false := by
  fun_induction lineChars cs with
  | case1 => simp
  | case2 cs ih => simpa using ih
  | case3 c cs _ hc ih => simpa using ih
  | case4 c cs _ hc ih =>
    cases h : lineChars cs with
    | nil => simpa [consFirst] using hc
    | cons piece rest =>
      rw [h] at ih
      simp only [List.forall_mem_cons, consFirst] at ih ⊢
      exact ⟨⟨by simpa using hc, ih.1⟩, ih.2⟩

end FeatureFile.Text
