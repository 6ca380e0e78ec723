import FeatureFile.Text.Cut

set_option autoImplicit false

/-! # Wildcards

A pattern for one name of a path: `*` stands for any characters, `?` for one, and `[…]` for one of
a class of characters, or for one outside of it when the class starts with `!`. A bracket that is
never closed stands for itself. -/

namespace FeatureFile.Wildcard

open Text

/-- A part of a character class. -/
inductive ClassItem where
  | one (c : Char)
  | range (low high : Char)
deriving DecidableEq, Repr

/-- Whether a character is in a part of a class. -/
def ClassItem.contains : ClassItem → Char → Bool
  | one c, x => x == c
  | range low high, x => low ≤ x && x ≤ high

/-- Whether a part is a range that ends before it starts. -/
def ClassItem.isEmpty : ClassItem → Bool
  | one _ => false
  | range low high => high < low

/-- One piece of a pattern. -/
inductive Token where
  | char (c : Char)
  | anyChar
  | anyText
  | oneOf (complement : Bool) (items : List ClassItem)
deriving DecidableEq, Repr

/-- Whether a piece stands for a single character. -/
def Token.accepts : Token → Char → Bool
  | char c, x => x == c
  | anyChar, _ => true
  | anyText, _ => true
  | oneOf complement items, x => complement != items.any fun item => item.contains x

/-! ## Reading a pattern -/

/-- The parts of a class: a hyphen between two characters makes a range. -/
def rangeItems : List Char → List ClassItem
  | low :: '-' :: high :: cs => .range low high :: rangeItems cs
  | c :: cs => .one c :: rangeItems cs
  | [] => []

/-- The parts of a class; an exclamation mark in front starts no range. -/
def classItems : List Char → List ClassItem
  | '!' :: cs => .one '!' :: rangeItems cs
  | cs => rangeItems cs

/-- The piece for a class. Empty ranges are dropped first, and an exclamation mark in front of
    what is left turns the class around. -/
def classToken (body : List Char) : Token :=
  match (classItems body).filter fun item => !item.isEmpty with
  | .one '!' :: items => .oneOf true items
  | .range '!' high :: items => .oneOf true (.one '-' :: .one high :: items)
  | items => .oneOf false items

/-- What may come before the closing bracket of a class is looked for: an exclamation mark, and a
    bracket that is the first member. -/
def classStart : List Char → List Char × List Char
  | '!' :: ']' :: cs => (['!', ']'], cs)
  | '!' :: cs => (['!'], cs)
  | ']' :: cs => ([']'], cs)
  | cs => ([], cs)

/-- The body of a class and the text after it, from the character after the opening bracket. -/
def cutClass? (cs : List Char) : Option (List Char × List Char) :=
  (cutAt ']' (classStart cs).2).map fun cut => ((classStart cs).1 ++ cut.1, cut.2)

theorem length_classStart_le (cs : List Char) : (classStart cs).2.length ≤ cs.length := by
  unfold classStart
  split <;> simp only [List.length_cons] <;> omega

theorem length_cutClass?_lt {cs body rest : List Char} (h : cutClass? cs = some (body, rest)) :
    rest.length < cs.length := by
  obtain ⟨⟨u, v⟩, hu, heq⟩ := Option.map_eq_some_iff.1 h
  simp only [Prod.mk.injEq] at heq
  obtain ⟨-, rfl⟩ := heq
  have hle := length_classStart_le cs
  rw [(cutAt_eq_some hu).1] at hle
  simp only [List.length_append, List.length_cons] at hle
  omega

/-- The pieces of a pattern. -/
def tokens : List Char → List Token
  | [] => []
  | '*' :: cs => .anyText :: tokens cs
  | '?' :: cs => .anyChar :: tokens cs
  | '[' :: cs =>
    match h : cutClass? cs with
    | some (body, rest) =>
      have := length_cutClass?_lt h
      classToken body :: tokens rest
    | none => .char '[' :: tokens cs
  | c :: cs => .char c :: tokens cs
termination_by cs => cs.length

/-! ## Matching -/

/-- Whether a text, or what is left of it after some characters, satisfies `p`. -/
def anyTail (p : List Char → Bool) : List Char → Bool
  | [] => p []
  | c :: cs => p (c :: cs) || anyTail p cs

/-- Whether a whole text is an instance of the pieces. -/
def matchTokens : List Token → List Char → Bool
  | [], cs => cs.isEmpty
  | .anyText :: ts, cs => anyTail (matchTokens ts) cs
  | _ :: _, [] => false
  | t :: ts, c :: cs => t.accepts c && matchTokens ts cs

/-- Some tail of a text satisfies `p` exactly when the text is characters followed by one. -/
theorem anyTail_eq_true_iff {p : List Char → Bool} {cs : List Char} :
    anyTail p cs = true ↔ ∃ before after, cs = before ++ after ∧ p after = true := by
  induction cs with
  | nil =>
    refine ⟨fun h => ⟨[], [], rfl, h⟩, ?_⟩
    rintro ⟨before, after, heq, h⟩
    rw [(List.append_eq_nil_iff.1 heq.symm).2] at h
    exact h
  | cons c cs ih =>
    rw [anyTail, Bool.or_eq_true, ih]
    constructor
    · rintro (h | ⟨before, after, rfl, h⟩)
      · exact ⟨[], c :: cs, rfl, h⟩
      · exact ⟨c :: before, after, rfl, h⟩
    · rintro ⟨before, after, heq, h⟩
      cases before with
      | nil => exact .inl (by rw [heq]; exact h)
      | cons d before =>
        simp only [List.cons_append, List.cons.injEq] at heq
        exact .inr ⟨before, after, heq.2, h⟩

/-- Whether a name is an instance of a pattern. -/
def isMatch (pattern name : String) : Bool := matchTokens (tokens pattern.toList) name.toList

/-- Whether a text holds a character that is special in patterns. -/
def hasWildcard (text : String) : Bool :=
  text.toList.any fun c => c == '*' || c == '?' || c == '['

end FeatureFile.Wildcard
