import FeatureFile.Text.LineBreak

set_option autoImplicit false

/-! # Cutting a text at a character -/

namespace FeatureFile.Text

/-- The text before and after the first `sep`, if there is one. -/
def cutAt (sep : Char) : List Char → Option (List Char × List Char)
  | [] => none
  | c :: cs =>
    if c = sep then some ([], cs)
    else (cutAt sep cs).map fun cut => (c :: cut.1, cut.2)

/-- The pieces between the characters that satisfy `p`: one more than there are such characters. -/
def piecesAt (p : Char → Bool) : List Char → List (List Char)
  | [] => [[]]
  | c :: cs => if p c then [] :: piecesAt p cs else consFirst c (piecesAt p cs)

/-- A cut loses nothing but the separator, and takes the first one. -/
theorem cutAt_eq_some {sep : Char} {cs before after : List Char}
    (h : cutAt sep cs = some (before, after)) :
    cs = before ++ sep :: after ∧ sep ∉ before := by
  induction cs generalizing before with
  | nil => simp [cutAt] at h
  | cons c cs ih =>
    rw [cutAt] at h
    split at h
    · next hc =>
      simp only [Option.some.injEq, Prod.mk.injEq] at h
      obtain ⟨rfl, rfl⟩ := h
      simp [hc]
    · next hc =>
      obtain ⟨⟨u, v⟩, hu, heq⟩ := Option.map_eq_some_iff.1 h
      simp only [Prod.mk.injEq] at heq
      obtain ⟨rfl, rfl⟩ := heq
      obtain ⟨rfl, hn⟩ := ih hu
      exact ⟨rfl, by simp [hn, Ne.symm hc]⟩

/-- There is no cut exactly when the separator does not occur. -/
theorem cutAt_eq_none_iff {sep : Char} {cs : List Char} : cutAt sep cs = none ↔ sep ∉ cs := by
  induction cs with
  | nil => simp [cutAt]
  | cons c cs ih =>
    by_cases hc : c = sep
    · simp [cutAt, hc]
    · simp [cutAt, hc, ih, Ne.symm hc]

/-- What stands before the first separator is cut off there. -/
theorem cutAt_append_cons {sep : Char} {before : List Char} (h : sep ∉ before)
    (after : List Char) : cutAt sep (before ++ sep :: after) = some (before, after) := by
  induction before with
  | nil => simp [cutAt]
  | cons c before ih =>
    rw [List.mem_cons, not_or] at h
    rw [List.cons_append, cutAt, if_neg (Ne.symm h.1), ih h.2]
    rfl

/-- There is always a piece. -/
theorem piecesAt_ne_nil (p : Char → Bool) (cs : List Char) : piecesAt p cs ≠ [] := by
  cases cs with
  | nil => simp [piecesAt]
  | cons c cs =>
    rw [piecesAt]
    split
    · simp
    · cases piecesAt p cs <;> simp [consFirst]

/-- A separator ends the last piece before it and starts the first piece after it. -/
theorem piecesAt_append_cons {p : Char → Bool} {sep : Char} (hp : p sep = true)
    (before after : List Char) :
    piecesAt p (before ++ sep :: after) = piecesAt p before ++ piecesAt p after := by
  induction before with
  | nil => simp [piecesAt, hp]
  | cons c cs ih =>
    rw [List.cons_append, piecesAt, piecesAt, ih]
    split
    · rfl
    · cases h : piecesAt p cs with
      | nil => exact absurd h (piecesAt_ne_nil p cs)
      | cons piece rest => simp [consFirst]

/-- A text without separators is one piece. -/
theorem piecesAt_of_forall_not {p : Char → Bool} {cs : List Char} (h : ∀ c ∈ cs, p c = false) :
    piecesAt p cs = [cs] := by
  induction cs with
  | nil => rfl
  | cons c cs ih =>
    have hrest := ih fun d hd => h d (List.mem_cons_of_mem c hd)
    have hfirst : ¬p c = true := by simp [h c List.mem_cons_self]
    rw [piecesAt, if_neg hfirst, hrest]
    rfl

end FeatureFile.Text
