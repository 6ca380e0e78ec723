import FeatureFile.Proofs.Reading

set_option autoImplicit false

/-! # What the numbers of lines are used for

Numbers are handed on to faults and used for nothing else. So if the lines of a file get other
numbers, its feature stays as it is and its fault changes by its number only (`ofLines_renumber`).
The draft keeps some lines until it knows whether they are at fault, and these change with it. -/

namespace FeatureFile

variable (f : Nat → Nat)

/-- The line with another number. -/
def Line.renumber (line : Line) : Line := { line with number := f line.number }

/-- The fault with another number. -/
def Fault.renumber (fault : Fault) : Fault := { fault with number := fault.number.map f }

/-- The place with other numbers of the lines that it keeps. -/
def Place.renumber : Place → Place
  | .tagged pending last => .tagged pending (last.renumber f)
  | .outlineTagged outline pending last => .outlineTagged outline pending (last.renumber f)
  | .labels outline tags header => .labels outline tags (header.renumber f)
  | .description => .description
  | .steps group scenario => .steps group scenario
  | .outlineSteps outline => .outlineSteps outline
  | .rows outline block => .rows outline block

/-- The draft with other numbers of the lines that it keeps. -/
def Draft.renumber : Draft → Draft
  | .preamble tags description => .preamble tags description
  | .body feature place => .body feature (place.renumber f)

/-- The result of a run with other numbers. -/
def renumbered (result : Except Fault Draft) : Except Fault Draft :=
  (result.map (Draft.renumber f)).mapError (Fault.renumber f)

@[simp] theorem Line.renumber_shape (line : Line) : (line.renumber f).shape = line.shape := rfl

@[simp] theorem Line.renumber_text (line : Line) : (line.renumber f).text = line.text := rfl

@[simp] theorem renumbered_ok (draft : Draft) : renumbered f (.ok draft) = .ok (draft.renumber f) :=
  rfl

@[simp] theorem renumbered_error (fault : Fault) :
    renumbered f (.error fault) = .error (fault.renumber f) := rfl

theorem renumbered_eq_ok_iff {result : Except Fault Draft} {draft : Draft} :
    renumbered f result = .ok draft ↔ ∃ other, result = .ok other ∧ other.renumber f = draft := by
  cases result <;> simp

namespace Draft

variable (feature : Feature) (place : Place) (line : Line) (scopes : List Scope) (tags : TagSet)
  (keyword : GroupKeyword) (title : String)

@[simp] theorem openGroup_renumber :
    openGroup feature tags (line.renumber f) keyword title =
      renumbered f (openGroup feature tags line keyword title) := by
  cases keyword with
  | background =>
    cases hfirst : feature.background <;> simp only [openGroup, hfirst] <;> rfl
  | _ => rfl

@[simp] theorem openInOutline_renumber (outline : Outline) :
    openInOutline feature outline tags (line.renumber f) keyword title =
      renumbered f (openInOutline feature outline tags line keyword title) := by
  cases keyword with
  | examples => by_cases htitle : title = "" <;> simp only [openInOutline, htitle] <;> rfl
  | _ => simp only [openInOutline, openGroup_renumber]

/-- A decoder does not see the number of its line. -/
theorem decodedAt_renumber {α : Type} (result : Except Cause α) (g : α → Draft)
    (hg : ∀ value, (g value).renumber f = g value) :
    (decodedAt (line.renumber f) scopes result).map g =
      renumbered f ((decodedAt line scopes result).map g) := by
  cases result with
  | error cause => rfl
  | ok value => exact congrArg Except.ok (hg value).symm

theorem readBody_renumber :
    readBody feature (place.renumber f) (line.renumber f) =
      renumbered f (readBody feature place line) := by
  -- at every place the shape decides what is done, and each of these things was renumbered above
  cases place with
  | description | tagged pending last | outlineTagged outline pending last =>
    cases hs : line.shape <;> simp [readBody, Place.renumber, hs] <;> rfl
  | steps group scenario =>
    cases hs : line.shape with
    | step keyword content =>
      simp only [readBody, Place.renumber, Line.renumber_shape, hs]
      exact decodedAt_renumber f line _ _ _ fun _ => rfl
    | _ => simp [readBody, Place.renumber, hs] <;> rfl
  | outlineSteps outline =>
    cases hs : line.shape with
    | step keyword content =>
      simp only [readBody, Place.renumber, Line.renumber_shape, hs]
      exact decodedAt_renumber f line _ _ _ fun _ => rfl
    | _ => simp [readBody, Place.renumber, hs] <;> rfl
  | labels outline tags header =>
    cases hs : line.shape with
    | row =>
      simp only [readBody, Place.renumber, Line.renumber_shape, hs]
      exact decodedAt_renumber f line _ _ _ fun _ => rfl
    | _ =>
      simp only [readBody, Place.renumber, Line.renumber_shape, hs]
      rfl
  | rows outline block =>
    cases hs : line.shape with
    | row =>
      simp only [readBody, Place.renumber, Line.renumber_shape, Line.renumber_text, hs]
      cases Row.decode line.text with
      | error cause => rfl
      | ok row =>
        cases hwidth : Row.checkArity block.labels row <;>
          simp only [bind, Except.bind, hwidth] <;> rfl
    | _ => simp [readBody, Place.renumber, hs] <;> rfl

theorem read_renumber (draft : Draft) :
    (draft.renumber f).read (line.renumber f) = renumbered f (draft.read line) := by
  cases draft with
  | preamble tags description =>
    cases hs : line.shape with
    | header keyword title =>
      cases keyword <;> simp only [read, Draft.renumber, Line.renumber_shape, hs] <;> rfl
    | _ =>
      simp only [read, Draft.renumber, Line.renumber_shape, hs]
      rfl
  | body feature place => exact readBody_renumber f feature place line

/-- Lines with other numbers lead to the same draft, but for the numbers. -/
theorem run_renumber (draft : Draft) (lines : List Line) :
    (draft.renumber f).run (lines.map (Line.renumber f)) = renumbered f (draft.run lines) := by
  induction lines generalizing draft with
  | nil => rfl
  | cons line rest ih =>
    rw [List.map_cons, run_cons, run_cons, read_renumber]
    cases draft.read line with
    | error fault => rfl
    | ok next => exact ih next

theorem finish_renumber (draft : Draft) :
    (draft.renumber f).finish = draft.finish.mapError (Fault.renumber f) := by
  cases draft with
  | preamble tags description => rfl
  | body feature place => cases place <;> rfl

variable {f} {draft : Draft} {closed : Feature}

theorem finish_renumber_eq_ok_iff :
    (draft.renumber f).finish = .ok closed ↔ draft.finish = .ok closed := by
  rw [finish_renumber, except_mapError_eq_ok_iff]

/-- Where the file may end, no lines are kept, and so none to be renumbered. -/
theorem renumber_of_finish (h : draft.finish = .ok closed) : draft.renumber f = draft := by
  rcases draft with _ | ⟨feature, place⟩
  · rfl
  · cases place with
    | description | steps _ _ | outlineSteps _ | rows _ _ => rfl
    | tagged _ _ | outlineTagged _ _ _ | labels _ _ _ => simp [finish, faultAt] at h

end Draft

/-- The numbers of the lines decide the number of the fault, and nothing else. -/
theorem ofLines_renumber (lines : List Line) :
    Feature.ofLines (lines.map (Line.renumber f)) =
      (Feature.ofLines lines).mapError (Fault.renumber f) := by
  have hrun : Draft.start.run (lines.map (Line.renumber f)) =
      renumbered f (Draft.start.run lines) := Draft.run_renumber f Draft.start lines
  rw [Feature.ofLines_eq, Feature.ofLines_eq, hrun]
  cases Draft.start.run lines with
  | error fault => rfl
  | ok draft => exact Draft.finish_renumber f draft

end FeatureFile
