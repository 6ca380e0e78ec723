import FeatureFile.Proofs.TagAttachment
import Mathlib.Data.List.DropRight

set_option autoImplicit false

/-! # What a reader has been asked

A reader is asked for the next line, to collect the names of a tag line, or to hand over what it has
collected. What it answers can be said from the actions alone: the `n`-th request for a line gets
line `n`, and the tags that wait are the names collected since the last hand-over (`waiting`).

The tags are handed over without a copy, and the reader goes on with a new set. `SharedReader` does
this with places in a list of cells, so that the names of an earlier hand-over are looked up when
they are needed and not when they were handed over. Both readers give the same answers, at whatever
later time they are looked up (`SharedReader.map_answers`), which is why a plain value may stand for
the tags. The main result is `Reader.keepsAccount`. -/

namespace FeatureFile

namespace Reader

/-! ## Actions and answers -/

/-- What a reader can be asked. -/
inductive Action where
  | next
  | buffer (names : List String)
  | drain
deriving DecidableEq, Repr

/-- What a reader answers; tags are told as an `α`. -/
inductive Answer (α : Type) where
  | line (line : Option Line)
  | collected
  | tags (tags : α)
deriving DecidableEq, Repr

namespace Answer

variable {α β : Type}

/-- The answer with its tags told in another way. -/
def map (f : α → β) : Answer α → Answer β
  | line l => line l
  | collected => collected
  | tags t => tags (f t)

/-- The line of an answer to a request for one. -/
def line? : Answer α → Option (Option Line)
  | line l => some l
  | _ => none

end Answer

/-- Does what is asked. -/
def perform (reader : Reader) : Action → Answer TagSet × Reader
  | .next => (.line reader.next.1, reader.next.2)
  | .buffer names => (.collected, reader.buffer names)
  | .drain => (.tags reader.drain.1, reader.drain.2)

/-- The reader after some actions. -/
def after (reader : Reader) (actions : List Action) : Reader :=
  actions.foldl (fun reader action => (reader.perform action).2) reader

/-- The answers to some actions. -/
def answers (reader : Reader) : List Action → List (Answer TagSet)
  | [] => []
  | action :: actions => (reader.perform action).1 :: (reader.perform action).2.answers actions

theorem after_append (reader : Reader) (actions more : List Action) :
    reader.after (actions ++ more) = (reader.after actions).after more :=
  List.foldl_append

/-- The answer to an action is that of the reader after the actions before it. -/
theorem getElem?_answers (reader : Reader) (before : List Action) (action : Action)
    (later : List Action) :
    (reader.answers (before ++ action :: later))[before.length]? =
      some ((reader.after before).perform action).1 := by
  induction before generalizing reader with
  | nil => rfl
  | cons first before ih =>
    rw [List.cons_append, answers, List.length_cons, List.getElem?_cons_succ, ih]
    rfl

/-! ## The account of the actions -/

/-- The names on the tag lines since the tags were last handed over, or since the start. -/
def namesSince (actions : List Action) : List String :=
  (actions.rtakeWhile fun action => action ≠ .drain).flatMap fun action =>
    match action with
    | .buffer names => names
    | _ => []

/-- The names that wait: without the empty ones, each at its first position. -/
def waiting (actions : List Action) : List String :=
  ((namesSince actions).filter fun name => name ≠ "").eraseDups

theorem waiting_append_next (actions : List Action) :
    waiting (actions ++ [.next]) = waiting actions := by
  rw [waiting, namesSince, List.rtakeWhile_concat_pos _ _ _ (by decide), List.flatMap_append]
  simp [waiting, namesSince]

theorem waiting_append_drain (actions : List Action) : waiting (actions ++ [.drain]) = [] := by
  rw [waiting, namesSince, List.rtakeWhile_concat, if_neg (by decide)]
  rfl

/-- The names of a tag line that do not wait yet come behind those that do. -/
theorem waiting_append_buffer (actions : List Action) (names : List String) :
    waiting (actions ++ [.buffer names]) = waiting actions ++
      ((names.filter fun name => name ≠ "").filter fun name =>
        name ∉ waiting actions).eraseDups := by
  have hnames : namesSince (actions ++ [.buffer names]) = namesSince actions ++ names := by
    rw [namesSince, List.rtakeWhile_concat_pos _ _ _ (by simp), List.flatMap_append]
    simp [namesSince]
  rw [waiting, hnames, List.filter_append, List.eraseDups_append, List.removeAll]
  simp [waiting]

/-- After any actions, the tags that wait are those of the account. -/
theorem names_pending (lines : List Line) (actions : List Action) :
    ((ofLines lines).after actions).pending.names = waiting actions := by
  induction actions using List.reverseRecOn with
  | nil => rfl
  | append_singleton actions action ih =>
    rw [after_append]
    cases action with
    | next => rw [waiting_append_next, ← ih]; rfl
    | drain => rw [waiting_append_drain]; rfl
    | buffer names =>
      rw [waiting_append_buffer, ← ih]
      exact TagSet.names_insertAll _ _

example : waiting [.buffer ["a", "b"], .drain, .buffer ["b", ""], .next, .buffer ["a", "b"]] =
    ["b", "a"] := by decide

/-- The requests for lines get the lines that are left, one by one, and then none. -/
theorem filterMap_line?_answers (reader : Reader) (actions : List Action) :
    (reader.answers actions).filterMap Answer.line? =
      (List.range (actions.count .next)).map fun n => reader.rest[n]? := by
  induction actions generalizing reader with
  | nil => rfl
  | cons action actions ih =>
    rw [answers, List.filterMap_cons]
    cases action with
    | next =>
      have hrest : ∀ n, (reader.perform .next).2.rest[n]? = reader.rest[n + 1]? := fun n =>
        List.getElem?_tail
      simp only [ih, hrest, List.count_cons_self, List.range_succ_eq_map, List.map_cons,
        List.map_map]
      simp [perform, next, Answer.line?, List.head?_eq_getElem?, Function.comp_def]
    | buffer names => exact ih (reader.buffer names)
    | drain => exact ih reader.drain.2

end Reader

/-! ## A reader that hands over places -/

/-- A reader whose tags are in cells. Every set of tags that was ever started has a cell, and tags
    are collected in place. -/
structure SharedReader where
  rest : List Line
  cells : List TagSet
  /-- The cell in which tags are collected. -/
  pending : Nat
  inside : pending < cells.length

namespace SharedReader

open Reader

/-- A reader in front of all its lines, with one empty cell. -/
def ofLines (lines : List Line) : SharedReader := ⟨lines, [.empty], 0, by decide⟩

/-- Does what is asked; tags are handed over as the place of their cell, and a new cell is
    started. -/
def perform (reader : SharedReader) : Action → Answer Nat × SharedReader
  | .next => (.line reader.rest.head?, { reader with rest := reader.rest.tail })
  | .buffer names =>
    (.collected,
      { reader with
        cells := reader.cells.modify reader.pending fun tags => tags.addLine names
        inside := by simpa using reader.inside })
  | .drain =>
    (.tags reader.pending,
      { reader with
        cells := reader.cells ++ [.empty]
        pending := reader.cells.length
        inside := by simp })

/-- The reader after some actions. -/
def after (reader : SharedReader) (actions : List Action) : SharedReader :=
  actions.foldl (fun reader action => (reader.perform action).2) reader

/-- The answers to some actions. -/
def answers (reader : SharedReader) : List Action → List (Answer Nat)
  | [] => []
  | action :: actions => (reader.perform action).1 :: (reader.perform action).2.answers actions

/-- The reader that holds its tags itself. -/
def view (reader : SharedReader) : Reader :=
  ⟨reader.rest, reader.cells.get ⟨reader.pending, reader.inside⟩⟩

theorem view_perform (reader : SharedReader) (action : Action) :
    (reader.perform action).2.view = (reader.view.perform action).2 := by
  cases action with
  | next => rfl
  | buffer names => simp [view, perform, Reader.perform, Reader.buffer]
  | drain => simp [view, perform, Reader.perform, Reader.drain]

/-- Cells below the one in use are left alone, and the one in use is never left for a lower one. -/
theorem getElem?_cells_perform (reader : SharedReader) (action : Action) {place : Nat}
    (h : place < reader.pending) :
    (reader.perform action).2.cells[place]? = reader.cells[place]? ∧
      place < (reader.perform action).2.pending := by
  have hinside := reader.inside
  cases action with
  | next => exact ⟨rfl, h⟩
  | buffer names =>
    refine ⟨?_, h⟩
    show (reader.cells.modify reader.pending _)[place]? = _
    exact List.getElem?_modify_ne _ _ (Nat.ne_of_gt h)
  | drain =>
    refine ⟨?_, ?_⟩
    · show (reader.cells ++ [TagSet.empty])[place]? = _
      rw [List.getElem?_append_left (by omega)]
    · show place < reader.cells.length
      omega

/-- What was handed over is not touched by anything that follows. -/
theorem getElem?_cells_after (reader : SharedReader) (actions : List Action) {place : Nat}
    (h : place < reader.pending) : (reader.after actions).cells[place]? = reader.cells[place]? := by
  induction actions generalizing reader with
  | nil => rfl
  | cons action actions ih =>
    obtain ⟨hcell, hbelow⟩ := reader.getElem?_cells_perform action h
    exact (ih (reader.perform action).2 hbelow).trans hcell

theorem view_after (reader : SharedReader) (actions : List Action) :
    (reader.after actions).view = reader.view.after actions := by
  induction actions generalizing reader with
  | nil => rfl
  | cons action actions ih =>
    show ((reader.perform action).2.after actions).view = _
    rw [ih, view_perform]
    rfl

/-- An answer, looked up after any later actions, is the one that tells the tags themselves. -/
theorem map_answer (reader : SharedReader) (action : Action) (later : List Action) :
    (reader.perform action).1.map
        (fun place => (reader.after (action :: later)).cells[place]?) =
      (reader.view.perform action).1.map some := by
  cases action with
  | next | buffer names => rfl
  | drain =>
    have hplace : reader.pending < (reader.perform .drain).2.pending := reader.inside
    have hlater := (reader.perform .drain).2.getElem?_cells_after later hplace
    show Answer.tags ((reader.perform .drain).2.after later).cells[reader.pending]? =
      Answer.tags (some (reader.cells.get ⟨reader.pending, reader.inside⟩))
    rw [hlater]
    show Answer.tags (reader.cells ++ [TagSet.empty])[reader.pending]? = _
    rw [List.getElem?_append_left reader.inside, List.getElem?_eq_getElem reader.inside]
    rfl

/-- All answers, looked up at the end, are those that tell the tags themselves. -/
theorem map_answers (reader : SharedReader) (actions : List Action) :
    (reader.answers actions).map
        (Answer.map fun place => (reader.after actions).cells[place]?) =
      (reader.view.answers actions).map (Answer.map some) := by
  induction actions generalizing reader with
  | nil => rfl
  | cons action actions ih =>
    have hrest := ih (reader.perform action).2
    rw [view_perform] at hrest
    rw [answers, Reader.answers, List.map_cons, List.map_cons, map_answer]
    exact congrArg _ hrest

end SharedReader

/-! ## Whole histories -/

namespace Reader

/-- What is said of a reader over some lines, and of everything it is asked. -/
structure KeepsAccount (lines : List Line) (actions : List Action) : Prop where
  /-- The requests for lines get the lines in order, each once, and none from then on. -/
  inOrder : ((ofLines lines).answers actions).filterMap Answer.line? =
    (List.range (actions.count .next)).map fun n => lines[n]?
  /-- At any time, the tags that wait are the names collected since the last hand-over. -/
  pending : ∀ before, before <+: actions →
    ((ofLines lines).after before).pending.names = waiting before
  /-- A hand-over gives just these tags, and none wait after it. -/
  drain : ∀ before later, actions = before ++ .drain :: later →
    (∃ tags, ((ofLines lines).answers actions)[before.length]? = some (.tags tags) ∧
      tags.names = waiting before) ∧
    ((ofLines lines).after (before ++ [.drain])).pending = .empty
  /-- A request for a line leaves the tags alone. -/
  next : ∀ before later, actions = before ++ .next :: later →
    ((ofLines lines).after (before ++ [.next])).pending = ((ofLines lines).after before).pending
  /-- A reader that shares its tags is in the same state at any time, and what it has handed over
      until then has the names that it had when it was handed over. -/
  shared : ∀ before, before <+: actions →
    ((SharedReader.ofLines lines).after before).view = (ofLines lines).after before ∧
    ((SharedReader.ofLines lines).answers before).map
        (Answer.map fun place => ((SharedReader.ofLines lines).after before).cells[place]?) =
      ((ofLines lines).answers before).map (Answer.map some)

/-- A reader neither loses nor repeats anything, whatever it is asked. -/
theorem keepsAccount (lines : List Line) (actions : List Action) : KeepsAccount lines actions := by
  refine ⟨filterMap_line?_answers _ _, fun before _ => names_pending lines before, ?_, ?_, ?_⟩
  · rintro before later rfl
    refine ⟨⟨_, getElem?_answers _ _ _ _, names_pending lines before⟩, ?_⟩
    rw [after_append]
    rfl
  · rintro before later rfl
    rw [after_append]
    rfl
  · intro before _
    exact ⟨(SharedReader.ofLines lines).view_after before,
      (SharedReader.ofLines lines).map_answers before⟩

end Reader

end FeatureFile
