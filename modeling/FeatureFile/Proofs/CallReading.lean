import FeatureFile.Export.Literal
import FeatureFile.Text.Cut
import Mathlib.Data.List.Forall2

set_option autoImplicit false

/-! # Reading calls

A reader for the calls of a C# text, `Name(argument, argument)`, with the lexical rules for strings:
in a verbatim string a quote is written twice, in a regular string quotes and backslashes are
escaped, and outside of strings there are no commas, quotes and parentheses but those of the call.

The reader takes one character at a `Position` and never looks ahead. A text spells an argument if,
wherever an argument may start, it leads to a position where only that argument can end
(`Spells`). Texts that spell arguments, joined by commas, are read as these arguments
(`read?_intercalate`). -/

namespace FeatureFile

open Text

/-- An argument of a call, strings by the text that they denote. -/
inductive CallArgument where
  /-- A text without quotes: a number, a keyword or a declaration. -/
  | bare (text : String)
  /-- A verbatim string. -/
  | verbatim (value : String)
  /-- A regular string that is given for a name. -/
  | named (name value : String)
deriving DecidableEq, Repr

/-- A call by its name and arguments. -/
structure Call where
  name : String
  arguments : List CallArgument
deriving DecidableEq, Repr

namespace CallReader

/-- Code points of the quote, the parentheses and the comma. -/
def markRanges : List (Nat × Nat) := [(0x22, 0x22), (0x28, 0x29), (0x2C, 0x2C)]

/-- Whether a character has a meaning of its own outside of strings. -/
def isMark (c : Char) : Bool := inRanges markRanges c.toNat

/-- Where the next character of an argument list stands. -/
inductive Position where
  /-- Behind the opening parenthesis. -/
  | opening
  /-- Behind a comma and a blank. -/
  | next
  | bare (text : List Char)
  /-- Behind the sign that announces a verbatim string. -/
  | sign
  | verbatim (value : List Char)
  /-- Behind a quote in a verbatim string, which is the first of two or ends the string. -/
  | quote (value : List Char)
  | regular (name value : List Char)
  /-- Behind a backslash in a regular string. -/
  | escape (name value : List Char)
  /-- Behind a regular string. -/
  | ended (argument : CallArgument)
  | comma
  | closed
deriving DecidableEq, Repr

/-- Ends an argument at a comma or at the closing parenthesis. -/
def finish (argument : CallArgument) (c : Char) : Option (List CallArgument × Position) :=
  if c = ',' then some ([argument], .comma)
  else if c = ')' then some ([argument], .closed)
  else none

/-- Starts an argument. -/
def start (c : Char) : Option (List CallArgument × Position) :=
  if c = '@' then some ([], .sign)
  else if isMark c then none
  else some ([], .bare [c])

/-- Takes one character: the arguments that it ends, and the position behind it. -/
def step : Position → Char → Option (List CallArgument × Position)
  | .opening, c => if c = ')' then some ([], .closed) else start c
  | .next, c => start c
  | .bare text, c =>
    if c = '"' then
      if text.getLast? = some '=' then some ([], .regular text.dropLast []) else none
    else if isMark c then finish (.bare (String.ofList text)) c
    else some ([], .bare (text ++ [c]))
  | .sign, c => if c = '"' then some ([], .verbatim []) else none
  | .verbatim value, c =>
    if c = '"' then some ([], .quote value) else some ([], .verbatim (value ++ [c]))
  | .quote value, c =>
    if c = '"' then some ([], .verbatim (value ++ [c]))
    else finish (.verbatim (String.ofList value)) c
  | .regular name value, c =>
    if c = '"' then some ([], .ended (.named (String.ofList name) (String.ofList value)))
    else if c = '\\' then some ([], .escape name value)
    else some ([], .regular name (value ++ [c]))
  | .escape name value, c =>
    if c = '\\' ∨ c = '"' then some ([], .regular name (value ++ [c])) else none
  | .ended argument, c => finish argument c
  | .comma, c => if c = ' ' then some ([], .next) else none
  | .closed, _ => none

/-- Takes some characters. -/
def run : Position → List Char → Option (List CallArgument × Position)
  | position, [] => some ([], position)
  | position, c :: cs =>
    match step position c with
    | none => none
    | some (done, behind) => (run behind cs).map fun rest => (done ++ rest.1, rest.2)

/-- The arguments up to the closing parenthesis, behind which nothing may stand. -/
def read? (cs : List Char) : Option (List CallArgument) :=
  match run .opening cs with
  | some (arguments, .closed) => some arguments
  | _ => none

/-- The call that a text consists of. -/
def call? (text : String) : Option Call :=
  match cutAt '(' text.toList with
  | none => none
  | some (name, rest) => (read? rest).map fun arguments => ⟨String.ofList name, arguments⟩

/-! ## Passages -/

/-- Some characters lead from one position to another and end the given arguments. -/
def Reads (before : Position) (cs : List Char) (arguments : List CallArgument)
    (behind : Position) : Prop :=
  run before cs = some (arguments, behind)

/-- Some characters lead from one position to another and end no argument. -/
def Passes (before : Position) (cs : List Char) (behind : Position) : Prop :=
  Reads before cs [] behind

section Passages

variable {before middle behind : Position} {cs ds : List Char} {c : Char}
  {arguments more : List CallArgument}

theorem reads_cons (hstep : step before c = some (arguments, middle))
    (h : Reads middle cs more behind) : Reads before (c :: cs) (arguments ++ more) behind := by
  unfold Reads at h ⊢
  simp only [run, hstep, h, Option.map_some]

theorem Reads.append (h : Reads before cs arguments middle) (h' : Reads middle ds more behind) :
    Reads before (cs ++ ds) (arguments ++ more) behind := by
  -- the arguments that end on the way are those of the first step and of the rest
  induction cs generalizing before arguments with
  | nil =>
    cases h
    exact h'
  | cons c cs ih =>
    unfold Reads at h
    rw [run] at h
    split at h
    · cases h
    · next done position hstep =>
      obtain ⟨⟨rest, last⟩, hrest, heq⟩ := Option.map_eq_some_iff.1 h
      cases heq
      rw [List.cons_append, List.append_assoc]
      exact reads_cons hstep (ih hrest)

theorem passes_nil (position : Position) : Passes position [] position := rfl

theorem passes_cons (hstep : step before c = some ([], middle)) (h : Passes middle cs behind) :
    Passes before (c :: cs) behind := reads_cons hstep h

theorem passes_singleton (hstep : step before c = some ([], behind)) : Passes before [c] behind :=
  passes_cons hstep (passes_nil behind)

theorem Passes.append (h : Passes before cs middle) (h' : Passes middle ds behind) :
    Passes before (cs ++ ds) behind := Reads.append h h'

/-- A text without marks goes on as it started. -/
theorem passes_bare (text : List Char) (h : ∀ c ∈ cs, isMark c = false) :
    Passes (.bare text) cs (.bare (text ++ cs)) := by
  induction cs generalizing text with
  | nil =>
    rw [List.append_nil]
    exact passes_nil _
  | cons c cs ih =>
    rw [List.forall_mem_cons] at h
    have hquote : c ≠ '"' := by
      intro hc
      exact absurd (hc ▸ h.1) (by decide)
    have hstep : step (.bare text) c = some ([], .bare (text ++ [c])) := by
      simp [step, hquote, h.1]
    rw [List.append_cons]
    exact passes_cons hstep (ih (text ++ [c]) h.2)

/-- In a verbatim string, two quotes stand for one. -/
theorem passes_doubleQuotes (value cs : List Char) :
    Passes (.verbatim value) (Literal.doubleQuotes cs) (.verbatim (value ++ cs)) := by
  induction cs generalizing value with
  | nil =>
    rw [List.append_nil]
    exact passes_nil _
  | cons c cs ih =>
    have hchar : Passes (.verbatim value) (if c = '"' then ['"', '"'] else [c])
        (.verbatim (value ++ [c])) := by
      by_cases hc : c = '"'
      · rw [if_pos hc, hc]
        exact passes_cons rfl (passes_singleton rfl)
      · rw [if_neg hc]
        exact passes_singleton (by simp [step, hc])
    rw [List.append_cons]
    exact hchar.append (ih (value ++ [c]))

/-- In a regular string, a backslash stands before a quote or another backslash. -/
theorem passes_regularChars (name value cs : List Char) :
    Passes (.regular name value) (Literal.regularChars cs) (.regular name (value ++ cs)) := by
  induction cs generalizing value with
  | nil =>
    rw [List.append_nil]
    exact passes_nil _
  | cons c cs ih =>
    have hchar : Passes (.regular name value) (if c = '\\' ∨ c = '"' then ['\\', c] else [c])
        (.regular name (value ++ [c])) := by
      by_cases hc : c = '\\' ∨ c = '"'
      · rw [if_pos hc]
        exact passes_cons rfl (passes_singleton (by simp [step, hc]))
      · rw [if_neg hc]
        rw [not_or] at hc
        exact passes_singleton (by simp [step, hc])
    rw [List.append_cons]
    exact hchar.append (ih (value ++ [c]))

end Passages

/-! ## Arguments -/

/-- Wherever an argument may start, the text leads to a position where only the given argument can
    end. -/
def Spells (text : String) (argument : CallArgument) : Prop :=
  ∀ before, before = .opening ∨ before = .next → ∃ behind, Passes before text.toList behind ∧
    ∀ c, c = ',' ∨ c = ')' → step behind c = finish argument c

/-- A text that can stand for itself: it is not empty, and has no marks. -/
structure IsBare (text : String) : Prop where
  nonempty : text ≠ ""
  unsigned : text.toList.head? ≠ some '@'
  unmarked : ∀ c ∈ text.toList, isMark c = false

instance (text : String) : Decidable (IsBare text) :=
  decidable_of_iff
    (text ≠ "" ∧ text.toList.head? ≠ some '@' ∧ text.toList.any isMark = false)
    ⟨fun h => ⟨h.1, h.2.1, by simpa using h.2.2⟩,
      fun h => ⟨h.nonempty, h.unsigned, by simpa using h.unmarked⟩⟩

theorem passes_of_isBare {text : String} {before : Position} (h : IsBare text)
    (hbefore : before = .opening ∨ before = .next) :
    Passes before text.toList (.bare text.toList) := by
  obtain ⟨hne, hsign, hmark⟩ := h
  obtain ⟨c, cs, hcs⟩ := List.exists_cons_of_ne_nil fun hnil =>
    hne (String.toList_eq_nil_iff.1 hnil)
  rw [hcs, List.forall_mem_cons] at hmark
  rw [hcs, List.head?_cons, ne_eq, Option.some.injEq] at hsign
  have hstart : start c = some ([], .bare [c]) := by simp [start, hsign, hmark.1]
  have hclose : c ≠ ')' := by
    intro hc
    exact absurd (hc ▸ hmark.1) (by decide)
  have hstep : step before c = some ([], .bare [c]) := by
    rcases hbefore with rfl | rfl
    · simp [step, hclose, hstart]
    · exact hstart
  rw [hcs]
  exact passes_cons hstep (passes_bare [c] hmark.2)

theorem spells_bare {text : String} (h : IsBare text) : Spells text (.bare text) := by
  intro before hbefore
  refine ⟨.bare text.toList, passes_of_isBare h hbefore, ?_⟩
  rintro c (rfl | rfl)
  · simp [step, show isMark ',' = true by decide]
  · simp [step, show isMark ')' = true by decide]

theorem spells_verbatim (value : List Char) :
    Spells ("@\"" ++ String.ofList (Literal.doubleQuotes value) ++ "\"")
      (.verbatim (String.ofList value)) := by
  intro before hbefore
  have hchars : ("@\"" ++ String.ofList (Literal.doubleQuotes value) ++ "\"").toList =
      '@' :: '"' :: (Literal.doubleQuotes value ++ ['"']) := by simp
  have hsign : step before '@' = some ([], .sign) := by
    rcases hbefore with rfl | rfl <;> rfl
  have hbody : Passes (.verbatim []) (Literal.doubleQuotes value) (.verbatim value) :=
    passes_doubleQuotes [] value
  refine ⟨.quote value, ?_, ?_⟩
  · rw [hchars]
    exact passes_cons hsign (passes_cons rfl (hbody.append (passes_singleton rfl)))
  · rintro c (rfl | rfl) <;> rfl

theorem spells_named {name : String} (h : IsBare name) (value : String) :
    Spells (name ++ "=\"" ++ Literal.regular value ++ "\"") (.named name value) := by
  intro before hbefore
  -- up to the quote, the name and its sign are read as a bare text
  have hname : IsBare (name ++ "=") := by
    refine ⟨by simp, ?_, ?_⟩
    · have hne : name.toList ≠ [] := fun hnil => h.nonempty (String.toList_eq_nil_iff.1 hnil)
      rw [String.toList_append, List.head?_append_of_ne_nil _ hne]
      exact h.unsigned
    · rw [String.toList_append, List.forall_mem_append]
      exact ⟨h.unmarked, fun c hc => List.mem_singleton.1 hc ▸ rfl⟩
  have hopen : step (.bare (name ++ "=").toList) '"' = some ([], .regular name.toList []) := by
    simp [step]
  have hbody : Passes (.regular name.toList []) (Literal.regularChars value.toList)
      (.regular name.toList value.toList) := passes_regularChars name.toList [] value.toList
  have hclose : step (.regular name.toList value.toList) '"' =
      some ([], .ended (.named name value)) := by simp [step]
  have hchars : (name ++ "=\"" ++ Literal.regular value ++ "\"").toList =
      (name ++ "=").toList ++ '"' :: (Literal.regularChars value.toList ++ ['"']) := by
    simp [Literal.regular]
  refine ⟨.ended (.named name value), ?_, fun c _ => rfl⟩
  rw [hchars]
  exact (passes_of_isBare hname hbefore).append
    (passes_cons hopen (hbody.append (passes_singleton hclose)))

/-! ## Calls -/

theorem reads_intercalate {texts : List String} {arguments : List CallArgument} {before : Position}
    (h : List.Forall₂ Spells texts arguments) (hne : texts ≠ [])
    (hbefore : before = .opening ∨ before = .next) :
    Reads before ((String.intercalate ", " texts).toList ++ [')']) arguments .closed := by
  induction h generalizing before with
  | nil => exact absurd rfl hne
  | @cons text argument texts arguments hspells hrest ih =>
    obtain ⟨behind, hpasses, hends⟩ := hspells before hbefore
    -- the last argument ends at the bracket, the others at a comma
    by_cases hlast : texts = []
    · subst hlast
      cases hrest
      have hclose : step behind ')' = some ([argument], .closed) := hends ')' (.inr rfl)
      rw [String.intercalate_singleton]
      exact Reads.append hpasses (reads_cons hclose (passes_nil _))
    · have hcomma : step behind ',' = some ([argument], .comma) := hends ',' (.inl rfl)
      have hchars : (String.intercalate ", " (text :: texts)).toList ++ [')'] =
          text.toList ++ ',' :: ' ' :: ((String.intercalate ", " texts).toList ++ [')']) := by
        rw [String.intercalate_cons_of_ne_nil hlast]
        simp
      have hblank : step .comma ' ' = some ([], .next) := rfl
      rw [hchars]
      exact Reads.append hpasses (reads_cons hcomma (reads_cons hblank (ih hlast (.inr rfl))))

/-- Texts that spell arguments, joined by commas, are read as these arguments. -/
theorem read?_intercalate {texts : List String} {arguments : List CallArgument}
    (h : List.Forall₂ Spells texts arguments) :
    read? ((String.intercalate ", " texts).toList ++ [')']) = some arguments := by
  by_cases hne : texts = []
  · subst hne
    cases h
    rfl
  · have hreads := reads_intercalate h hne (.inl rfl)
    unfold Reads at hreads
    rw [read?, hreads]

theorem call?_eq {name : String} {texts : List String} {arguments : List CallArgument}
    (hname : '(' ∉ name.toList) (h : List.Forall₂ Spells texts arguments) :
    call? (name ++ "(" ++ String.intercalate ", " texts ++ ")") = some ⟨name, arguments⟩ := by
  have hchars : (name ++ "(" ++ String.intercalate ", " texts ++ ")").toList =
      name.toList ++ '(' :: ((String.intercalate ", " texts).toList ++ [')']) := by simp
  rw [call?, hchars, cutAt_append_cons hname]
  simp only [read?_intercalate h, Option.map_some, String.ofList_toList]

end CallReader

end FeatureFile
