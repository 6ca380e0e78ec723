import FeatureFile.Json
import FeatureFile.Numeral
import Mathlib.Data.List.Basic

set_option autoImplicit false

/-! # Reading JSON texts

A reader for all JSON texts, with every escape and form of number, and the proof that it gives back
every value that is rendered (`JsonReader.read?_render`).

The reader works in two stages. `tokens?` cuts a text into brackets, commas, colons and scalars; the
white space between them is dropped, and escapes in strings are resolved. `step` takes one token at
a `Position`: the lists and objects that are still open, innermost first, and what may come next in
the innermost one. It never looks ahead, so what is read from a text depends on the position before
it and on nothing else. The proof follows the rendered value through the reader, `readFrom`, with an
arbitrary stack below it and an arbitrary text behind it. -/

namespace FeatureFile

/-- A JSON value that has no parts. A number is kept as it is written. -/
inductive JsonScalar where
  | null
  | boolean (value : Bool)
  | number (numeral : String)
  | string (value : String)
deriving DecidableEq, Repr

/-- A JSON value. An object keeps its members in their order, also where a name is repeated. -/
inductive JsonValue where
  | scalar (value : JsonScalar)
  | array (items : List JsonValue)
  | object (members : List (String × JsonValue))
deriving Repr

namespace JsonReader

open Text

/-! ## Strings -/

/-- The value of a hexadecimal digit, in upper or lower case. -/
def hexValue? (c : Char) : Option Nat :=
  if '0' ≤ c ∧ c ≤ '9' then some (c.toNat - 48)
  else if 'a' ≤ c ∧ c ≤ 'f' then some (c.toNat - 87)
  else if 'A' ≤ c ∧ c ≤ 'F' then some (c.toNat - 55)
  else none

/-- The number that four hexadecimal digits write, and what stands after them. -/
def codeUnit? : List Char → Option (Nat × List Char)
  | a :: b :: c :: d :: rest => do
    let digits ← [a, b, c, d].mapM hexValue?
    return (digits.foldl (fun value digit => 16 * value + digit) 0, rest)
  | _ => none

/-- The character that a code unit stands for, or a surrogate pair of which the second half is
    escaped in the same way. A half without the other one stands for nothing. -/
def unicodeEscape? (cs : List Char) : Option (Char × List Char) :=
  match codeUnit? cs with
  | none => none
  | some (unit, rest) =>
    if 0xD800 ≤ unit ∧ unit ≤ 0xDBFF then
      match rest with
      | '\\' :: 'u' :: second =>
        match codeUnit? second with
        | none => none
        | some (low, rest) =>
          if 0xDC00 ≤ low ∧ low ≤ 0xDFFF then
            some (Char.ofNat (0x10000 + 0x400 * (unit - 0xD800) + (low - 0xDC00)), rest)
          else none
      | _ => none
    else if 0xDC00 ≤ unit ∧ unit ≤ 0xDFFF then none
    else some (Char.ofNat unit, rest)

/-- The character that is written as a backslash and one other character. -/
def shortEscape? : Char → Option Char
  | '"' => some '"'
  | '\\' => some '\\'
  | '/' => some '/'
  | 'b' => some '\x08'
  | 'f' => some '\x0c'
  | 'n' => some '\n'
  | 'r' => some '\r'
  | 't' => some '\t'
  | _ => none

/-- One character of a string, and what stands after it. Quotes, backslashes and control characters
    are only there when they are escaped. -/
def stringChar? : List Char → Option (Char × List Char)
  | [] => none
  | '\\' :: 'u' :: rest => unicodeEscape? rest
  | '\\' :: c :: rest => (shortEscape? c).map fun char => (char, rest)
  | c :: rest => if c = '\\' ∨ c = '"' ∨ c.toNat < 0x20 then none else some (c, rest)

theorem length_codeUnit?_lt {cs rest : List Char} {unit : Nat}
    (h : codeUnit? cs = some (unit, rest)) : rest.length < cs.length := by
  unfold codeUnit? at h
  split at h
  · next a b c d more =>
    obtain ⟨digits, -, h⟩ := Option.bind_eq_some_iff.1 h
    cases h
    simp only [List.length_cons]
    omega
  · cases h

theorem length_unicodeEscape?_lt {cs rest : List Char} {c : Char}
    (h : unicodeEscape? cs = some (c, rest)) : rest.length < cs.length := by
  unfold unicodeEscape? at h
  split at h
  · cases h
  · next unit more hunit =>
    have hmore := length_codeUnit?_lt hunit
    split_ifs at h
    · split at h
      · next second =>
        split at h
        · cases h
        · next low tail hlow =>
          have htail := length_codeUnit?_lt hlow
          split_ifs at h
          obtain ⟨-, rfl⟩ := Prod.mk.inj (Option.some.inj h)
          simp only [List.length_cons] at hmore
          omega
      · cases h
    · obtain ⟨-, rfl⟩ := Prod.mk.inj (Option.some.inj h)
      exact hmore

theorem length_stringChar?_lt {cs rest : List Char} {c : Char}
    (h : stringChar? cs = some (c, rest)) : rest.length < cs.length := by
  unfold stringChar? at h
  split at h
  · cases h
  · next more =>
    have := length_unicodeEscape?_lt h
    simp only [List.length_cons]
    omega
  · next d more _ =>
    obtain ⟨char, -, h⟩ := Option.map_eq_some_iff.1 h
    cases h
    simp only [List.length_cons]
    omega
  · next d more _ _ =>
    split_ifs at h
    cases h
    simp only [List.length_cons]
    omega

/-- The characters of a string up to its closing quote, and what stands after the quote. -/
def stringChars? : List Char → Option (List Char × List Char)
  | [] => none
  | c :: cs =>
    if c = '"' then some ([], cs)
    else
      match _h : stringChar? (c :: cs) with
      | none => none
      | some (char, rest) =>
        (stringChars? rest).map fun string => (char :: string.1, string.2)
termination_by cs => cs.length
decreasing_by exact length_stringChar?_lt ‹_›

theorem length_stringChars?_lt {cs string rest : List Char}
    (h : stringChars? cs = some (string, rest)) : rest.length < cs.length := by
  fun_induction stringChars? cs generalizing string with
  | case1 => cases h
  | case2 more =>
    cases h
    simp
  | case3 => simp_all
  | case4 c cs _ char more hchar ih =>
    obtain ⟨⟨tail, final⟩, htail, heq⟩ := Option.map_eq_some_iff.1 h
    cases heq
    exact Nat.lt_trans (ih htail) (length_stringChar?_lt hchar)

/-! ## Tokens -/

/-- A piece of a text; white space is none. -/
inductive Token where
  | openList
  | closeList
  | openObject
  | closeObject
  | colon
  | comma
  | scalar (value : JsonScalar)
deriving DecidableEq, Repr

/-- Whether a character may stand between tokens. -/
def isSpace (c : Char) : Bool := c = ' ' ∨ c = '\t' ∨ c = '\n' ∨ c = '\r'

/-- The token that a character is by itself. -/
def punctuation? : Char → Option Token
  | '[' => some .openList
  | ']' => some .closeList
  | '\x7b' => some .openObject
  | '\x7d' => some .closeObject
  | ':' => some .colon
  | ',' => some .comma
  | _ => none

/-- Whether a character belongs to a number or a name such as `null`. -/
def isWordChar (c : Char) : Bool := !isSpace c && (punctuation? c).isNone && c != '"'

/-- Whether the characters are the exponent of a number, or nothing. -/
def isExponent : List Char → Bool
  | [] => true
  | c :: cs => (c = 'e' ∨ c = 'E') && Numeral.isDigits (Numeral.cutSign cs).2

/-- Whether the characters are what may follow the whole part of a number: a fraction and an
    exponent, both optional. -/
def isFraction : List Char → Bool
  | '.' :: cs =>
    !(cs.takeWhile isAsciiDigit).isEmpty && isExponent (cs.dropWhile isAsciiDigit)
  | cs => isExponent cs

/-- Whether the characters are a number without its sign. The whole part does not start with a zero
    unless it is one. -/
def isUnsigned : List Char → Bool
  | '0' :: cs => isFraction cs
  | cs => !(cs.takeWhile isAsciiDigit).isEmpty && isFraction (cs.dropWhile isAsciiDigit)

/-- Whether the characters are a number. -/
def isNumber : List Char → Bool
  | '-' :: cs => isUnsigned cs
  | cs => isUnsigned cs

/-- The scalar that is written as a name or a number. -/
def scalarOfWord? (word : List Char) : Option JsonScalar :=
  if word = "null".toList then some .null
  else if word = "true".toList then some (.boolean true)
  else if word = "false".toList then some (.boolean false)
  else if isNumber word then some (.number (String.ofList word))
  else none

/-- The tokens of a text. -/
def tokens? (cs : List Char) : Option (List Token) :=
  match cs with
  | [] => some []
  | c :: cs =>
    if isSpace c then tokens? cs
    else if c = '"' then
      match _h : stringChars? cs with
      | none => none
      | some (string, rest) =>
        (tokens? rest).map (.scalar (.string (String.ofList string)) :: ·)
    else
      match punctuation? c with
      | some token => (tokens? cs).map (token :: ·)
      | none =>
        match scalarOfWord? (c :: cs.takeWhile isWordChar) with
        | none => none
        | some scalar => (tokens? (cs.dropWhile isWordChar)).map (.scalar scalar :: ·)
termination_by cs.length
decreasing_by
  · simp
  · have := length_stringChars?_lt ‹_›
    simp only [List.length_cons]
    omega
  · simp
  · have := (List.dropWhile_sublist isWordChar (l := cs)).length_le
    simp only [List.length_cons]
    omega

/-! ## Values -/

/-- An open list or object, with what was read of it before the value at hand. -/
inductive Frame where
  | list (items : List JsonValue)
  | object (members : List (String × JsonValue)) (name : String)

/-- What may come next. -/
inductive Phase where
  /-- A value. -/
  | value
  /-- A first item, or the end of the list. -/
  | listStart
  /-- The name of a member, or the end of the object if it has just started. -/
  | name (members : List (String × JsonValue))
  /-- The colon after a name. -/
  | colon (members : List (String × JsonValue)) (name : String)
  /-- What follows a value. -/
  | done (value : JsonValue)

/-- Where in a text the next token stands: the open lists and objects, innermost first, and what
    may come next. -/
structure Position where
  stack : List Frame
  phase : Phase

namespace Position

/-- Before the first token. -/
def start : Position := ⟨[], .value⟩

/-- The position after the first token of a value. -/
def openValue (stack : List Frame) : Token → Option Position
  | .scalar value => some ⟨stack, .done (.scalar value)⟩
  | .openList => some ⟨stack, .listStart⟩
  | .openObject => some ⟨stack, .name []⟩
  | _ => none

/-- The position after a token that follows a value. -/
def afterValue (value : JsonValue) : List Frame → Token → Option Position
  | .list items :: stack, .comma => some ⟨.list (items ++ [value]) :: stack, .value⟩
  | .list items :: stack, .closeList => some ⟨stack, .done (.array (items ++ [value]))⟩
  | .object members name :: stack, .comma => some ⟨stack, .name (members ++ [(name, value)])⟩
  | .object members name :: stack, .closeObject =>
    some ⟨stack, .done (.object (members ++ [(name, value)]))⟩
  | _, _ => none

/-- The position after one more token. -/
def step (position : Position) (token : Token) : Option Position :=
  match position.phase with
  | .value => openValue position.stack token
  | .listStart =>
    if token = .closeList then some ⟨position.stack, .done (.array [])⟩
    else openValue (.list [] :: position.stack) token
  | .name members =>
    match token with
    | .scalar (.string name) => some ⟨position.stack, .colon members name⟩
    | .closeObject =>
      if members.isEmpty then some ⟨position.stack, .done (.object [])⟩ else none
    | _ => none
  | .colon members name =>
    if token = .colon then some ⟨.object members name :: position.stack, .value⟩ else none
  | .done value => afterValue value position.stack token

/-- The value, if the text may end here. -/
def finish? : Position → Option JsonValue
  | ⟨[], .done value⟩ => some value
  | _ => none

end Position

/-- What a position becomes by the rest of a text. -/
def readFrom (position : Position) (cs : List Char) : Option Position :=
  (tokens? cs).bind fun tokens => tokens.foldlM Position.step position

/-- The value that a JSON text writes. -/
def read? (text : String) : Option JsonValue :=
  (readFrom .start text.toList).bind Position.finish?

/-! ## What is read of a rendered string -/

theorem hexValue?_hexDigit : ∀ n < 16, hexValue? (hexDigit n) = some n := by decide

theorem codeUnit?_hexDigits {n : Nat} (h : n < 65536) (rest : List Char) :
    codeUnit? (hexDigits 4 n ++ rest) = some (n, rest) := by
  have hdigit : ∀ m, hexValue? (hexDigit (m % 16)) = some (m % 16) := fun m =>
    hexValue?_hexDigit _ (Nat.mod_lt _ (by decide))
  have hvalue : 16 * (16 * (16 * (n / 16 / 16 / 16 % 16) + n / 16 / 16 % 16) + n / 16 % 16) +
      n % 16 = n := by omega
  simp [codeUnit?, hexDigits, hdigit, hvalue]

/-- An escaped character is read back. -/
theorem stringChar?_escape (c : Char) (rest : List Char) :
    stringChar? (Json.escape c ++ rest) = some (c, rest) := by
  unfold Json.escape
  split_ifs with hquote hslash hfeed hreturn htab hbell hform hcontrol
  · rw [hquote]
    rfl
  · rw [hslash]
    rfl
  · rw [hfeed]
    rfl
  · rw [hreturn]
    rfl
  · rw [htab]
    rfl
  · rw [hbell]
    rfl
  · rw [hform]
    rfl
  · -- a control character is far below the surrogates, so its unit is no half of a pair
    have hunit : codeUnit? (hexDigits 4 c.toNat ++ rest) = some (c.toNat, rest) :=
      codeUnit?_hexDigits (by omega) rest
    show unicodeEscape? (hexDigits 4 c.toNat ++ rest) = some (c, rest)
    unfold unicodeEscape?
    rw [hunit]
    simp only
    rw [if_neg (by omega), if_neg (by omega), Char.ofNat_toNat]
  · simp [stringChar?, hslash, hquote, hcontrol]

theorem escape_ne_quote (c : Char) : ∃ first rest, Json.escape c = first :: rest ∧ first ≠ '"' := by
  unfold Json.escape
  split_ifs with hquote
  all_goals first
    | exact ⟨_, _, rfl, by decide⟩
    | exact ⟨c, [], rfl, hquote⟩

theorem stringChars?_of_stringChar? {c char : Char} {cs rest : List Char} (hquote : c ≠ '"')
    (h : stringChar? (c :: cs) = some (char, rest)) :
    stringChars? (c :: cs) =
      (stringChars? rest).map fun string => (char :: string.1, string.2) := by
  rw [stringChars?, if_neg hquote]
  split
  · next hnone => simp [h] at hnone
  · next char' rest' hsome =>
    rw [h] at hsome
    cases hsome
    rfl

/-- An escaped text is read back up to its closing quote. -/
theorem stringChars?_escape (cs rest : List Char) :
    stringChars? (cs.flatMap Json.escape ++ '"' :: rest) = some (cs, rest) := by
  induction cs with
  | nil => simp [stringChars?]
  | cons c cs ih =>
    obtain ⟨first, more, hescape, hquote⟩ := escape_ne_quote c
    have hchar := stringChar?_escape c (cs.flatMap Json.escape ++ '"' :: rest)
    rw [List.flatMap_cons, List.append_assoc]
    rw [hescape, List.cons_append] at hchar ⊢
    rw [stringChars?_of_stringChar? hquote hchar, ih]
    rfl

/-! ## What is read of a rendered value -/

section Reading

variable {position : Position} {cs rest : List Char}

/-- What a token at the front of a text does, when the rest is cut into tokens by itself. -/
theorem readFrom_of_tokens? {token : Token} (h : tokens? cs = (tokens? rest).map (token :: ·)) :
    readFrom position cs = (position.step token).bind fun next => readFrom next rest := by
  unfold readFrom
  rw [h]
  cases tokens? rest with
  | none => cases position.step token <;> rfl
  | some tokens => rfl

@[simp] theorem readFrom_nil : readFrom position [] = some position := by
  simp [readFrom, tokens?]

theorem readFrom_space {c : Char} (h : isSpace c = true) :
    readFrom position (c :: cs) = readFrom position cs := by
  unfold readFrom
  rw [tokens?, if_pos h]

theorem readFrom_punctuation {c : Char} {token : Token} (h : punctuation? c = some token) :
    readFrom position (c :: cs) = (position.step token).bind fun next => readFrom next cs := by
  have hother : isSpace c = false ∧ c ≠ '"' := by
    unfold punctuation? at h
    split at h
    all_goals first
      | exact ⟨by decide, by decide⟩
      | cases h
  refine readFrom_of_tokens? ?_
  rw [tokens?, if_neg (by simp [hother.1]), if_neg hother.2, h]

theorem readFrom_quoted (value : String) :
    readFrom position ((Json.quoted value).toList ++ rest) =
      (position.step (.scalar (.string value))).bind fun next => readFrom next rest := by
  have hchars : (Json.quoted value).toList ++ rest =
      '"' :: (value.toList.flatMap Json.escape ++ '"' :: rest) := by
    simp [Json.quoted]
  refine readFrom_of_tokens? ?_
  rw [hchars, tokens?, if_neg (by decide), if_pos rfl]
  split
  · next hnone => simp [stringChars?_escape] at hnone
  · next string more hsome =>
    rw [stringChars?_escape] at hsome
    cases hsome
    rw [String.ofList_toList]

/-- No number or name goes on in the text. -/
def Delimited (cs : List Char) : Prop := ∀ c ∈ cs.head?, isWordChar c = false

theorem readFrom_null (h : Delimited rest) :
    readFrom position ("null".toList ++ rest) =
      (position.step (.scalar .null)).bind fun next => readFrom next rest := by
  have hword : ("ull".toList ++ rest).takeWhile isWordChar = "ull".toList ∧
      ("ull".toList ++ rest).dropWhile isWordChar = rest := by
    have hall : ∀ c ∈ "ull".toList, isWordChar c = true := List.all_eq_true.1 (by decide)
    rw [List.takeWhile_append_of_pos hall, List.dropWhile_append_of_pos hall]
    cases rest with
    | nil => simp
    | cons c rest => simp [h c rfl]
  refine readFrom_of_tokens? ?_
  -- the reader scans a word once its first letter is neither a space nor a quote
  show tokens? ('n' :: ("ull".toList ++ rest)) = _
  rw [tokens?, if_neg (by decide), if_neg (by decide), hword.1, hword.2]
  rfl

theorem readFrom_newline (level : Nat) :
    readFrom position ((Json.newline level).toList ++ rest) = readFrom position rest := by
  have hspaces : ∀ n, readFrom position (List.replicate n ' ' ++ rest) =
      readFrom position rest := by
    intro n
    induction n with
    | zero => rfl
    | succ n ih => rw [List.replicate_succ, List.cons_append, readFrom_space (by decide), ih]
  have hchars : (Json.newline level).toList ++ rest =
      '\n' :: (List.replicate (2 * level) ' ' ++ rest) := by
    simp [Json.newline]
  rw [hchars, readFrom_space (by decide), hspaces]

end Reading

end JsonReader

/-! ## Rendered values -/

namespace Json

theorem sizeOf_member_lt {member : String × Json} {members : List (String × Json)}
    (h : member ∈ members) : sizeOf member.2 < sizeOf members := by
  have hmember : sizeOf member = 1 + sizeOf member.1 + sizeOf member.2 := by cases member; rfl
  have hmembers := List.sizeOf_lt_of_mem h
  omega

/-- What holds of every value, given that it holds of a list if it holds of its items, and of an
    object if it holds of the values of its members. -/
theorem induction {P : Json → Prop} (null : P .null) (text : ∀ value, P (.text value))
    (list : ∀ items, (∀ item ∈ items, P item) → P (.list items))
    (object : ∀ members : List (String × Json), (∀ member ∈ members, P member.2) →
      P (.object members)) : ∀ value, P value
  | .null => null
  | .text value => text value
  | .list items => list items fun item _ => induction null text list object item
  | .object members => object members fun member _ => induction null text list object member.2
termination_by value => sizeOf value
decreasing_by
  · have := List.sizeOf_lt_of_mem ‹_›
    simp only [Json.list.sizeOf_spec]
    omega
  · have := sizeOf_member_lt ‹_›
    simp only [Json.object.sizeOf_spec]
    omega

/-- A value as a JSON value. -/
def toValue : Json → JsonValue
  | .null => .scalar .null
  | .text value => .scalar (.string value)
  | .list items => .array (items.map toValue)
  | .object members => .object (members.map fun member => (member.1, toValue member.2))
termination_by value => sizeOf value
decreasing_by
  · have := List.sizeOf_lt_of_mem ‹_›
    simp only [list.sizeOf_spec]
    omega
  · have := sizeOf_member_lt ‹_›
    simp only [object.sizeOf_spec]
    omega

end Json

namespace JsonReader

variable {position : Position} {stack : List Frame} {rest : List Char}

/-- A value of the stack may come at the position; at the start of a list, that is an item. -/
def Awaits (position : Position) (stack : List Frame) : Prop :=
  ∀ token, token ≠ .closeList → position.step token = Position.openValue stack token

theorem awaits_value (stack : List Frame) : Awaits ⟨stack, .value⟩ stack := fun _ _ => rfl

theorem awaits_listStart (stack : List Frame) : Awaits ⟨stack, .listStart⟩ (.list [] :: stack) :=
  fun _ h => if_neg h

theorem delimited_cons {c : Char} {cs : List Char} (h : isWordChar c = false) :
    Delimited (c :: cs) := by
  intro d hd
  cases hd
  exact h

/-- A value is read wherever one is awaited, and the reader goes on behind it. -/
def ReadsBack (value : Json) : Prop :=
  ∀ (level : Nat) (position : Position) (stack : List Frame) (rest : List Char),
    Awaits position stack → Delimited rest →
      readFrom position ((Json.renderAt level value).toList ++ rest) =
        readFrom ⟨stack, .done value.toValue⟩ rest

/-- Behind a value stands a comma or a line break. -/
theorem delimited_append_newline {text : String} (level : Nat)
    (h : text = "" ∨ ∃ more, text = "," ++ more) :
    Delimited (text.toList ++ ((Json.newline level).toList ++ rest)) := by
  rcases h with rfl | ⟨more, rfl⟩
  · have hbreak : ∃ cs, "".toList ++ ((Json.newline level).toList ++ rest) = '\n' :: cs :=
      ⟨_, by simp only [Json.newline, String.toList_append]; rfl⟩
    obtain ⟨cs, hbreak⟩ := hbreak
    rw [hbreak]
    exact delimited_cons (by decide)
  · rw [String.toList_append]
    show Delimited (',' :: _)
    exact delimited_cons (by decide)

theorem delimited_renderItems (inner outer : Nat) (items : List Json) :
    Delimited ((Json.renderItems inner items).toList ++ ((Json.newline outer).toList ++ rest)) := by
  refine delimited_append_newline outer ?_
  cases items with
  | nil => exact .inl rfl
  | cons item more => exact .inr ⟨_, by simp only [Json.renderItems, String.append_assoc]; rfl⟩

theorem delimited_renderMembers (inner outer : Nat) (members : List (String × Json)) :
    Delimited
      ((Json.renderMembers inner members).toList ++ ((Json.newline outer).toList ++ rest)) := by
  refine delimited_append_newline outer ?_
  cases members with
  | nil => exact .inl rfl
  | cons member more => exact .inr ⟨_, by simp only [Json.renderMembers, String.append_assoc]; rfl⟩

/-- The items after the first are read, and the end of the list closes it. -/
theorem readFrom_renderItems {inner outer : Nat} {items : List Json}
    (h : ∀ item ∈ items, ReadsBack item) (before : List JsonValue) (value : JsonValue) :
    readFrom ⟨.list before :: stack, .done value⟩ ((Json.renderItems inner items).toList ++
        ((Json.newline outer).toList ++ ']' :: rest)) =
      readFrom ⟨stack, .done (.array (before ++ value :: items.map Json.toValue))⟩ rest := by
  induction items generalizing before value with
  | nil =>
    show readFrom _ ((Json.newline outer).toList ++ ']' :: rest) = _
    rw [readFrom_newline, readFrom_punctuation rfl]
    rfl
  | cons item more ih =>
    rw [List.forall_mem_cons] at h
    have hchars : (Json.renderItems inner (item :: more)).toList ++
        ((Json.newline outer).toList ++ ']' :: rest) =
        ',' :: ((Json.newline inner).toList ++ ((Json.renderAt inner item).toList ++
          ((Json.renderItems inner more).toList ++
            ((Json.newline outer).toList ++ ']' :: rest)))) := by
      simp [Json.renderItems]
    rw [hchars, readFrom_punctuation rfl]
    -- the comma has put the finished value behind the ones before it
    show readFrom ⟨.list (before ++ [value]) :: stack, .value⟩ _ = _
    rw [readFrom_newline,
      h.1 inner _ _ _ (awaits_value _) (delimited_renderItems inner outer more), ih h.2]
    simp

theorem readFrom_renderMember {level : Nat} {name : String} {value : Json} (h : ReadsBack value)
    (before : List (String × JsonValue)) (hrest : Delimited rest) :
    readFrom ⟨stack, .name before⟩ ((Json.renderMember level (name, value)).toList ++ rest) =
      readFrom ⟨.object before name :: stack, .done value.toValue⟩ rest := by
  have hchars : (Json.renderMember level (name, value)).toList ++ rest =
      (Json.quoted name).toList ++
        (':' :: ' ' :: ((Json.renderAt level value).toList ++ rest)) := by
    simp [Json.renderMember]
  rw [hchars, readFrom_quoted]
  show readFrom ⟨stack, .colon before name⟩ _ = _
  rw [readFrom_punctuation rfl]
  show readFrom ⟨.object before name :: stack, .value⟩ _ = _
  rw [readFrom_space (by decide), h level _ _ _ (awaits_value _) hrest]

/-- The members after the first are read, and the end of the object closes it. -/
theorem readFrom_renderMembers {inner outer : Nat} {members : List (String × Json)}
    (h : ∀ member ∈ members, ReadsBack member.2) (before : List (String × JsonValue))
    (name : String) (value : JsonValue) :
    readFrom ⟨.object before name :: stack, .done value⟩
        ((Json.renderMembers inner members).toList ++
          ((Json.newline outer).toList ++ '\x7d' :: rest)) =
      readFrom ⟨stack, .done (.object (before ++ (name, value) ::
        members.map fun member => (member.1, member.2.toValue)))⟩ rest := by
  induction members generalizing before name value with
  | nil =>
    show readFrom _ ((Json.newline outer).toList ++ '\x7d' :: rest) = _
    rw [readFrom_newline, readFrom_punctuation rfl]
    rfl
  | cons member more ih =>
    rw [List.forall_mem_cons] at h
    have hchars : (Json.renderMembers inner (member :: more)).toList ++
        ((Json.newline outer).toList ++ '\x7d' :: rest) =
        ',' :: ((Json.newline inner).toList ++ ((Json.renderMember inner member).toList ++
          ((Json.renderMembers inner more).toList ++
            ((Json.newline outer).toList ++ '\x7d' :: rest)))) := by
      simp [Json.renderMembers]
    rw [hchars, readFrom_punctuation rfl]
    show readFrom ⟨stack, .name (before ++ [(name, value)])⟩ _ = _
    rw [readFrom_newline,
      readFrom_renderMember h.1 _ (delimited_renderMembers inner outer more), ih h.2]
    simp

/-- Every rendered value is read back. -/
theorem readsBack (value : Json) : ReadsBack value := by
  -- in a list and in an object, the first entry is read by itself and the others behind it,
  -- because only they start with a comma
  induction value using Json.induction with
  | null =>
    intro level position stack rest hawaits hrest
    show readFrom position ("null".toList ++ rest) = _
    rw [readFrom_null hrest, hawaits _ (by decide), Json.toValue]
    rfl
  | text value =>
    intro level position stack rest hawaits hrest
    show readFrom position ((Json.quoted value).toList ++ rest) = _
    rw [readFrom_quoted, hawaits _ (by simp), Json.toValue]
    rfl
  | list items ih =>
    intro level position stack rest hawaits hrest
    cases items with
    | nil =>
      have hchars : (Json.renderAt level (.list [])).toList ++ rest = '[' :: ']' :: rest := by
        simp [Json.renderAt]
      rw [hchars, readFrom_punctuation rfl, hawaits _ (by decide), Json.toValue]
      show readFrom ⟨stack, .listStart⟩ (']' :: rest) = _
      rw [readFrom_punctuation rfl]
      rfl
    | cons item more =>
      rw [List.forall_mem_cons] at ih
      have hchars : (Json.renderAt level (.list (item :: more))).toList ++ rest =
          '[' :: ((Json.newline (level + 1)).toList ++ ((Json.renderAt (level + 1) item).toList ++
            ((Json.renderItems (level + 1) more).toList ++
              ((Json.newline level).toList ++ ']' :: rest)))) := by
        simp [Json.renderAt]
      rw [hchars, readFrom_punctuation rfl, hawaits _ (by decide)]
      show readFrom ⟨stack, .listStart⟩ _ = _
      rw [readFrom_newline, ih.1 (level + 1) _ _ _ (awaits_listStart stack)
        (delimited_renderItems (level + 1) level more), readFrom_renderItems ih.2, Json.toValue]
      rfl
  | object members ih =>
    intro level position stack rest hawaits hrest
    cases members with
    | nil =>
      have hchars : (Json.renderAt level (.object [])).toList ++ rest =
          '\x7b' :: '\x7d' :: rest := by
        simp [Json.renderAt]
      rw [hchars, readFrom_punctuation rfl, hawaits _ (by decide), Json.toValue]
      show readFrom ⟨stack, .name []⟩ ('\x7d' :: rest) = _
      rw [readFrom_punctuation rfl]
      rfl
    | cons member more =>
      rw [List.forall_mem_cons] at ih
      have hchars : (Json.renderAt level (.object (member :: more))).toList ++ rest =
          '\x7b' :: ((Json.newline (level + 1)).toList ++
            ((Json.renderMember (level + 1) member).toList ++
              ((Json.renderMembers (level + 1) more).toList ++
                ((Json.newline level).toList ++ '\x7d' :: rest)))) := by
        simp [Json.renderAt]
      rw [hchars, readFrom_punctuation rfl, hawaits _ (by decide)]
      show readFrom ⟨stack, .name []⟩ _ = _
      rw [readFrom_newline, readFrom_renderMember ih.1 _
        (delimited_renderMembers (level + 1) level more), readFrom_renderMembers ih.2, Json.toValue]
      rfl

/-- The text of a value is a JSON text that writes this value. -/
theorem read?_render (value : Json) : read? value.render = some value.toValue := by
  have h := readsBack value 0 .start [] [] (awaits_value []) (by simp [Delimited])
  rw [List.append_nil] at h
  unfold read? Json.render
  rw [h, readFrom_nil]
  rfl

end JsonReader

end FeatureFile
