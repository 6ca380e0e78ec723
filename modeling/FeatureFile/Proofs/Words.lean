import FeatureFile.Text.Casing

set_option autoImplicit false

/-! # Names are made of words

A name in Pascal or camel case is put together from the words of a text, so a separator in the text
splits the name: what is left of it and what is right of it can be named on their own
(`pascalChars_append_cons`, `camelChars_append_cons`). `Worded` says which words a text has without
cutting it up, and `worded_iff` that they are the pieces that are not empty. The name depends on
little more: in Pascal case on the words alone, in camel case also on whether a separator stands
before the first of them (`names_of_words`). -/

namespace FeatureFile.Text

/-- Everything but word characters separates words, and the underscore does too. -/
theorem isSeparator_iff {c : Char} :
    isSeparator c = true ↔ isWordChar c = false ∨ c = '_' := by
  have hunderscore : c = '_' → isWordChar c = false := by
    rintro rfl
    decide +kernel
  rw [isSeparator, Bool.not_eq_true', or_iff_left_of_imp hunderscore]

section Separators

variable {s : Char} {cs word : List Char}

/-! ## Names at a separator -/

/-- A separator splits a name in Pascal case. -/
theorem pascalChars_append_cons (hs : isSeparator s = true) (before after : List Char) :
    pascalChars (before ++ s :: after) = pascalChars before ++ pascalChars after := by
  rw [pascalChars, piecesAt_append_cons hs, List.flatMap_append]
  rfl

/-- A separator splits a name in camel case; behind it every word starts in upper case. -/
theorem camelChars_append_cons (hs : isSeparator s = true) (before after : List Char) :
    camelChars (before ++ s :: after) = camelChars before ++ pascalChars after := by
  obtain ⟨first, rest, hbefore⟩ :=
    List.exists_cons_of_ne_nil (piecesAt_ne_nil isSeparator before)
  simp only [camelChars, piecesAt_append_cons hs, hbefore, List.cons_append, List.flatMap_append,
    List.append_assoc]
  rfl

/-- One word has its first character in upper case. -/
theorem pascalChars_word (h : ∀ c ∈ word, isSeparator c = false) :
    pascalChars word = capitalize word := by
  rw [pascalChars, piecesAt_of_forall_not h, List.flatMap_cons, List.flatMap_nil, List.append_nil]

/-- One word is its own name in camel case. -/
theorem camelChars_word (h : ∀ c ∈ word, isSeparator c = false) : camelChars word = word := by
  rw [camelChars, piecesAt_of_forall_not h]
  exact List.append_nil word

/-! ## The words of a text -/

/-- The words of a text, in order: the longest runs of characters that separate nothing. -/
inductive Worded : List (List Char) → List Char → Prop where
  | nil : Worded [] []
  | separator {ws : List (List Char)} {cs : List Char} {s : Char}
      (separates : isSeparator s = true) (rest : Worded ws cs) : Worded ws (s :: cs)
  | word {ws : List (List Char)} {cs word : List Char} (nonempty : word ≠ [])
      (unseparated : ∀ c ∈ word, isSeparator c = false)
      (ends : ∀ c, cs.head? = some c → isSeparator c = true) (rest : Worded ws cs) :
      Worded (word :: ws) (word ++ cs)

/-- Every text has words, if only none. -/
theorem exists_worded (cs : List Char) : ∃ ws, Worded ws cs := by
  induction cs with
  | nil => exact ⟨[], .nil⟩
  | cons c cs ih =>
    obtain ⟨ws, hws⟩ := ih
    by_cases hc : isSeparator c = true
    · exact ⟨ws, .separator hc hws⟩
    · rw [Bool.not_eq_true] at hc
      have hword : ∀ d ∈ [c], isSeparator d = false := by simpa using hc
      -- the character is a word of its own, or the first one of the word that follows
      cases hws with
      | nil => exact ⟨[[c]], .word (by simp) hword (by simp) .nil⟩
      | separator separates rest =>
        exact ⟨[c] :: ws, .word (by simp) hword (by simpa using separates)
          (.separator separates rest)⟩
      | @word ws cs word nonempty unseparated ends rest =>
        exact ⟨(c :: word) :: ws, .word (by simp) (List.forall_mem_cons.2 ⟨hc, unseparated⟩) ends
          rest⟩

/-- The pieces between separators that are not empty. -/
def words (cs : List Char) : List (List Char) :=
  (piecesAt isSeparator cs).filter fun piece => piece ≠ []

theorem words_append_cons (hs : isSeparator s = true) (before after : List Char) :
    words (before ++ s :: after) = words before ++ words after := by
  rw [words, piecesAt_append_cons hs, List.filter_append]
  rfl

theorem words_word (nonempty : word ≠ []) (h : ∀ c ∈ word, isSeparator c = false) :
    words word = [word] := by
  rw [words, piecesAt_of_forall_not h]
  simp [nonempty]

theorem Worded.words_eq {ws : List (List Char)} (h : Worded ws cs) : words cs = ws := by
  induction h with
  | nil => rfl
  | separator separates _ ih => exact (words_append_cons separates [] _).trans ih
  | @word ws cs word nonempty unseparated ends _ ih =>
    cases cs with
    | nil => rw [List.append_nil, words_word nonempty unseparated, ← ih]; rfl
    | cons s rest =>
      have hs : isSeparator s = true := ends s rfl
      have hrest : words rest = ws := (words_append_cons hs [] rest).symm.trans ih
      rw [words_append_cons hs, words_word nonempty unseparated, hrest]
      rfl

/-- A text has the words that are cut out of it, and no others. -/
theorem worded_iff {ws : List (List Char)} : Worded ws cs ↔ words cs = ws := by
  constructor
  · exact Worded.words_eq
  · intro h
    obtain ⟨others, hothers⟩ := exists_worded cs
    rw [← h, hothers.words_eq]
    exact hothers

instance (ws : List (List Char)) (cs : List Char) : Decidable (Worded ws cs) :=
  decidable_of_iff _ worded_iff.symm

/-! ## Names and words -/

/-- An empty piece adds nothing to a name. -/
theorem flatMap_capitalize_filter (pieces : List (List Char)) :
    (pieces.filter fun piece => piece ≠ []).flatMap capitalize = pieces.flatMap capitalize := by
  induction pieces with
  | nil => rfl
  | cons piece pieces ih =>
    by_cases hpiece : piece = []
    · rw [List.filter_cons_of_neg (by simpa using hpiece), ih, hpiece]
      rfl
    · rw [List.filter_cons_of_pos (by simpa using hpiece), List.flatMap_cons, ih,
        List.flatMap_cons]

/-- The name of a text in Pascal case depends on its words alone. -/
theorem pascalChars_eq (cs : List Char) : pascalChars cs = (words cs).flatMap capitalize :=
  (flatMap_capitalize_filter _).symm

/-- Whether a separator comes first. -/
def startsSeparated (cs : List Char) : Bool := cs.head?.any isSeparator

/-- In camel case the first word is kept as it is, unless a separator stands before it. -/
theorem camelChars_eq (cs : List Char) :
    camelChars cs =
      if startsSeparated cs then (words cs).flatMap capitalize
      else (words cs).head?.getD [] ++ (words cs).tail.flatMap capitalize := by
  cases cs with
  | nil => rfl
  | cons c cs =>
    by_cases hc : isSeparator c = true
    · have hcamel : camelChars (c :: cs) = pascalChars cs := camelChars_append_cons hc [] cs
      have hwords : words (c :: cs) = words cs := words_append_cons hc [] cs
      rw [hcamel, hwords, pascalChars_eq, startsSeparated, List.head?_cons, Option.any_some,
        if_pos hc]
    · -- the first piece is not empty, so it is the first word
      obtain ⟨piece, rest, hrest⟩ := List.exists_cons_of_ne_nil (piecesAt_ne_nil isSeparator cs)
      have hpieces : piecesAt isSeparator (c :: cs) = (c :: piece) :: rest := by
        rw [piecesAt, if_neg hc, hrest]
        rfl
      have hwords : words (c :: cs) = (c :: piece) :: rest.filter fun piece => piece ≠ [] := by
        rw [words, hpieces, List.filter_cons_of_pos (by simp)]
      rw [hwords, List.head?_cons, Option.getD_some, List.tail_cons, flatMap_capitalize_filter,
        startsSeparated, List.head?_cons, Option.any_some, if_neg hc, camelChars, hpieces]

end Separators

/-- What names are made of. A separator splits a name; a text without separators is its own name in
    camel case, and has its first character in upper case in Pascal case. Every text has words, and
    texts with the same words have the same name in Pascal case, however they are separated. They
    have the same name in camel case too, unless a separator comes before the first word of only one
    of them. -/
theorem names_of_words :
    (∀ (a b : String) (s : Char), isWordChar s = false ∨ s = '_' →
      pascal (a ++ String.singleton s ++ b) = pascal a ++ pascal b ∧
      camel (a ++ String.singleton s ++ b) = camel a ++ pascal b) ∧
    (∀ a : String, (∀ c ∈ a.toList, ¬(isWordChar c = false ∨ c = '_')) →
      camel a = a ∧
      (pascal a).toList = match a.toList with
        | [] => []
        | c :: cs => upperChar c ++ cs) ∧
    (∀ a : String, ∃ ws, Worded ws a.toList) ∧
    ∀ (a b : String) (ws : List (List Char)), Worded ws a.toList → Worded ws b.toList →
      pascal a = pascal b ∧
      ((ws ≠ [] → startsSeparated a.toList = startsSeparated b.toList) → camel a = camel b) := by
  refine ⟨?_, ?_, fun a => exists_worded a.toList, ?_⟩
  · intro a b s hs
    have hsep : isSeparator s = true := isSeparator_iff.2 hs
    have hchars : (a ++ String.singleton s ++ b).toList = a.toList ++ s :: b.toList := by simp
    simp only [pascal, camel, hchars, pascalChars_append_cons hsep, camelChars_append_cons hsep,
      String.ofList_append, and_self]
  · intro a ha
    have hword : ∀ c ∈ a.toList, isSeparator c = false := fun c hc =>
      Bool.eq_false_iff.2 fun hsep => ha c hc (isSeparator_iff.1 hsep)
    rw [camel, camelChars_word hword, pascal, pascalChars_word hword, String.ofList_toList,
      String.toList_ofList]
    exact ⟨rfl, by cases a.toList <;> rfl⟩
  · intro a b ws ha hb
    have hwords : words a.toList = words b.toList := ha.words_eq.trans hb.words_eq.symm
    constructor
    · rw [pascal, pascal, pascalChars_eq, pascalChars_eq, hwords]
    · intro hstart
      rw [camel, camel, camelChars_eq, camelChars_eq, hwords]
      by_cases hne : ws = []
      · rw [hb.words_eq, hne]
        simp
      · rw [hstart hne]

/-- A label and a placeholder with the same words: only the separators between and behind them
    differ, and there are more of them in the second. -/
theorem names_of_separated_label :
    (isWordChar '-' = false ∧ pascal "ßa-ŉ" = "SSaʼN" ∧ camel "ßa-ŉ" = "ßaʼN") ∧
    ((∀ c ∈ "ßa".toList, ¬(isWordChar c = false ∨ c = '_')) ∧ camel "ßa" = "ßa" ∧
      (pascal "ßa").toList = upperChar 'ß' ++ ['a']) ∧
    Worded ["noise".toList, "level".toList] "noise level".toList ∧
    Worded ["noise".toList, "level".toList] "noise_- level.".toList ∧
    pascal "noise level" = pascal "noise_- level." ∧
    camel "noise level" = camel "noise_- level." := by
  have hdash : isWordChar '-' = false := by decide +kernel
  have hunseparated : ∀ c ∈ "ßa".toList, ¬(isWordChar c = false ∨ c = '_') := by
    intro c hc
    have hcases : c = 'ß' ∨ c = 'a' := by simpa using hc
    rcases hcases with rfl | rfl <;> decide +kernel
  have hlabel : Worded ["noise".toList, "level".toList] "noise level".toList := by decide +kernel
  have hplaceholder : Worded ["noise".toList, "level".toList] "noise_- level.".toList := by
    decide +kernel
  obtain ⟨hsplit, hword, -, hsame⟩ := names_of_words
  obtain ⟨hpascal, hcamel⟩ := hsplit "ßa" "ŉ" '-' (.inl hdash)
  obtain ⟨hlabelPascal, hlabelCamel⟩ := hsame _ _ _ hlabel hplaceholder
  exact ⟨⟨hdash, hpascal.trans (by decide +kernel), hcamel.trans (by decide +kernel)⟩,
    ⟨hunseparated, hword "ßa" hunseparated⟩, hlabel, hplaceholder, hlabelPascal,
    hlabelCamel fun _ => by decide +kernel⟩

end FeatureFile.Text
