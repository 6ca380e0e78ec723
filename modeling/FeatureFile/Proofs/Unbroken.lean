import FeatureFile.Export.Fixture
import FeatureFile.Json
import FeatureFile.Proofs.Spelling
import Mathlib.Data.List.Basic

set_option autoImplicit false

/-! # Texts that stay on their line

A text is unbroken if it holds no character that ends a line. What an export makes of an unbroken
text is unbroken again: names in Pascal and camel case, escaped strings, and the arguments and
steps that are put together from them. -/

namespace FeatureFile

open Text

@[simp] theorem unbroken_append {s t : String} : Unbroken (s ++ t) ↔ Unbroken s ∧ Unbroken t := by
  simp only [Unbroken, String.toList_append, List.mem_append, or_imp, forall_and]

theorem unbroken_intercalate {sep : String} {texts : List String} (hsep : Unbroken sep)
    (h : ∀ t ∈ texts, Unbroken t) : Unbroken (String.intercalate sep texts) := by
  induction texts with
  | nil =>
    intro c hc
    simp at hc
  | cons t rest ih =>
    rw [List.forall_mem_cons] at h
    cases rest with
    | nil => simpa using h.1
    | cons u rest =>
      rw [String.intercalate_cons_cons]
      exact unbroken_append.2 ⟨unbroken_append.2 ⟨h.1, hsep⟩, ih h.2⟩

/-- The lines of a text are unbroken. -/
theorem unbroken_of_mem_splitLines {s line : String} (h : line ∈ splitLines s) :
    Unbroken line := by
  obtain ⟨cs, hcs, rfl⟩ := List.mem_map.1 h
  intro c hc
  exact not_isLineBreak_of_mem_lineChars _ cs hcs c (by simpa using hc)

/-! ## Names -/

theorem exists_of_inRanges {ranges : List (Nat × Nat)} {n : Nat} (h : inRanges ranges n = true) :
    ∃ range ∈ ranges, range.1 ≤ n ∧ n ≤ range.2 := by
  induction ranges with
  | nil => simp [inRanges] at h
  | cons range rest ih =>
    rw [inRanges] at h
    split at h
    · next hle => exact ⟨range, by simp, by simpa using h, hle⟩
    · obtain ⟨other, hmem, hother⟩ := ih h
      exact ⟨other, List.mem_cons_of_mem _ hmem, hother⟩

/-- A run maps into its target. -/
theorem exists_of_mapRuns (runs : List (Nat × Nat × Nat × Nat)) (n : Nat) :
    mapRuns runs n = n ∨ ∃ first last step target, (first, last, step, target) ∈ runs ∧
      target ≤ mapRuns runs n ∧ mapRuns runs n ≤ target + (last - first) := by
  induction runs with
  | nil => exact .inl rfl
  | cons run rest ih =>
    obtain ⟨first, last, step, target⟩ := run
    rw [mapRuns]
    split_ifs with hlast hfirst
    · exact .inr ⟨first, last, step, target, by simp, by omega, by omega⟩
    · exact .inl rfl
    · obtain ih | ⟨first', last', step', target', hmem, hrange⟩ := ih
      · exact .inl ih
      · exact .inr ⟨first', last', step', target', List.mem_cons_of_mem _ hmem, hrange⟩

theorem inRanges_ofNat {ranges : List (Nat × Nat)} {n : Nat} (hzero : inRanges ranges 0 = false)
    (h : inRanges ranges n = false) : inRanges ranges (Char.ofNat n).toNat = false := by
  by_cases hvalid : n.isValidChar
  · rw [Char.ofNat, dif_pos hvalid]
    exact h
  · rw [Char.ofNat, dif_neg hvalid]
    exact hzero

/-- The upper case of a character outside some ranges is outside of them, if no target of a run and
    no expansion is inside. -/
theorem inRanges_of_mem_upperChar {ranges : List (Nat × Nat)} (hzero : inRanges ranges 0 = false)
    (hruns : ∀ run ∈ upperRuns, ∀ range ∈ ranges,
      range.2 < run.2.2.2 ∨ run.2.2.2 + (run.2.1 - run.1) < range.1)
    (hexpansions : ∀ entry ∈ upperExpansions, ∀ code ∈ entry.2, inRanges ranges code = false)
    {c d : Char} (hc : inRanges ranges c.toNat = false) (hd : d ∈ upperChar c) :
    inRanges ranges d.toNat = false := by
  unfold upperChar at hd
  split at hd
  · next codes hlookup =>
    obtain ⟨before, after, hsplit, -⟩ := List.lookup_eq_some_iff.1 hlookup
    obtain ⟨code, hcode, rfl⟩ := List.mem_map.1 hd
    exact inRanges_ofNat hzero (hexpansions (c.toNat, codes) (by simp [hsplit]) code hcode)
  · rw [List.mem_singleton.1 hd]
    refine inRanges_ofNat hzero (Bool.eq_false_iff.2 fun hinside => ?_)
    obtain hself | ⟨first, last, step, target, hmem, hlow, hhigh⟩ :=
      exists_of_mapRuns upperRuns c.toNat
    · rw [hself, hc] at hinside
      exact absurd hinside (by decide)
    · obtain ⟨range, hrange, hge, hle⟩ := exists_of_inRanges hinside
      have := hruns _ hmem range hrange
      simp only at this
      omega

/-- The upper case of a character that ends no line ends no line. -/
theorem isLineBreak_of_mem_upperChar {c d : Char} (hc : isLineBreak c = false)
    (hd : d ∈ upperChar c) : isLineBreak d = false :=
  inRanges_of_mem_upperChar (by decide) (by decide +kernel) (by decide +kernel) hc hd

section Casing

variable {p : Char → Prop} (hupper : ∀ c d, p c → d ∈ upperChar c → p d) {s : String}
include hupper

theorem forall_mem_capitalize {cs : List Char} (h : ∀ c ∈ cs, p c) : ∀ c ∈ capitalize cs, p c := by
  cases cs with
  | nil => simp [capitalize]
  | cons c cs =>
    rw [List.forall_mem_cons] at h
    intro d hd
    rcases List.mem_append.1 hd with hd | hd
    · exact hupper c d h.1 hd
    · exact h.2 d hd

/-- What the words of a text consist of, its name in Pascal case consists of. -/
theorem forall_mem_pascal (h : ∀ c ∈ s.toList, isSeparator c = false → p c) :
    ∀ c ∈ (pascal s).toList, p c := by
  intro c hc
  rw [pascal, String.toList_ofList] at hc
  obtain ⟨piece, hpiece, hc⟩ := List.mem_flatMap.1 hc
  exact forall_mem_capitalize hupper (fun d hd =>
    h d (piecesAt_subset _ _ piece hpiece hd) (not_of_mem_piecesAt hpiece hd)) c hc

theorem forall_mem_camel (h : ∀ c ∈ s.toList, isSeparator c = false → p c) :
    ∀ c ∈ (camel s).toList, p c := by
  intro c hc
  rw [camel, String.toList_ofList, camelChars] at hc
  have hpieces : ∀ piece ∈ piecesAt isSeparator s.toList, ∀ d ∈ piece, p d :=
    fun piece hpiece d hd =>
      h d (piecesAt_subset _ _ piece hpiece hd) (not_of_mem_piecesAt hpiece hd)
  cases hcut : piecesAt isSeparator s.toList with
  | nil => simp [hcut] at hc
  | cons first rest =>
    rw [hcut, List.forall_mem_cons] at hpieces
    rw [hcut] at hc
    rcases List.mem_append.1 hc with hc | hc
    · exact hpieces.1 c hc
    · obtain ⟨piece, hpiece, hc⟩ := List.mem_flatMap.1 hc
      exact forall_mem_capitalize hupper (hpieces.2 piece hpiece) c hc

end Casing

theorem unbroken_pascal {s : String} (h : Unbroken s) : Unbroken (pascal s) :=
  forall_mem_pascal (fun _ _ => isLineBreak_of_mem_upperChar) fun c hc _ => h c hc

theorem unbroken_camel {s : String} (h : Unbroken s) : Unbroken (camel s) :=
  forall_mem_camel (fun _ _ => isLineBreak_of_mem_upperChar) fun c hc _ => h c hc

/-! ## Strings -/

theorem unbroken_regular {s : String} (h : Unbroken s) : Unbroken (Literal.regular s) := by
  intro c hc
  rw [Literal.regular, String.toList_ofList, Literal.regularChars] at hc
  obtain ⟨d, hd, hc⟩ := List.mem_flatMap.1 hc
  split at hc
  · rcases List.mem_cons.1 hc with rfl | hc
    · decide
    · rw [List.mem_singleton.1 hc]
      exact h d hd
  · rw [List.mem_singleton.1 hc]
    exact h d hd

theorem isLineBreak_of_mem_hexDigits {width n : Nat} {c : Char} (h : c ∈ hexDigits width n) :
    isLineBreak c = false := by
  induction width generalizing n with
  | zero => simp [hexDigits] at h
  | succ width ih =>
    rcases List.mem_append.1 h with h | h
    · exact ih h
    · have hdigit : ∀ m < 16, isLineBreak (hexDigit m) = false := by decide
      rw [List.mem_singleton.1 h]
      exact hdigit _ (Nat.mod_lt _ (by decide))

theorem isLineBreak_of_mem_escape {c d : Char} (hc : isLineBreak c = false)
    (hd : d ∈ Json.escape c) : isLineBreak d = false := by
  have hpair : ∀ e : Char, isLineBreak e = false → d ∈ ['\\', e] → isLineBreak d = false := by
    intro e he hd
    rcases List.mem_cons.1 hd with rfl | hd
    · decide
    · rwa [List.mem_singleton.1 hd]
  unfold Json.escape at hd
  split_ifs at hd
  · exact hpair _ (by decide) hd
  · exact hpair _ (by decide) hd
  · exact hpair _ (by decide) hd
  · exact hpair _ (by decide) hd
  · exact hpair _ (by decide) hd
  · exact hpair _ (by decide) hd
  · exact hpair _ (by decide) hd
  · rcases List.mem_append.1 hd with hd | hd
    · exact hpair _ (by decide) hd
    · exact isLineBreak_of_mem_hexDigits hd
  · rwa [List.mem_singleton.1 hd]

theorem unbroken_escaped {s : String} (h : Unbroken s) :
    Unbroken (String.ofList (s.toList.flatMap Json.escape)) := by
  intro c hc
  rw [String.toList_ofList] at hc
  obtain ⟨d, hd, hc⟩ := List.mem_flatMap.1 hc
  exact isLineBreak_of_mem_escape (h d hd) hc

/-! ## Parts of a fixture -/

namespace Fixture

theorem unbroken_step {s : Step} (h : ∀ t ∈ s.texts, Unbroken t) : Unbroken (step s) := by
  have hlabel : Unbroken s.keyword.label := by cases s.keyword <;> decide
  have hliterals : Unbroken (String.intercalate "___" (s.literals.map pascal)) := by
    refine unbroken_intercalate (by decide) fun t ht => ?_
    obtain ⟨literal, hliteral, rfl⟩ := List.mem_map.1 ht
    exact unbroken_pascal (h literal (List.mem_append_left _ hliteral))
  have hplaceholders : Unbroken (String.intercalate ", " (s.placeholders.map camel)) := by
    refine unbroken_intercalate (by decide) fun t ht => ?_
    obtain ⟨name, hname, rfl⟩ := List.mem_map.1 ht
    exact unbroken_camel (h name (List.mem_append_right _ hname))
  simp only [step, unbroken_append]
  exact ⟨⟨⟨⟨⟨⟨by decide, hlabel⟩, by decide⟩, hliterals⟩, by decide⟩, hplaceholders⟩, by decide⟩

theorem unbroken_of_mem_parameters {types : List ArgType} {o : Outline} {parameter : String}
    (h : ∀ b ∈ o.blocks, ∀ t ∈ b.texts, Unbroken t) (hp : parameter ∈ parameters types o) :
    Unbroken parameter := by
  unfold parameters at hp
  split at hp
  · simp at hp
  · next labels hlabels =>
    obtain ⟨⟨label, index⟩, hlabel, rfl⟩ := List.mem_map.1 hp
    obtain ⟨block, hblock, rfl⟩ := Option.map_eq_some_iff.1 hlabels
    have hmem : label ∈ block.texts := by
      simp [ExampleBlock.texts, List.fst_mem_of_mem_zipIdx hlabel]
    have htype : ∀ type : ArgType, Unbroken (Literal.typeName type) := by
      intro type
      cases type <;> decide
    simp only [unbroken_append]
    exact ⟨⟨htype _, by decide⟩,
      unbroken_camel (h block (List.mem_of_mem_head? hblock) label hmem)⟩

end Fixture

end FeatureFile
