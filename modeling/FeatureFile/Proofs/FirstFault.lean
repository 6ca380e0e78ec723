import FeatureFile.Proofs.Reading
import FeatureFile.Proofs.Sources

set_option autoImplicit false

/-! # A fault stands at the first line that spoils the file

Lines are read one by one and none is looked at before its turn. So what is below the line of a
fault does not matter, and the lines above it were still the beginning of a good file: whatever was
read so far, one more line completes it (`Draft.completion`). A fault at the end of the file is
different in that no line is to blame; there the whole file is such a beginning. -/

namespace FeatureFile

open Text

/-! ## Faults of lines and faults of the end -/

/-- Whether the end of the file is what is wrong. -/
def Cause.atEnd : Cause → Bool
  | expectedFeature none | tagsAtEnd _ | expectedLabels none => true
  | _ => false

/-- A fault has the number of a line, and the line is what is wrong. -/
def Fault.Blames (fault : Fault) (line : Line) : Prop :=
  fault.number = some line.number ∧ fault.cause.atEnd = false

theorem atEnd_of_decode_step {keyword : StepKeyword} {content : String} {cause : Cause}
    (h : Step.decode keyword content = .error cause) : cause.atEnd = false := by
  unfold Step.decode at h
  split at h <;> cases h
  rfl

theorem atEnd_of_decode_row {text : String} {cause : Cause}
    (h : Row.decode text = .error cause) : cause.atEnd = false := by
  unfold Row.decode at h
  split at h <;> cases h
  rfl

theorem atEnd_of_refusal {place : Place} {shape : Shape} {cause : String → Cause}
    (h : place.refusal? shape = some cause) (text : String) : (cause text).atEnd = false := by
  unfold Place.refusal? at h
  split at h <;> cases h <;> rfl

namespace Draft

variable {draft : Draft} {line : Line} {feature : Feature} {fault : Fault} {tags : TagSet}
  {keyword : GroupKeyword} {title : String}

theorem blames_of_openGroup
    (h : openGroup feature tags line keyword title = .error fault) : fault.Blames line := by
  rcases openGroup_eq_error_iff.1 h with ⟨first, -, -, rfl⟩ | ⟨-, rfl⟩ <;> exact ⟨rfl, rfl⟩

/-- A line that is not taken is to blame. -/
theorem blames_of_read (h : draft.read line = .error fault) : fault.Blames line := by
  cases fails_of_read h with
  | preamble | width | titled | taggedTitled => exact ⟨rfl, rfl⟩
  | refused refusal => exact ⟨rfl, atEnd_of_refusal refusal _⟩
  | step _ decoded | outlineStep _ decoded => exact ⟨rfl, atEnd_of_decode_step decoded⟩
  | labels _ decoded | row _ decoded => exact ⟨rfl, atEnd_of_decode_row decoded⟩
  | group _ _ _ fails | taggedGroup _ fails | outlineTaggedGroup _ _ fails =>
    exact blames_of_openGroup fails

/-- Where the file may not end, the end is what is wrong. -/
theorem atEnd_of_finish (h : draft.finish = .error fault) : fault.cause.atEnd = true := by
  rcases draft with _ | ⟨feature, place⟩
  · cases h
    rfl
  · cases place <;> cases h <;> rfl

/-! ## Completing a draft -/

/-- A line after which the file may end. -/
def completion : Draft → String
  | .preamble _ _ => "Feature:"
  | .body _ (.labels _ _ _) => "|a|"
  | .body _ _ => "Scenario:"

/-- The completion of a draft is a line as it is. -/
theorem completion_plain (draft : Draft) :
    draft.completion.toList.any isLineBreak = false ∧
      strip draft.completion = draft.completion ∧ isKept draft.completion = true := by
  fun_cases completion draft <;> decide +kernel

/-- Whatever was read so far, there is a line that completes the file. -/
theorem exists_finish_of_completion (draft : Draft) (number : Nat) :
    ∃ next feature, draft.read (Line.ofText number draft.completion) = .ok next ∧
      next.finish = .ok feature := by
  have hfeature : (Line.ofText number "Feature:").shape = .header .feature "" := by
    show Shape.ofText (strip "Feature:") = .header .feature ""
    decide +kernel
  have hscenario : (Line.ofText number "Scenario:").shape = .header .scenario "" := by
    show Shape.ofText (strip "Scenario:") = .header .scenario ""
    decide +kernel
  have hrow : (Line.ofText number "|a|").shape = .row := by
    show Shape.ofText (strip "|a|") = .row
    decide +kernel
  have hlabels : Row.decode (Line.ofText number "|a|").text = .ok ⟨["a"], by simp⟩ := by
    show Row.decode (strip "|a|") = .ok ⟨["a"], by simp⟩
    decide +kernel
  rcases draft with _ | ⟨feature, place⟩
  · exact ⟨_, _, read_eq_ok_iff.2 (.feature hfeature), rfl⟩
  · cases place with
    | labels outline tags header => exact ⟨_, _, read_eq_ok_iff.2 (.labels hrow hlabels), rfl⟩
    | tagged pending last => exact ⟨_, _, read_eq_ok_iff.2 (.taggedGroup hscenario rfl), rfl⟩
    | outlineTagged outline pending last =>
      exact ⟨_, _, read_eq_ok_iff.2 (.outlineTaggedGroup hscenario rfl), rfl⟩
    | description | steps _ _ | outlineSteps _ | rows _ _ =>
      exact ⟨_, _, read_eq_ok_iff.2 (.group rfl hscenario rfl), rfl⟩

end Draft

/-! ## Sources with a fault -/

section Faults

variable {source other : String} {fault : Fault} {draft : Draft}

theorem ofSource_eq {lines : List (Nat × String)} (h : keptLines source = lines) :
    Line.ofSource source = lines.map fun line => Line.ofText line.1 line.2 := by
  rw [← h]
  rfl

/-- A source that can be read to its end can be continued to one that is accepted. -/
theorem exists_parse_of_run (h : Draft.start.run (Line.ofSource source) = .ok draft) :
    ∃ more text feature, keptLines (source ++ more) = keptLines source ++ [text] ∧
      parse (source ++ more) = .ok feature := by
  obtain ⟨hbreak, hstrip, hkept⟩ := draft.completion_plain
  obtain ⟨number, hlines⟩ := exists_keptLines_append source hbreak hstrip hkept
  obtain ⟨next, feature, hread, hfinish⟩ := draft.exists_finish_of_completion number
  refine ⟨_, _, feature, hlines, Feature.ofLines_eq_ok_iff.2 ⟨next, ?_, hfinish⟩⟩
  rw [ofSource_eq hlines, List.map_append, Draft.run_append_eq_ok_iff]
  exact ⟨draft, h, (Draft.run_singleton _ _).trans hread⟩

/-- A source whose lines are not all taken has a first line that is not. -/
theorem exists_cut_of_run (h : Draft.start.run (Line.ofSource source) = .error fault) :
    ∃ before line after draft, keptLines source = before ++ line :: after ∧
      Draft.start.run (before.map fun line => Line.ofText line.1 line.2) = .ok draft ∧
      draft.read (Line.ofText line.1 line.2) = .error fault := by
  obtain ⟨before, line, after, draft, hlines, hrun, hread⟩ := Draft.run_eq_error_iff.1 h
  obtain ⟨above, rest, hkept, rfl, hrest⟩ := List.map_eq_append_iff.1 hlines
  obtain ⟨kept, below, rfl, rfl, -⟩ := List.map_eq_cons_iff.1 hrest
  exact ⟨above, kept, below, draft, hkept, hrun, hread⟩

/-- What is below a line that is not taken does not matter. -/
theorem parse_of_cut {before after : List (Nat × String)} {line : Nat × String}
    (hlines : keptLines source = before ++ line :: after)
    (hrun : Draft.start.run (before.map fun line => Line.ofText line.1 line.2) = .ok draft)
    (hread : draft.read (Line.ofText line.1 line.2) = .error fault) :
    parse source = .error fault := by
  have hfail : Draft.start.run (Line.ofSource source) = .error fault := by
    rw [ofSource_eq hlines, List.map_append, List.map_cons]
    exact Draft.run_eq_error_iff.2 ⟨_, _, _, draft, rfl, hrun, hread⟩
  rw [parse, Feature.ofLines_eq, hfail]
  rfl

end Faults

/-- A fault of a line stands at the first line that spoils the file: it does not depend on what is
    below, and the lines above can be continued to a file that is accepted. A fault of the end is
    mended by further lines. -/
theorem first_fault_of_parse {source : String} {fault : Fault}
    (h : parse source = .error fault) :
    (fault.cause.atEnd = true → ∃ more feature, parse (source ++ more) = .ok feature) ∧
    (fault.cause.atEnd = false →
      ∃ n, fault.number = some n ∧ n ∈ (keptLines source).map Prod.fst ∧
        (∀ other, ((keptLines other).filter fun line => line.1 ≤ n) =
            ((keptLines source).filter fun line => line.1 ≤ n) → parse other = .error fault) ∧
        ∃ other more feature,
          keptLines other = ((keptLines source).filter fun line => line.1 < n) ++ more ∧
            parse other = .ok feature) := by
  rw [parse, Feature.ofLines_eq, except_bind_eq_error_iff] at h
  rcases h with hrun | ⟨draft, hrun, hfinish⟩
  · obtain ⟨before, line, after, draft, hlines, hrun, hread⟩ := exists_cut_of_run hrun
    obtain ⟨hnumber, hcause⟩ := Draft.blames_of_read hread
    have hsorted := pairwise_keptLines source
    rw [hlines] at hsorted ⊢
    obtain ⟨hlt, hle⟩ := filter_above hsorted
    refine ⟨by simp [hcause], fun _ => ⟨line.1, hnumber, by simp, ?_, ?_⟩⟩
    · -- numbers ascend, so the other source starts with the lines up to the fault
      intro other hother
      rw [hle] at hother
      have hsplit := filter_append_filter (pairwise_keptLines other) line.1
      rw [hother, List.append_assoc, List.singleton_append] at hsplit
      exact parse_of_cut hsplit.symm hrun hread
    · -- what stands above the fault is a source of its own, and reads to its end
      obtain ⟨cut, hcut⟩ := exists_keptLines_eq_filter source line.1
      rw [hlines, hlt] at hcut
      rw [← ofSource_eq hcut] at hrun
      obtain ⟨more, text, feature, hmore, hparse⟩ := exists_parse_of_run hrun
      rw [hlt]
      exact ⟨cut ++ more, [text], feature, hcut ▸ hmore, hparse⟩
  · have hcause := Draft.atEnd_of_finish hfinish
    refine ⟨fun _ => ?_, by simp [hcause]⟩
    obtain ⟨more, -, feature, -, hparse⟩ := exists_parse_of_run hrun
    exact ⟨more, feature, hparse⟩

/-- A row among the steps of a scenario spoils every file that starts this way; tags at the end need
    only a group below them. -/
theorem first_fault_of_row_and_tags :
    (parse "Feature: f\nScenario: s\n\n|a|\n@t" =
        .error ⟨.expectedStep "|a|", some 4, [.feature "f", .scenario "s"]⟩ ∧
      ∀ other, ((keptLines other).filter fun line => line.1 ≤ 4) =
          ((keptLines "Feature: f\nScenario: s\n\n|a|\n@t").filter fun line => line.1 ≤ 4) →
        parse other = .error ⟨.expectedStep "|a|", some 4, [.feature "f", .scenario "s"]⟩) ∧
    (parse "Feature: f\n@t" = .error ⟨.tagsAtEnd "@t", some 2, [.feature "f"]⟩ ∧
      ∃ more feature, parse ("Feature: f\n@t" ++ more) = .ok feature) := by
  have hrow : parse "Feature: f\nScenario: s\n\n|a|\n@t" =
      .error ⟨.expectedStep "|a|", some 4, [.feature "f", .scenario "s"]⟩ := by decide +kernel
  have htags : parse "Feature: f\n@t" = .error ⟨.tagsAtEnd "@t", some 2, [.feature "f"]⟩ := by
    decide +kernel
  refine ⟨⟨hrow, ?_⟩, htags, (first_fault_of_parse htags).1 rfl⟩
  obtain ⟨n, hn, -, hother, -⟩ := (first_fault_of_parse hrow).2 rfl
  cases hn
  exact hother

end FeatureFile
