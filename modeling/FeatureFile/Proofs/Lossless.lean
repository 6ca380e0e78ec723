import FeatureFile.Export.Format
import FeatureFile.Proofs.JsonReading
import FeatureFile.Proofs.Reading
import Mathlib.Data.List.Basic

set_option autoImplicit false

/-! # A JSON export keeps the whole feature

The JSON export of a feature is read back as the very value that was written, and that value tells
the feature: every part of a document has a value of its own, so no two features have the same
export (`json_export_lossless`). -/

namespace FeatureFile

/-! ## Values -/

/-- A list is known from its image under a function that tells its members from everything else. -/
theorem eq_of_map_eq {α β : Type} {f : α → β} {xs ys : List α}
    (hf : ∀ x ∈ xs, ∀ y, f x = f y → x = y) (h : xs.map f = ys.map f) : xs = ys := by
  induction xs generalizing ys with
  | nil => exact (List.map_eq_nil_iff.1 h.symm).symm
  | cons x xs ih =>
    obtain ⟨y, rest, rfl, hy, hrest⟩ := List.map_eq_cons_iff.1 h.symm
    rw [List.forall_mem_cons] at hf
    rw [hf.1 y hy.symm, ih hf.2 hrest.symm]

namespace Json

/-- Equal values on the one side come from equal values on the other. -/
theorem toValue_injective : Function.Injective toValue := by
  intro value
  induction value using Json.induction with
  | null =>
    intro other h
    cases other <;> simp [toValue] at h
    rfl
  | text value =>
    intro other h
    cases other <;> simp [toValue] at h
    rw [h]
  | list items ih =>
    intro other h
    cases other with
    | list others =>
      rw [toValue, toValue, JsonValue.array.injEq] at h
      rw [eq_of_map_eq (fun item hitem other => @ih item hitem other) h]
    | _ => simp [toValue] at h
  | object members ih =>
    intro other h
    cases other with
    | object others =>
      rw [toValue, toValue, JsonValue.object.injEq] at h
      have hmember : ∀ member ∈ members, ∀ other : String × Json,
          (member.1, member.2.toValue) = (other.1, other.2.toValue) → member = other := by
        intro member hmember other heq
        obtain ⟨hname, hvalue⟩ := Prod.mk.inj heq
        exact Prod.ext hname (ih member hmember hvalue)
      rw [eq_of_map_eq hmember h]
    | _ => simp [toValue] at h

theorem texts_injective : Function.Injective texts := by
  intro values others h
  exact List.map_injective_iff.2 (fun _ _ => Json.text.inj) (Json.list.inj h)

end Json

/-! ## Parts of a document -/

theorem StepKeyword.label_injective : Function.Injective StepKeyword.label := by
  intro keyword other
  cases keyword <;> cases other <;> decide

theorem Step.toJson_injective : Function.Injective Step.toJson := by
  intro step other h
  simp only [toJson, Json.object.injEq, List.cons.injEq, Prod.mk.injEq, true_and, and_true,
    Json.text.injEq] at h
  obtain ⟨hkeyword, hliterals, hplaceholders⟩ := h
  have hkeyword := StepKeyword.label_injective hkeyword
  obtain ⟨hlead, htails⟩ := List.cons.inj (Json.texts_injective hliterals)
  have hslots : step.slots = other.slots :=
    (List.zip_of_prod (Json.texts_injective hplaceholders) htails).trans
      (List.zip_of_prod rfl rfl).symm
  cases step
  cases other
  simp_all only

theorem ExampleBlock.toJson_injective : Function.Injective ExampleBlock.toJson := by
  intro block other h
  simp only [toJson, Json.object.injEq, List.cons.injEq, Prod.mk.injEq, true_and, and_true,
    Json.list.injEq] at h
  obtain ⟨htags, hlabels, hrows⟩ := h
  have hrow : Function.Injective fun row : Row => Json.texts row.cells :=
    fun _ _ h => Row.ext (Json.texts_injective h)
  have htags := TagSet.ext (Json.texts_injective htags)
  have hlabels := Row.ext (Json.texts_injective hlabels)
  have hrows := List.map_injective_iff.2 hrow hrows
  cases block
  cases other
  simp_all only

theorem Scenario.jsonMembers_injective : Function.Injective Scenario.jsonMembers := by
  intro scenario other h
  simp only [jsonMembers, List.cons.injEq, Prod.mk.injEq, true_and, and_true, Json.text.injEq,
    Json.list.injEq] at h
  obtain ⟨hname, htags, hsteps⟩ := h
  have htags := TagSet.ext (Json.texts_injective htags)
  have hsteps := List.map_injective_iff.2 Step.toJson_injective hsteps
  cases scenario
  cases other
  simp_all only

theorem Scenario.backgroundJson_injective : Function.Injective Scenario.backgroundJson := by
  intro scenario other h
  exact jsonMembers_injective (Json.object.inj h)

theorem Outline.eq_of_toJson {outline other : Outline} {json : Json}
    (h : outline.toJson = .ok json) (hother : other.toJson = .ok json) : outline = other := by
  obtain ⟨types, -, rfl⟩ := except_map_eq_ok_iff.1 h
  obtain ⟨types', -, heq⟩ := except_map_eq_ok_iff.1 hother
  simp only [Json.object.injEq, List.cons.injEq, Prod.mk.injEq, true_and, and_true,
    Json.text.injEq, Json.list.injEq] at heq
  -- the types are computed from the tables, so they tell nothing more
  obtain ⟨hname, htags, hsteps, -, hblocks⟩ := heq
  have htags := TagSet.ext (Json.texts_injective htags)
  have hsteps := List.map_injective_iff.2 Step.toJson_injective hsteps
  have hblocks := List.map_injective_iff.2 ExampleBlock.toJson_injective hblocks
  cases outline
  cases other
  simp_all only

/-- A scenario and an outline differ in the type that they name. -/
theorem not_toJson_eq_outline {scenario : Scenario} {outline : Outline} {json : Json}
    (h : outline.toJson = .ok json) : scenario.toJson ≠ json := by
  obtain ⟨types, -, rfl⟩ := except_map_eq_ok_iff.1 h
  intro heq
  obtain ⟨htype, -⟩ := List.cons.inj (Json.object.inj heq)
  have hname : "scenario" = "scenario_outline" := Json.text.inj (Prod.mk.inj htype).2
  exact absurd hname (by decide)

theorem Item.eq_of_toJson {item other : Item} {json : Json} (h : item.toJson = .ok json)
    (hother : other.toJson = .ok json) : item = other := by
  cases item with
  | scenario s =>
    cases other with
    | scenario t =>
      have heq : s.toJson = t.toJson := Except.ok.inj (h.trans hother.symm)
      have hmembers := (List.cons.inj (Json.object.inj heq)).2
      rw [Scenario.jsonMembers_injective hmembers]
    | outline t => exact absurd (Except.ok.inj h) (not_toJson_eq_outline hother)
  | outline s =>
    cases other with
    | scenario t => exact absurd (Except.ok.inj hother) (not_toJson_eq_outline h)
    | outline t => rw [Outline.eq_of_toJson h hother]

/-- A feature without a background has no value in its place. -/
theorem background_eq_of_json {background other : Option Scenario}
    (h : (background.map Scenario.backgroundJson).getD .null =
      (other.map Scenario.backgroundJson).getD .null) : background = other := by
  cases background with
  | none =>
    cases other with
    | none => rfl
    | some t => cases h
  | some s =>
    cases other with
    | none => cases h
    | some t => rw [Scenario.backgroundJson_injective h]

/-- Different features have different values. -/
theorem Feature.eq_of_toJson {feature other : Feature} {json : Json}
    (h : feature.toJson = .ok json) (hother : other.toJson = .ok json) : feature = other := by
  obtain ⟨items, hitems, rfl⟩ := except_map_eq_ok_iff.1 h
  obtain ⟨items', hitems', heq⟩ := except_map_eq_ok_iff.1 hother
  simp only [Json.object.injEq, List.cons.injEq, Prod.mk.injEq, true_and, and_true,
    Json.text.injEq, Json.list.injEq] at heq
  obtain ⟨hname, htags, hdescription, hbackground, rfl⟩ := heq
  have htags := TagSet.ext (Json.texts_injective htags)
  have hdescription := Json.texts_injective hdescription
  have hbackground := background_eq_of_json hbackground
  have hunique : Relator.LeftUnique fun (item : Item) json => item.toJson = .ok json :=
    fun _ _ _ => Item.eq_of_toJson
  have hitems := List.left_unique_forall₂' hunique (forall₂_of_mapM hitems)
    (forall₂_of_mapM hitems')
  cases feature
  cases other
  simp_all only

/-! ## Exports -/

/-- The JSON export of a feature is a JSON text that writes the value of the feature, and no other
    feature has this export. -/
theorem json_export_lossless {feature : Feature} {output : String}
    (h : Format.json.render feature = .ok output) :
    (∃ tree, feature.toJson = .ok tree ∧ JsonReader.read? output = some tree.toValue) ∧
      ∀ other : Feature, Format.json.render other = .ok output → other = feature := by
  obtain ⟨tree, htree, rfl⟩ := except_map_eq_ok_iff.1 h
  have hread := JsonReader.read?_render tree
  refine ⟨⟨tree, htree, hread⟩, ?_⟩
  intro other hother
  obtain ⟨tree', htree', hrender⟩ := except_map_eq_ok_iff.1 hother
  have hvalue : tree'.toValue = tree.toValue := by
    rw [← Option.some.injEq, ← hread, ← hrender, JsonReader.read?_render]
  rw [Json.toValue_injective hvalue] at htree'
  exact Feature.eq_of_toJson htree' htree

/-- A feature with a name that needs escapes, a background, and an outline with a table. -/
def escapedFeature : Feature :=
  ⟨"a \"b\" \\ \x01", ⟨["ß"], by decide⟩, [], some ⟨"😀", [], .empty⟩,
    [.outline ⟨"o", [], [⟨⟨["m"], by decide⟩, [⟨["1"], by decide⟩], .empty⟩], .empty⟩]⟩

/-- Its export. -/
def escapedExport : String :=
  String.intercalate "\n"
    ["\x7b", "  \"name\": \"a \\\"b\\\" \\\\ \\u0001\",", "  \"tags\": [", "    \"ß\"", "  ],",
      "  \"description\": [],", "  \"background\": \x7b", "    \"name\": \"😀\",",
      "    \"tags\": [],", "    \"steps\": []", "  \x7d,", "  \"items\": [", "    \x7b",
      "      \"type\": \"scenario_outline\",", "      \"name\": \"o\",", "      \"tags\": [],",
      "      \"steps\": [],", "      \"argument_types\": [", "        \"integer\"", "      ],",
      "      \"example_blocks\": [", "        \x7b", "          \"tags\": [],",
      "          \"labels\": [", "            \"m\"", "          ],", "          \"examples\": [",
      "            [", "              \"1\"", "            ]", "          ]", "        \x7d",
      "      ]", "    \x7d", "  ]", "\x7d"]

theorem json_export_escapedFeature :
    Format.json.render escapedFeature = .ok escapedExport ∧
      (∃ tree, escapedFeature.toJson = .ok tree ∧
        JsonReader.read? escapedExport = some tree.toValue) ∧
      ∀ other : Feature, Format.json.render other = .ok escapedExport →
        other = escapedFeature := by
  have h : Format.json.render escapedFeature = .ok escapedExport := by decide +kernel
  exact ⟨h, json_export_lossless h⟩

end FeatureFile
