import FeatureFile.Proofs.Content
import FeatureFile.Proofs.FirstFault
import FeatureFile.Proofs.Grammar
import FeatureFile.Proofs.Numbering

set_option autoImplicit false

/-! # Files below one another

What the groups of a file say does not depend on what stands above them. If a text holds whole
groups, so that it can be read below a bare feature header, it can be read below any file, and its
groups become further groups of that file (`parse_append`).

The two runs over the text do not pass through the same places: where the file above ends in an
outline, the first tags of the text are at first taken for those of one more table. `Draft.Follows`
relates the drafts of the two runs, and every line that both can take keeps it. -/

namespace FeatureFile

open Text

/-- The feature with the groups of another one below its own. -/
def Feature.append (first second : Feature) : Feature :=
  { first with
    background := first.background.or second.background
    items := first.items ++ second.items }

namespace Feature

variable {first feature : Feature}

theorem append_eq_self (hbackground : feature.background = none) (hitems : feature.items = []) :
    first.append feature = first := by
  simp [append, hbackground, hitems]

theorem append_addOutline (first feature : Feature) (outline : Outline) :
    first.append (feature.addOutline outline) = (first.append feature).addOutline outline := by
  simp [append, addOutline]

/-- Closing a background below another one would not replace that one. -/
theorem append_addScenario {group : PlainGroup} (h : group = .background → first.background = none)
    (feature : Feature) (scenario : Scenario) :
    first.append (feature.addScenario group scenario) =
      (first.append feature).addScenario group scenario := by
  cases group with
  | background => simp [append, addScenario, h rfl]
  | scenario => simp [append, addScenario]

end Feature

namespace Draft

variable {first feature closed : Feature} {draft other next : Draft} {line : Line}
  {lines : List Line} {keyword : GroupKeyword} {title : String} {tags : TagSet}

/-! ## Where a group may start -/

/-- What a group that starts now stands below: the feature with all earlier groups closed, and the
    tags that wait for its header. -/
def ground? : Draft → Option (Feature × TagSet)
  | .preamble _ _ | .body _ (.labels _ _ _) => none
  | .body feature .description => some (feature, .empty)
  | .body feature (.tagged pending _) => some (feature, pending)
  | .body feature (.steps group scenario) => some (feature.addScenario group scenario, .empty)
  | .body feature (.outlineSteps outline) => some (feature.addOutline outline, .empty)
  | .body feature (.outlineTagged outline pending _) => some (feature.addOutline outline, pending)
  | .body feature (.rows outline block) =>
    some (feature.addOutline (outline.addBlock block), .empty)

theorem ground?_of_finish (h : draft.finish = .ok closed) :
    draft.ground? = some (closed, .empty) := by
  rcases draft with _ | ⟨feature, place⟩
  · simp [finish] at h
  · cases place <;> simp_all [finish, faultAt, ground?]

/-- The header of a group is taken wherever a group may start, and by the same rule. -/
theorem read_header (hground : draft.ground? = some (closed, tags))
    (shape : line.shape = .header keyword title) (hgroup : keyword ≠ .examples) :
    draft.read line = openGroup closed tags line keyword title := by
  have houtline : ∀ feature outline tags, openInOutline feature outline tags line keyword title =
      openGroup (feature.addOutline outline) tags line keyword title := by
    intro feature outline tags
    cases keyword with
    | examples => exact absurd rfl hgroup
    | _ => rfl
  rcases draft with _ | ⟨feature, place⟩
  · simp [ground?] at hground
  · cases place <;> simp_all [ground?, read, readBody]

/-! ## Two runs side by side -/

/-- A draft that stands, below all groups of `first`, where `other` stands below a bare header. -/
inductive Follows (first : Feature) : Draft → Draft → Prop where
  /-- Nothing was read of the groups below. -/
  | above {draft : Draft} {feature : Feature} (closes : draft.finish = .ok first)
      (background : feature.background = none) (items : feature.items = []) :
      Follows first draft (.body feature .description)
  /-- In tags, with the last outline of `first` still open. -/
  | tagged {feature closed : Feature} {outline : Outline} {pending : TagSet} {last : Line}
      (closes : feature.addOutline outline = first.append closed) :
      Follows first (.body feature (.outlineTagged outline pending last))
        (.body closed (.tagged pending last))
  /-- At the same place. -/
  | inside {feature : Feature} {place : Place} (place_ne : place ≠ .description)
      (background : ∀ scenario, place = .steps .background scenario → first.background = none) :
      Follows first (.body (first.append feature) place) (.body feature place)

theorem Follows.ground? (h : Follows first draft other)
    (hground : other.ground? = some (closed, tags)) :
    draft.ground? = some (first.append closed, tags) := by
  cases h with
  | @above draft feature closes background items =>
    cases hground
    rw [ground?_of_finish closes, Feature.append_eq_self background items]
  | tagged closes =>
    cases hground
    simp only [Draft.ground?, closes]
  | @inside feature place place_ne background =>
    cases place with
    | description => exact absurd rfl place_ne
    | labels outline tags header => simp [Draft.ground?] at hground
    | tagged pending last =>
      cases hground
      rfl
    | steps group scenario =>
      cases hground
      have hfirst : group = .background → first.background = none := by
        rintro rfl
        exact background scenario rfl
      rw [Feature.append_addScenario hfirst]
      rfl
    | outlineSteps outline | outlineTagged outline pending last | rows outline block =>
      cases hground
      rw [Feature.append_addOutline]
      rfl

/-- Where the file below may end, so may the whole file. -/
theorem Follows.finish (h : Follows first draft other) (hfinish : other.finish = .ok closed) :
    draft.finish = .ok (first.append closed) := by
  cases h with
  | above closes background items =>
    cases hfinish
    rw [closes, Feature.append_eq_self background items]
  | tagged closes => simp [Draft.finish, faultAt] at hfinish
  | @inside feature place place_ne background =>
    have hfollows : Follows first (.body (first.append feature) place) (.body feature place) :=
      .inside place_ne background
    have hground := hfollows.ground? (ground?_of_finish hfinish)
    cases place with
    | description => exact absurd rfl place_ne
    | tagged _ _ | outlineTagged _ _ _ | labels _ _ _ => simp [Draft.finish, faultAt] at hfinish
    | steps _ _ | outlineSteps _ | rows _ _ =>
      simp only [Draft.ground?, Option.some.injEq, Prod.mk.injEq, and_true] at hground
      simp only [Draft.finish, hground]

/-- The header of a group keeps the two drafts together, but for a second background. -/
theorem Follows.read_group (h : Follows first draft other)
    (hground : other.ground? = some (closed, tags)) (shape : line.shape = .header keyword title)
    (opens : openGroup closed tags line keyword title = .ok next)
    (hfirst : first.background = none ∨ keyword ≠ .background) :
    ∃ taken, draft.read line = .ok taken ∧ Follows first taken next := by
  have hread : keyword ≠ .examples → draft.read line =
      openGroup (first.append closed) tags line keyword title :=
    read_header (h.ground? hground) shape
  rcases openGroup_eq_ok_iff.1 opens with ⟨rfl, hnone, rfl⟩ | ⟨rfl, rfl⟩ | ⟨rfl, rfl⟩
  · have hback : first.background = none := hfirst.resolve_right (by simp)
    have hopen : openGroup (first.append closed) tags line .background title =
        .ok (.body (first.append closed) (.steps .background ⟨title, [], tags⟩)) := by
      simp [openGroup, Feature.append, hback, hnone]
    exact ⟨_, (hread (by simp)).trans hopen, .inside (by simp) fun _ _ => hback⟩
  · exact ⟨_, hread (by simp), .inside (by simp) (by simp)⟩
  · exact ⟨_, hread (by simp), .inside (by simp) (by simp)⟩

/-- Tags close the groups of both drafts, unless an outline is open in the first. -/
theorem Follows.read_tags (h : Follows first draft other) {names : List String}
    (hfinish : other.finish = .ok closed) (shape : line.shape = .tags names) :
    ∃ taken, draft.read line = .ok taken ∧
      Follows first taken (.body closed (.tagged (TagSet.empty.addLine names) line)) := by
  have hcloses : draft.finish = .ok (first.append closed) := h.finish hfinish
  rcases draft with _ | ⟨feature, place⟩
  · simp [Draft.finish] at hcloses
  · cases hinside : place.outline? with
    | none =>
      exact ⟨_, read_eq_ok_iff.2 (.tags hcloses hinside shape), .inside (by simp) (by simp)⟩
    | some outline =>
      rw [finish_of_outline hinside] at hcloses
      exact ⟨_, read_eq_ok_iff.2 (.outlineTags hinside shape), .tagged (Except.ok.inj hcloses)⟩

/-- Every line that the second draft takes keeps the two drafts together, free texts and a second
    background apart. -/
theorem Follows.read (h : Follows first draft other) (moves : Moves other line next)
    (htext : line.kind ≠ .freeText)
    (hfirst : first.background = none ∨ line.kind ≠ .header .background) :
    ∃ taken, draft.read line = .ok taken ∧ Follows first taken next := by
  have hkeyword : ∀ keyword title, line.shape = .header keyword title →
      first.background = none ∨ keyword ≠ .background := by
    intro keyword title shape
    refine hfirst.imp_right fun hkind hback => hkind ?_
    rw [Line.kind_of_shape shape, hback]
    rfl
  cases moves with
  | preambleTags | preambleText | feature => cases h
  | describe shape => exact absurd (Line.kind_of_shape shape) htext
  | step shape decoded =>
    cases h with
    | inside _ background =>
      exact ⟨_, read_eq_ok_iff.2 (.step shape decoded),
        .inside (by simp) (by simpa using background)⟩
  | outlineStep shape decoded =>
    cases h with
    | inside _ _ =>
      exact ⟨_, read_eq_ok_iff.2 (.outlineStep shape decoded), .inside (by simp) (by simp)⟩
  | labels shape decoded =>
    cases h with
    | inside _ _ => exact ⟨_, read_eq_ok_iff.2 (.labels shape decoded), .inside (by simp) (by simp)⟩
  | row shape decoded width =>
    cases h with
    | inside _ _ =>
      exact ⟨_, read_eq_ok_iff.2 (.row shape decoded width), .inside (by simp) (by simp)⟩
  | tags closes _ shape => exact h.read_tags closes shape
  | moreTags shape =>
    cases h with
    | tagged closes => exact ⟨_, read_eq_ok_iff.2 (.moreOutlineTags shape), .tagged closes⟩
    | inside _ _ => exact ⟨_, read_eq_ok_iff.2 (.moreTags shape), .inside (by simp) (by simp)⟩
  | outlineTags inside shape =>
    cases h with
    | above _ _ _ => simp [Place.outline?] at inside
    | tagged _ => simp [Place.outline?] at inside
    | inside _ _ =>
      exact ⟨_, read_eq_ok_iff.2 (.outlineTags inside shape), .inside (by simp) (by simp)⟩
  | moreOutlineTags shape =>
    cases h with
    | inside _ _ =>
      exact ⟨_, read_eq_ok_iff.2 (.moreOutlineTags shape), .inside (by simp) (by simp)⟩
  | group closes shape opens =>
    exact h.read_group (ground?_of_finish closes) shape opens (hkeyword _ _ shape)
  | taggedGroup shape opens | outlineTaggedGroup shape opens =>
    exact h.read_group rfl shape opens (hkeyword _ _ shape)
  | table inside shape =>
    cases h with
    | above _ _ _ => simp [Place.outline?] at inside
    | tagged _ => simp [Place.outline?] at inside
    | inside _ _ => exact ⟨_, read_eq_ok_iff.2 (.table inside shape), .inside (by simp) (by simp)⟩
  | taggedTable shape =>
    cases h with
    | inside _ _ => exact ⟨_, read_eq_ok_iff.2 (.taggedTable shape), .inside (by simp) (by simp)⟩

theorem Follows.run (h : Follows first draft other) (hrun : other.run lines = .ok next)
    (htext : ∀ line ∈ lines, line.kind ≠ .freeText)
    (hfirst : first.background = none ∨ ∀ line ∈ lines, line.kind ≠ .header .background) :
    ∃ taken, draft.run lines = .ok taken ∧ Follows first taken next := by
  induction lines generalizing draft other with
  | nil =>
    cases hrun
    exact ⟨draft, rfl, h⟩
  | cons line rest ih =>
    obtain ⟨mid, hmid, hrest⟩ := run_cons_eq_ok_iff.1 hrun
    obtain ⟨taken, htaken, hfollows⟩ := h.read (read_eq_ok_iff.1 hmid) (htext line (by simp))
      (hfirst.imp_right fun hkind => hkind line (by simp))
    obtain ⟨final, hfinal, hend⟩ := ih hfollows hrest
      (fun line hline => htext line (List.mem_cons_of_mem _ hline))
      (hfirst.imp_right fun hkind line hline => hkind line (List.mem_cons_of_mem _ hline))
    exact ⟨final, run_cons_eq_ok_iff.2 ⟨taken, htaken, hfinal⟩, hend⟩

/-- A draft takes a background only where a group may start. -/
theorem exists_ground?_of_moves (h : Moves draft line next)
    (shape : line.shape = .header .background title) :
    ∃ closed tags, draft.ground? = some (closed, tags) := by
  cases h with
  | group closes _ _ => exact ⟨_, _, ground?_of_finish closes⟩
  | taggedGroup _ _ | outlineTaggedGroup _ _ => exact ⟨_, _, rfl⟩
  | preambleTags other | preambleText other | feature other | describe other | step other _
  | outlineStep other _ | labels other _ | row other _ _ | tags _ _ other | moreTags other
  | outlineTags _ other | moreOutlineTags other | table _ other | taggedTable other =>
    rw [shape] at other
    cases other

/-- Below a file with a background, one that the second draft takes is the second one. -/
theorem Follows.read_background (h : Follows first draft other) (moves : Moves other line next)
    (hkind : line.kind = .header .background) (hfirst : first.background ≠ none) :
    ∃ fault, draft.read line = .error fault ∧ fault.cause.kind = .duplicateBackground := by
  obtain ⟨title, shape⟩ := Line.kind_eq_header_iff.1 hkind
  obtain ⟨closed, tags, hground⟩ := exists_ground?_of_moves moves shape
  obtain ⟨earlier, hearlier⟩ := Option.ne_none_iff_exists'.1 hfirst
  have hback : (first.append closed).background = some earlier := by
    simp [Feature.append, hearlier]
  refine ⟨⟨.duplicateBackground title earlier.name line.text, some line.number,
    [(first.append closed).scope]⟩, ?_, rfl⟩
  rw [read_header (h.ground? hground) shape (by simp), openGroup_eq_error_iff]
  exact .inl ⟨earlier, rfl, hback, rfl⟩

/-- Below a file with a background, a run that meets another one fails there. -/
theorem Follows.run_background (h : Follows first draft other) (hrun : other.run lines = .ok next)
    (htext : ∀ line ∈ lines, line.kind ≠ .freeText) (hfirst : first.background ≠ none)
    (hback : ∃ line ∈ lines, line.kind = .header .background) :
    ∃ fault, draft.run lines = .error fault ∧ fault.cause.kind = .duplicateBackground := by
  -- up to the first background the two runs go side by side
  obtain ⟨line, hmem, hkind⟩ := hback
  obtain ⟨above, header, below, rfl, hheader, habove⟩ : ∃ above header below,
      lines = above ++ header :: below ∧ header.kind = .header .background ∧
        ∀ line ∈ above, line.kind ≠ .header .background := by
    have hfind : (lines.find? fun line => line.kind = .header .background).isSome := by
      rw [List.find?_isSome]
      exact ⟨line, hmem, by simpa using hkind⟩
    obtain ⟨header, hheader⟩ := Option.isSome_iff_exists.1 hfind
    obtain ⟨hkind, above, below, rfl, habove⟩ := List.find?_eq_some_iff_append.1 hheader
    exact ⟨above, header, below, rfl, by simpa using hkind, by simpa using habove⟩
  obtain ⟨mid, hmid, hrest⟩ := run_append_eq_ok_iff.1 hrun
  obtain ⟨taken, htaken, hfollows⟩ := h.run hmid
    (fun line hline => htext line (List.mem_append_left _ hline)) (.inr habove)
  obtain ⟨after, hafter, -⟩ := run_cons_eq_ok_iff.1 hrest
  obtain ⟨fault, hfault, hdup⟩ :=
    hfollows.read_background (read_eq_ok_iff.1 hafter) hheader hfirst
  exact ⟨fault, run_eq_error_iff.2 ⟨above, header, below, taken, rfl, htaken, hfault⟩, hdup⟩

end Draft

/-! ## Sources below one another -/

section Sources

variable {source : String} {feature : Feature}

/-- The lines of a text, numbered from zero. -/
def linesOf (text : String) : List Line :=
  (keptFrom 0 (splitLines text)).map fun line => Line.ofText line.1 line.2

theorem Line.ofText_renumber (f : Nat → Nat) (number : Nat) (raw : String) :
    Line.ofText (f number) raw = (Line.ofText number raw).renumber f := by
  have h : ∀ n, Line.ofText n raw = ⟨n, strip raw, Shape.ofText (strip raw)⟩ := fun _ => rfl
  rw [h, h, Line.renumber]

/-- Below a source, the lines of a text follow with larger numbers. -/
theorem exists_ofSource_below (source text : String) :
    ∃ n, Line.ofSource (source ++ ("\n" ++ text)) =
      Line.ofSource source ++ (linesOf text).map (Line.renumber (· + n)) := by
  obtain ⟨n, hlines⟩ := exists_keptLines_below source text
  have hadd : keptFrom n (splitLines text) =
      (keptFrom 0 (splitLines text)).map fun line => (line.1 + n, line.2) := by
    rw [← keptFrom_add, Nat.zero_add]
  have htext : (keptFrom n (splitLines text)).map (fun line => Line.ofText line.1 line.2) =
      (linesOf text).map (Line.renumber (· + n)) := by
    rw [hadd, linesOf, List.map_map, List.map_map]
    exact List.map_congr_left fun line _ => Line.ofText_renumber (· + n) line.1 line.2
  have hsource : Line.ofSource source =
      (keptLines source).map fun line => Line.ofText line.1 line.2 := ofSource_eq rfl
  exact ⟨n, by rw [ofSource_eq hlines, List.map_append, htext, hsource]⟩

theorem freeTexts_of_parse (h : parse source = .ok feature) :
    freeTexts (Line.ofSource source) = feature.description := by
  obtain ⟨layout, hlayout, hlines⟩ := exists_layout_of_ofLines h
  rw [hlines, hlayout.freeTexts_lines]

theorem backgrounds_of_parse (h : parse source = .ok feature) :
    Grammar.backgrounds (Line.ofSource source) = feature.background.toList.length := by
  obtain ⟨layout, hlayout, hlines⟩ := exists_layout_of_ofLines h
  rw [hlines, Grammar.backgrounds_layout hlayout]

theorem freeTexts_renumber (f : Nat → Nat) (lines : List Line) :
    freeTexts (lines.map (Line.renumber f)) = freeTexts lines := by
  rw [freeTexts, List.filter_map, List.map_map]
  rfl

theorem backgrounds_renumber (f : Nat → Nat) (lines : List Line) :
    Grammar.backgrounds (lines.map (Line.renumber f)) = Grammar.backgrounds lines := by
  rw [Grammar.backgrounds, List.countP_map]
  rfl

/-- A draft below a bare feature header. -/
def Draft.bare (name : String) : Draft := .body ⟨name, .empty, [], none, []⟩ .description

/-- A text that can be read below a bare feature header, as a run over its lines. -/
theorem exists_run_of_parse_bare {text : String}
    (h : parse ("Feature: x\n" ++ text) = .ok feature) :
    (∃ draft, (Draft.bare "x").run (linesOf text) = .ok draft ∧ draft.finish = .ok feature) ∧
      freeTexts (linesOf text) = feature.description ∧
      Grammar.backgrounds (linesOf text) = feature.background.toList.length := by
  have hsplit : "Feature: x\n" ++ text = "Feature: x" ++ ("\n" ++ text) := by
    rw [← String.append_assoc]
    rfl
  have hheader : Line.ofSource "Feature: x" = [⟨1, "Feature: x", .header .feature "x"⟩] := by
    decide +kernel
  obtain ⟨n, hlines⟩ := exists_ofSource_below "Feature: x" text
  rw [hheader] at hlines
  refine ⟨?_, ?_, ?_⟩
  · rw [hsplit, parse, hlines, Feature.ofLines_eq_ok_iff] at h
    obtain ⟨draft, hrun, hfinish⟩ := h
    have hread : Draft.start.read ⟨1, "Feature: x", .header .feature "x"⟩ =
        .ok ((Draft.bare "x").renumber (· + n)) := rfl
    rw [List.singleton_append, Draft.run_cons, hread, Except.bind, Draft.run_renumber,
      renumbered_eq_ok_iff] at hrun
    obtain ⟨other, hother, rfl⟩ := hrun
    exact ⟨other, hother, Draft.finish_renumber_eq_ok_iff.1 hfinish⟩
  · have htexts := freeTexts_of_parse h
    rw [hsplit, hlines, freeTexts_append, freeTexts_renumber] at htexts
    exact htexts
  · have hbacks := backgrounds_of_parse h
    rw [hsplit, hlines, Grammar.backgrounds_append, backgrounds_renumber] at hbacks
    have hnone : Grammar.backgrounds [⟨1, "Feature: x", .header .feature "x"⟩] = 0 := rfl
    rwa [hnone, Nat.zero_add] at hbacks

end Sources

/-- A text that can be read below a bare feature header, without a description, can be read below
    any file, and its groups become further groups of that file; but two backgrounds are refused. -/
theorem parse_append {source text : String} {first second : Feature}
    (hsource : parse source = .ok first) (htext : parse ("Feature: x\n" ++ text) = .ok second)
    (hdescription : second.description = []) :
    (first.background = none ∨ second.background = none →
      parse (source ++ "\n" ++ text) =
        .ok { first with
          background := first.background.or second.background
          items := first.items ++ second.items }) ∧
    (first.background ≠ none → second.background ≠ none →
      ∃ fault, parse (source ++ "\n" ++ text) = .error fault ∧
        fault.cause.kind = .duplicateBackground) := by
  obtain ⟨⟨other, hother, hsecond⟩, htexts, hbacks⟩ := exists_run_of_parse_bare htext
  obtain ⟨draft, hdraft, hfirst⟩ := Feature.ofLines_eq_ok_iff.1 hsource
  obtain ⟨n, hlines⟩ := exists_ofSource_below source text
  -- the lines of the text are read where the source ended
  have hparse : parse (source ++ "\n" ++ text) =
      ((renumbered (· + n) (draft.run (linesOf text))).bind Draft.finish) := by
    rw [String.append_assoc, parse, hlines, Feature.ofLines_eq, Draft.run_append, hdraft,
      ← Draft.run_renumber, Draft.renumber_of_finish hfirst]
    rfl
  have hfollows : Draft.Follows first draft (Draft.bare "x") := .above hfirst rfl rfl
  have hnotext : ∀ line ∈ linesOf text, line.kind ≠ .freeText := by
    intro line hline hkind
    rw [hdescription, freeTexts, List.map_eq_nil_iff, List.filter_eq_nil_iff] at htexts
    exact htexts line hline (by simpa using hkind)
  rw [hparse]
  constructor
  · intro hone
    have hnoback : first.background = none ∨
        ∀ line ∈ linesOf text, line.kind ≠ .header .background := by
      refine hone.imp_right fun hnone => Grammar.backgrounds_eq_zero_iff.1 ?_
      rw [hbacks, hnone]
      rfl
    obtain ⟨taken, htaken, hend⟩ := hfollows.run hother hnotext hnoback
    rw [htaken, renumbered_ok, Except.bind, Draft.finish_renumber_eq_ok_iff]
    exact hend.finish hsecond
  · intro hback hback'
    have hex : ∃ line ∈ linesOf text, line.kind = .header .background := by
      by_contra hnone
      have hzero : Grammar.backgrounds (linesOf text) = 0 :=
        Grammar.backgrounds_eq_zero_iff.2 fun line hline hkind => hnone ⟨line, hline, hkind⟩
      rw [hzero] at hbacks
      cases hsome : second.background with
      | none => exact hback' hsome
      | some scenario => simp [hsome] at hbacks
    obtain ⟨fault, hfault, hkind⟩ := hfollows.run_background hother hnotext hback hex
    exact ⟨fault.renumber (· + n), by rw [hfault]; rfl, hkind⟩

/-- A file that ends in a table. -/
def tableSource : String :=
  "@a\nFeature: f\nScenario Outline: o\nGiven <key>\nExamples:\n|key|\n|value|"

/-- A tagged scenario and a background. -/
def groupsText : String := "@b\n@c\nScenario: s\nThen t\nBackground: b\n"

/-- The feature of `tableSource`. -/
def tableFeature : Feature where
  name := "f"
  tags := .ofList ["a"]
  description := []
  background := none
  items :=
    [.outline ⟨"o", [⟨.given, "", [⟨"key", ""⟩]⟩],
      [⟨⟨["key"], by decide⟩, [⟨["value"], by decide⟩], .empty⟩], .empty⟩]

/-- The feature of `groupsText` below a bare header. -/
def groupsFeature : Feature where
  name := "x"
  tags := .empty
  description := []
  background := some ⟨"b", [], .empty⟩
  items := [.scenario ⟨"s", [⟨.then_, "t", []⟩], .ofList ["b", "c"]⟩]

/-- The tags that follow the table are those of the scenario, and the background can be added only
    once. -/
theorem parse_append_groupsText :
    (parse tableSource = .ok tableFeature ∧
      parse ("Feature: x\n" ++ groupsText) = .ok groupsFeature ∧
      parse (tableSource ++ "\n" ++ groupsText) =
        .ok { tableFeature with
          background := tableFeature.background.or groupsFeature.background
          items := tableFeature.items ++ groupsFeature.items }) ∧
    ∃ fault, parse ("Feature: x\n" ++ groupsText ++ "\n" ++ groupsText) = .error fault ∧
      fault.cause.kind = .duplicateBackground := by
  have htable : parse tableSource = .ok tableFeature := by decide +kernel
  have hgroups : parse ("Feature: x\n" ++ groupsText) = .ok groupsFeature := by decide +kernel
  exact ⟨⟨htable, hgroups, (parse_append htable hgroups rfl).1 (.inl rfl)⟩,
    (parse_append hgroups hgroups rfl).2 (by decide) (by decide)⟩

end FeatureFile
