import FeatureFile.Proofs.Sites
import FeatureFile.Reader
import Mathlib.Logic.Function.Iterate

set_option autoImplicit false

/-! # Which group a tag belongs to

Tags are collected while lines are read, and handed over at the next header. The rule that this
leads to can be said without a reader: the tags of the feature are those on all tag lines above its
header, the tags of any other group are those on the unbroken run of tag lines right above its
header.

`TagsAttached` states that rule for a whole file, and with it that no tag line is left over and none
is used twice. -/

namespace FeatureFile

/-- The names on some lines, without the empty ones, each at its first position. -/
def distinctTags (lines : List Line) : List String :=
  ((lines.flatMap Line.tagNames).filter fun name => name ≠ "").eraseDups

/-! ## Tag sets as lists of names -/

namespace TagSet

theorem names_insertAll (tags : TagSet) (names : List String) :
    (tags.insertAll names).names =
      tags.names ++ (names.filter fun name => name ∉ tags.names).eraseDups := by
  induction names generalizing tags with
  | nil => simp [insertAll]
  | cons name rest ih =>
    have hcons : tags.insertAll (name :: rest) = (tags.insert name).insertAll rest := rfl
    rw [hcons, ih, names_insert]
    by_cases h : name ∈ tags.names
    · simp [h]
    · -- the filter of the induction hypothesis also drops the name that was just added
      have hfilter : (rest.filter fun other => other ∉ tags.names ++ [name]) =
          (rest.filter fun other => other ∉ tags.names).filter fun other => !other == name := by
        rw [List.filter_filter]
        refine List.filter_congr fun other _ => ?_
        by_cases hother : other = name <;> simp [hother]
      rw [if_neg h, hfilter, List.filter_cons, if_pos (by simpa using h), List.eraseDups_cons]
      simp

theorem names_ofLines (lines : List Line) : (ofLines lines).names = distinctTags lines := by
  have h := names_insertAll empty ((lines.flatMap Line.tagNames).filter fun name => name ≠ "")
  simpa [ofLines, ofList, distinctTags, empty] using h

end TagSet

/-! ## The buffer of a reader -/

/-- Takes the next line: a tag line is collected, a header takes what was collected. -/
def Reader.advance (reader : Reader) : Reader :=
  match reader.next with
  | (none, reader) => reader
  | (some line, reader) =>
    match line.shape with
    | .tags names => reader.buffer names
    | .header _ _ => reader.drain.2
    | _ => reader

namespace Reader

variable {line : Line} {rest : List Line} {pending : TagSet}

theorem advance_tags {names : List String} (h : line.shape = .tags names) :
    advance ⟨line :: rest, pending⟩ = ⟨rest, pending.addLine names⟩ := by
  simp [advance, next, buffer, h]

theorem advance_header {keyword : GroupKeyword} {title : String}
    (h : line.shape = .header keyword title) :
    advance ⟨line :: rest, pending⟩ = ⟨rest, .empty⟩ := by
  simp [advance, next, drain, h]

theorem advance_other (htags : line.kind ≠ .tags) (hheader : line.kind.isHeader = false) :
    advance ⟨line :: rest, pending⟩ = ⟨rest, pending⟩ := by
  cases h : line.shape <;>
    simp_all [advance, next, Line.kind, Shape.kind, LineKind.isHeader]

end Reader

namespace Draft

variable {draft next : Draft} {line : Line} {lines : List Line} {feature : Feature}

/-- The tags that wait for a header. -/
def pending : Draft → TagSet
  | .preamble tags _ => tags
  | .body _ (.tagged tags _) | .body _ (.outlineTagged _ tags _) => tags
  | .body _ _ => .empty

/-- Where the file may end, no tags wait. -/
theorem pending_of_finish (h : draft.finish = .ok feature) : draft.pending = .empty := by
  rcases draft with _ | ⟨_, place⟩
  · simp [finish] at h
  · cases place <;> simp_all [finish, faultAt, pending]

theorem pending_of_outline {place : Place} {outline : Outline}
    (h : place.outline? = some outline) : (Draft.body feature place).pending = .empty := by
  cases place <;> simp_all [Place.outline?, pending]

theorem pending_of_openGroup {tags : TagSet} {keyword : GroupKeyword} {title : String}
    (h : openGroup feature tags line keyword title = .ok next) : next.pending = .empty := by
  rcases openGroup_eq_ok_iff.1 h with ⟨-, -, rfl⟩ | ⟨-, rfl⟩ | ⟨-, rfl⟩ <;> rfl

/-- One line does to the buffer of a reader what it does to the tags that wait in a draft. -/
theorem Moves.advance (h : Moves draft line next) (rest : List Line) :
    Reader.advance ⟨line :: rest, draft.pending⟩ = ⟨rest, next.pending⟩ := by
  cases h with
  | preambleTags shape => exact Reader.advance_tags shape
  | preambleText shape | describe shape =>
    exact Reader.advance_other (by simp [Line.kind, Shape.kind, shape])
      (by rw [Line.kind_of_shape shape]; rfl)
  | feature shape => exact Reader.advance_header shape
  | step shape _ | outlineStep shape _ | labels shape _ | row shape _ _ =>
    exact Reader.advance_other (by simp [Line.kind, Shape.kind, shape])
      (by rw [Line.kind_of_shape shape]; rfl)
  | tags closes _ shape =>
    rw [pending_of_finish closes]
    exact Reader.advance_tags shape
  | outlineTags inside shape =>
    rw [pending_of_outline inside]
    exact Reader.advance_tags shape
  | moreTags shape | moreOutlineTags shape => exact Reader.advance_tags shape
  | group _ shape opens | taggedGroup shape opens | outlineTaggedGroup shape opens =>
    rw [pending_of_openGroup opens]
    exact Reader.advance_header shape
  | table _ shape | taggedTable shape => exact Reader.advance_header shape

/-- After these lines, whatever comes below them, the buffer of a reader holds the tags that wait in
    the draft. -/
def Buffered (draft : Draft) (lines : List Line) : Prop :=
  ∀ rest, Reader.advance^[lines.length] (Reader.ofLines (lines ++ rest)) = ⟨rest, draft.pending⟩

theorem Buffered.of_moves (h : draft.Buffered lines) (moves : Moves draft line next) :
    next.Buffered (lines ++ [line]) := by
  intro rest
  rw [List.length_append, List.length_singleton, Function.iterate_succ_apply', List.append_assoc,
    List.singleton_append, h]
  exact moves.advance rest

theorem buffered_of_run (h : start.run lines = .ok draft) : draft.Buffered lines := by
  have hstart : start.Buffered [] := fun _ => rfl
  exact run_induction (fun _ _ _ _ hread hdraft => hdraft.of_moves (read_eq_ok_iff.1 hread))
    hstart h

end Draft

/-! ## Whole files -/

/-- The tags of a feature and its groups are those on the lines that stand above their headers. -/
structure TagsAttached (lines : List Line) (feature : Feature) : Prop where
  /-- All tag lines above the feature header are the feature's, whatever text is between them. -/
  header : feature.tags.names =
    distinctTags (lines.takeWhile fun line => line.kind ≠ .header .feature)
  background : (feature.background.toList.map fun scenario => scenario.tags.names) =
    (sites (fun kind => kind = .header .background) lines).map fun site => distinctTags site.tagRun
  items : (feature.items.map fun item => (Member.item item).tags.names) =
    (sites LineKind.isItem lines).map fun site => distinctTags site.tagRun
  blocks : (feature.items.map fun item =>
      (Member.item item).blocks.map fun block => block.tags.names) =
    (sites LineKind.isItem lines).map fun site =>
      site.tables.map fun table => distinctTags table.tagRun
  /-- Every tag line stands in one of these places, and in only one. -/
  partition : (lines.filter fun line => line.kind = .tags) =
    ((lines.takeWhile fun line => line.kind ≠ .header .feature).filter fun line =>
      line.kind = .tags) ++
    (sites LineKind.isMember lines).flatMap fun site =>
      site.tagRun ++ site.tables.flatMap Site.tagRun
  /-- All along, the buffer of the reader holds the tags that wait for a header. -/
  buffer : ∀ n ≤ lines.length, ∃ draft, Draft.start.run (lines.take n) = .ok draft ∧
    Reader.advance^[n] (Reader.ofLines lines) = ⟨lines.drop n, draft.pending⟩
  /-- At the end none wait. -/
  drained : Reader.advance^[lines.length] (Reader.ofLines lines) = ⟨[], .empty⟩

section Files

variable {lines : List Line} {layout : Layout} {feature : Feature}

/-- The tags of a group are those on the run above its header. -/
theorem Site.Shows.tags_names {site : Site} {member : Member} (h : site.Shows member) :
    member.tags.names = distinctTags site.tagRun := by
  obtain ⟨group, hat, hgroup⟩ := h
  rw [hgroup.tags, hat.tagRun, TagSet.names_ofLines]

/-- The tags of the tables of a group are those on the runs above their headers. -/
theorem Site.Shows.block_tags_names {site : Site} {member : Member} (h : site.Shows member) :
    (member.blocks.map fun block => block.tags.names) =
      site.tables.map fun table => distinctTags table.tagRun := by
  obtain ⟨group, hat, hgroup⟩ := h
  refine map_eq_of_forall₂ (forall₂_trans hat.tables hgroup.tables) ?_
  rintro table block ⟨lines, htable, hlines⟩
  rw [hlines.tags, htable.tagRun, TagSet.names_ofLines]

/-- The preamble is what stands above the feature header. -/
theorem Layout.Holds.takeWhile_lines (h : layout.Holds feature) :
    (layout.lines.takeWhile fun line => line.kind ≠ .header .feature) = layout.preamble := by
  have hpreamble : ∀ line ∈ layout.preamble, decide (line.kind ≠ .header .feature) = true := by
    intro line hline
    rcases h.preamble line hline with hkind | hkind <;> simp [hkind]
  rw [Layout.lines, List.takeWhile_append_of_pos hpreamble, List.takeWhile_cons]
  simp [h.kind_header]

theorem filter_tags_eq_self {above : List Line} (h : ∀ line ∈ above, line.kind = .tags) :
    (above.filter fun line => line.kind = .tags) = above :=
  List.filter_eq_self.2 fun line hline => by simp [h line hline]

theorem filter_tags_eq_nil (h : ∀ line ∈ lines, line.kind ≠ .tags) :
    (lines.filter fun line => line.kind = .tags) = [] :=
  List.filter_eq_nil_iff.2 fun line hline => by simp [h line hline]

theorem TableLines.Holds.filter_tags {table : TableLines} {block : ExampleBlock}
    (h : table.Holds block) :
    (table.lines.filter fun line => line.kind = .tags) = table.above := by
  rw [TableLines.lines, List.filter_append, filter_tags_eq_self h.above,
    filter_tags_eq_nil h.kind_ne_tags, List.append_nil]

/-- The tag lines of a group are those above its header and above those of its tables. -/
theorem GroupLines.Holds.filter_tags {group : GroupLines} {member : Member}
    (h : group.Holds member) :
    (group.lines.filter fun line => line.kind = .tags) =
      group.above ++ group.tables.flatMap TableLines.above := by
  have htables : ((group.tables.flatMap TableLines.lines).filter fun line => line.kind = .tags) =
      group.tables.flatMap TableLines.above :=
    filter_flatMap_of_forall₂ h.tables fun table block htable => htable.filter_tags
  rw [GroupLines.lines, ← List.cons_append, List.filter_append, List.filter_append,
    filter_tags_eq_nil h.kind_ne_tags, filter_tags_eq_self h.above, htables, List.nil_append]

/-- The tag lines of a file, in order, are those of its preamble and of its groups. -/
theorem Layout.Holds.filter_tags (h : layout.Holds feature) :
    (layout.lines.filter fun line => line.kind = .tags) =
      (layout.preamble.filter fun line => line.kind = .tags) ++
        layout.groups.flatMap fun group =>
          group.above ++ group.tables.flatMap TableLines.above := by
  obtain ⟨members, hmembers, -, -⟩ := h.groups
  have hgroups : ((layout.groups.flatMap GroupLines.lines).filter fun line => line.kind = .tags) =
      layout.groups.flatMap fun group => group.above ++ group.tables.flatMap TableLines.above :=
    filter_flatMap_of_forall₂ hmembers fun group member hgroup => hgroup.filter_tags
  rw [Layout.lines, ← List.cons_append, List.filter_append, List.filter_append,
    filter_tags_eq_nil h.kind_ne_tags, hgroups, List.nil_append]

/-- The tag lines of a group, read off its site. -/
theorem GroupAt.tagLines {site : Site} {group : GroupLines} (h : GroupAt site group) :
    group.above ++ group.tables.flatMap TableLines.above =
      site.tagRun ++ site.tables.flatMap Site.tagRun := by
  rw [h.tagRun, flatMap_eq_of_forall₂ h.tables fun table lines htable => htable.tagRun.symm]

end Files

/-- In every file that is read, the tags of the feature and of its groups are those on the lines
    above their headers; no tag line is left over and none is used twice. -/
theorem tagsAttached_of_parse {source : String} {feature : Feature}
    (h : parse source = .ok feature) : TagsAttached (Line.ofSource source) feature := by
  obtain ⟨draft, hrun, closes⟩ := Feature.ofLines_eq_ok_iff.1 h
  obtain ⟨layout, hlayout, hlines⟩ := exists_layout_of_ofLines h
  rw [hlines] at hrun ⊢
  refine ⟨?_, ?_, ?_, ?_, ?_, ?_, ?_⟩
  · rw [hlayout.takeWhile_lines, hlayout.tags, TagSet.names_ofLines]
  · exact map_eq_of_forall₂ hlayout.sites_background fun site scenario hshows => hshows.tags_names
  · exact map_eq_of_forall₂ hlayout.sites_items fun site item hshows => hshows.tags_names
  · exact map_eq_of_forall₂ hlayout.sites_items fun site item hshows => hshows.block_tags_names
  · rw [hlayout.takeWhile_lines, hlayout.filter_tags,
      flatMap_eq_of_forall₂ hlayout.sites_groups fun site group hat => hat.tagLines]
  · -- the run of the whole file passes through the draft after its first `n` lines
    intro n hn
    rw [← List.take_append_drop n layout.lines] at hrun
    obtain ⟨mid, hmid, -⟩ := Draft.run_append_eq_ok_iff.1 hrun
    have hbuffer := Draft.buffered_of_run hmid (layout.lines.drop n)
    rw [List.take_append_drop, List.length_take, Nat.min_eq_left hn] at hbuffer
    exact ⟨mid, hmid, hbuffer⟩
  · have hbuffer := Draft.buffered_of_run hrun []
    rwa [List.append_nil, Draft.pending_of_finish closes] at hbuffer

/-- Tags in all places: around a text, with a repeated and an empty name, above a background, on two
    lines above a table, and below a table for the next scenario. -/
def taggedSource : String :=
  "@a\ntext\n@b@a@\nFeature: f\n@c\nBackground:\n@d\nScenario Outline: o\nGiven x\n" ++
  "@e@f\n@e\nExamples:\n|n|\n@g\nScenario: s\n"

/-- The feature of `taggedSource`. -/
def taggedFeature : Feature where
  name := "f"
  tags := .ofList ["a", "b"]
  description := ["text"]
  background := some ⟨"", [], .ofList ["c"]⟩
  items :=
    [.outline ⟨"o", [⟨.given, "x", []⟩], [⟨⟨["n"], by decide⟩, [], .ofList ["e", "f"]⟩],
      .ofList ["d"]⟩,
    .scenario ⟨"s", [], .ofList ["g"]⟩]

theorem tagsAttached_taggedSource :
    parse taggedSource = .ok taggedFeature ∧
      TagsAttached (Line.ofSource taggedSource) taggedFeature :=
  ⟨by decide +kernel, tagsAttached_of_parse (by decide +kernel)⟩

end FeatureFile
