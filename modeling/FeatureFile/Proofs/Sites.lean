import FeatureFile.Proofs.Layout
import Mathlib.Data.List.DropRight
import Mathlib.Data.List.TakeWhile

set_option autoImplicit false

/-! # Where the groups of a file stand

A `Site` is a line of a file with what stands above and below it. What belongs to a header can be
read off its site without any reader: the tags on the unbroken run of tag lines right above it, the
steps or rows up to the next header, the tables up to the next item.

The main result is `Layout.Holds.forall₂_sites`: in a file with a layout, what is read off the sites
of the group headers is what the layout gives to the groups, one for one and in order. -/

namespace FeatureFile

/-! ## Headers -/

namespace LineKind

/-- Whether lines of a kind are headers. -/
def isHeader : LineKind → Bool
  | header _ => true
  | _ => false

/-- Whether lines of a kind open an item. -/
def isItem : LineKind → Bool
  | header .scenario | header .outline => true
  | _ => false

/-- Whether lines of a kind open a background or an item. -/
def isMember : LineKind → Bool
  | header .background | header .scenario | header .outline => true
  | _ => false

theorem isMember_of_isItem {kind : LineKind} (h : kind.isItem = true) : kind.isMember = true := by
  unfold isItem at h
  split at h <;> simp_all [isMember]

end LineKind

/-! ## Sites -/

/-- A line of a file, with the lines above and below it. -/
structure Site where
  before : List Line
  line : Line
  after : List Line

/-- The lines whose kind satisfies `p`, in order, each with what stands above and below it; `before`
    stands above all of them. -/
def sitesBelow (p : LineKind → Bool) (before : List Line) : List Line → List Site
  | [] => []
  | line :: after =>
    if p line.kind then ⟨before, line, after⟩ :: sitesBelow p (before ++ [line]) after
    else sitesBelow p (before ++ [line]) after

/-- The lines of a file whose kind satisfies `p`, in order, each with what stands above and below
    it. -/
def sites (p : LineKind → Bool) (lines : List Line) : List Site := sitesBelow p [] lines

namespace Site

/-- The unbroken run of tag lines right above a header. -/
def tagRun (site : Site) : List Line := site.before.rtakeWhile fun line => line.kind = .tags

/-- The lines of a kind between a header and the next header. -/
def body (kind : LineKind) (site : Site) : List Line :=
  (site.after.takeWhile fun line => !line.kind.isHeader).filter fun line => line.kind = kind

/-- The tables below the header of an item, up to the next item. -/
def tables (site : Site) : List Site :=
  sites (fun kind => kind = .header .examples)
    (site.after.takeWhile fun line => !line.kind.isItem)

end Site

section Sites

variable {p : LineKind → Bool} {before lines more : List Line} {line : Line}

theorem sitesBelow_append (h : ∀ line ∈ lines, p line.kind = false) :
    sitesBelow p before (lines ++ more) = sitesBelow p (before ++ lines) more := by
  induction lines generalizing before with
  | nil => simp
  | cons line rest ih =>
    rw [List.cons_append, sitesBelow, h line (by simp), if_neg Bool.false_ne_true,
      ih fun line hline => h line (List.mem_cons_of_mem _ hline)]
    simp

theorem sitesBelow_cons_of_pos (h : p line.kind = true) :
    sitesBelow p before (line :: more) =
      ⟨before, line, more⟩ :: sitesBelow p (before ++ [line]) more := by
  rw [sitesBelow, if_pos h]

theorem sitesBelow_eq_nil (h : ∀ line ∈ lines, p line.kind = false) :
    sitesBelow p before lines = [] := by
  rw [← List.append_nil lines, sitesBelow_append h, sitesBelow]

/-- A site of a file cuts the file at its line. -/
theorem eq_append_of_mem_sitesBelow {site : Site} (h : site ∈ sitesBelow p before lines) :
    before ++ lines = site.before ++ site.line :: site.after := by
  induction lines generalizing before with
  | nil => simp [sitesBelow] at h
  | cons line rest ih =>
    have hrest : site ∈ sitesBelow p (before ++ [line]) rest →
        before ++ line :: rest = site.before ++ site.line :: site.after := by
      intro hsite
      rw [← ih hsite, List.append_assoc, List.singleton_append]
    rw [sitesBelow] at h
    split at h
    · rcases List.mem_cons.1 h with rfl | h
      · rfl
      · exact hrest h
    · exact hrest h

theorem mem_of_mem_sites {site : Site} (h : site ∈ sites p lines) (hline : line ∈ site.after) :
    line ∈ lines := by
  have hlines : lines = site.before ++ site.line :: site.after := eq_append_of_mem_sitesBelow h
  rw [hlines]
  simp [hline]

end Sites

/-! ## Runs of tags -/

/-- Right below these lines a run of tags starts afresh. -/
def EndsUntagged (lines : List Line) : Prop :=
  (lines.rtakeWhile fun line => line.kind = .tags) = []

theorem endsUntagged_nil : EndsUntagged [] := List.rtakeWhile_nil _

theorem endsUntagged_append {lines more : List Line} (hne : more ≠ [])
    (h : ∀ line ∈ more, line.kind ≠ .tags) : EndsUntagged (lines ++ more) := by
  refine List.rtakeWhile_eq_nil_iff.2 fun hl => ?_
  rw [List.getLast_append_of_ne_nil hl hne]
  simpa using h _ (List.getLast_mem hne)

theorem tagRun_append {lines above : List Line} (hends : EndsUntagged lines)
    (h : ∀ line ∈ above, line.kind = .tags) :
    ((lines ++ above).rtakeWhile fun line => line.kind = .tags) = above := by
  induction above using List.reverseRecOn with
  | nil => rw [List.append_nil]; exact hends
  | append_singleton above line ih =>
    have hline : line.kind = .tags := h line (by simp)
    rw [← List.append_assoc, List.rtakeWhile_concat_pos _ _ _ (by simpa using hline),
      ih fun line hline => h line (List.mem_append_left _ hline)]

/-- Up to their first header these lines are tags. -/
def StartsTagged (lines : List Line) : Prop :=
  ∀ line ∈ lines.takeWhile fun line => !line.kind.isHeader, line.kind = .tags

theorem startsTagged_append {above more : List Line} {header : Line}
    (habove : ∀ line ∈ above, line.kind = .tags) (hheader : header.kind.isHeader = true) :
    StartsTagged (above ++ header :: more) := by
  rw [StartsTagged, List.takeWhile_append_of_pos fun line hline => by
    simp [habove line hline, LineKind.isHeader]]
  simpa [List.takeWhile_cons, hheader] using habove

theorem StartsTagged.takeWhile {lines : List Line} (h : StartsTagged lines) (p : Line → Bool) :
    StartsTagged (lines.takeWhile p) := by
  intro line hline
  have hswap : (lines.takeWhile p).takeWhile (fun line => !line.kind.isHeader) =
      (lines.takeWhile fun line => !line.kind.isHeader).takeWhile p := by
    simp only [List.takeWhile_takeWhile, and_comm]
  rw [hswap] at hline
  exact h line (List.takeWhile_subset p hline)

/-- The lines of one kind below a header, up to the tags of the next header, are its body. -/
theorem body_eq {kind : LineKind} {site : Site} {lines more : List Line}
    (hafter : site.after = lines ++ more) (hlines : ∀ line ∈ lines, line.kind = kind)
    (hkind : kind.isHeader = false) (htags : kind ≠ .tags) (hmore : StartsTagged more) :
    site.body kind = lines := by
  rw [Site.body, hafter, List.takeWhile_append_of_pos fun line hline => by
    simp [hlines line hline, hkind], List.filter_append]
  have hself : (lines.filter fun line => line.kind = kind) = lines :=
    List.filter_eq_self.2 fun line hline => by simp [hlines line hline]
  have hnil : ((more.takeWhile fun line => !line.kind.isHeader).filter
      fun line => line.kind = kind) = [] :=
    List.filter_eq_nil_iff.2 fun line hline => by simp [hmore line hline, htags.symm]
  rw [hself, hnil, List.append_nil]

/-! ## The lines of a layout -/

theorem TableLines.Holds.endsUntagged {table : TableLines} {block : ExampleBlock}
    (h : table.Holds block) (before : List Line) :
    EndsUntagged (before ++ table.header :: table.rows) :=
  endsUntagged_append (by simp) h.kind_ne_tags

/-! ## Sites of the groups of a layout -/

/-- What is read off the site of a table is what the layout gives to the table. -/
structure TableAt (site : Site) (table : TableLines) : Prop where
  line : site.line = table.header
  tagRun : site.tagRun = table.above
  rows : site.body .row = table.rows

/-- What is read off the site of a group is what the layout gives to the group. -/
structure GroupAt (site : Site) (group : GroupLines) : Prop where
  line : site.line = group.header
  tagRun : site.tagRun = group.above
  steps : site.body .step = group.steps
  tables : List.Forall₂ TableAt site.tables group.tables

section Tables

variable {tables : List TableLines} {blocks : List ExampleBlock} {before more : List Line}

theorem startsTagged_tables (h : List.Forall₂ TableLines.Holds tables blocks)
    (hmore : StartsTagged more) : StartsTagged (tables.flatMap TableLines.lines ++ more) := by
  cases h with
  | nil => exact hmore
  | @cons table block tables blocks htable _ =>
    rw [List.flatMap_cons, TableLines.lines, List.append_assoc, List.append_assoc,
      List.cons_append]
    exact startsTagged_append htable.above (by rw [htable.kind_header]; rfl)

theorem endsUntagged_tables (h : List.Forall₂ TableLines.Holds tables blocks)
    (hbefore : EndsUntagged before) : EndsUntagged (before ++ tables.flatMap TableLines.lines) := by
  induction h generalizing before with
  | nil => simpa using hbefore
  | @cons table block tables blocks htable _ ih =>
    rw [List.flatMap_cons, ← List.append_assoc, TableLines.lines, ← List.append_assoc]
    exact ih (htable.endsUntagged _)

theorem forall₂_sites_tables (h : List.Forall₂ TableLines.Holds tables blocks)
    (hbefore : EndsUntagged before) (hmore : StartsTagged more)
    (hnone : ∀ line ∈ more, line.kind ≠ .header .examples) :
    List.Forall₂ TableAt
      (sitesBelow (fun kind => kind = .header .examples) before
        (tables.flatMap TableLines.lines ++ more)) tables := by
  induction h generalizing before with
  | nil =>
    rw [List.flatMap_nil, List.nil_append, sitesBelow_eq_nil (by simpa using hnone)]
    exact .nil
  | @cons table block tables blocks htable htables ih =>
    have hlines : (table :: tables).flatMap TableLines.lines ++ more =
        table.above ++ table.header :: (table.rows ++
          (tables.flatMap TableLines.lines ++ more)) := by simp [TableLines.lines]
    have habove : ∀ line ∈ table.above, decide (line.kind = .header .examples) = false :=
      fun line hline => by simp [htable.above line hline]
    have hrows : ∀ line ∈ table.rows, decide (line.kind = .header .examples) = false :=
      fun line hline => by simp [htable.kind_rows line hline]
    rw [hlines, sitesBelow_append habove, sitesBelow_cons_of_pos (by simp [htable.kind_header]),
      sitesBelow_append hrows]
    refine .cons ⟨rfl, tagRun_append hbefore htable.above, ?_⟩ (ih ?_)
    · exact body_eq rfl htable.kind_rows rfl (by simp) (startsTagged_tables htables hmore)
    · rw [List.append_assoc, List.singleton_append]
      exact htable.endsUntagged _

end Tables

section Groups

variable {group : GroupLines} {member : Member} {groups : List GroupLines}
  {members : List Member} {before : List Line}

theorem startsTagged_groups (h : List.Forall₂ GroupLines.Holds groups members) :
    StartsTagged (groups.flatMap GroupLines.lines) := by
  cases h with
  | nil => simp [StartsTagged]
  | @cons group member groups members hgroup _ =>
    rw [List.flatMap_cons, GroupLines.lines, List.append_assoc, List.cons_append]
    exact startsTagged_append hgroup.above (by rw [hgroup.kind_header]; rfl)

theorem GroupLines.Holds.endsUntagged (h : group.Holds member) (before : List Line) :
    EndsUntagged (before ++ group.lines) := by
  rw [GroupLines.lines, ← List.append_assoc, ← List.cons_append, ← List.append_assoc]
  exact endsUntagged_tables h.tables (endsUntagged_append (by simp) h.kind_ne_tags)

/-- Up to the next item there is no table, since a background has none. -/
theorem not_table_of_groups (h : List.Forall₂ GroupLines.Holds groups members) :
    ∀ line ∈ (groups.flatMap GroupLines.lines).takeWhile fun line => !line.kind.isItem,
      line.kind ≠ .header .examples := by
  induction h with
  | nil => simp
  | @cons group member groups members hgroup _ ih =>
    have habove : ∀ line ∈ group.above, !line.kind.isItem :=
      fun line hline => by simp [hgroup.above line hline, LineKind.isItem]
    rw [List.flatMap_cons, GroupLines.lines, List.append_assoc,
      List.takeWhile_append_of_pos habove]
    intro line hline
    rcases List.mem_append.1 hline with hline | hline
    · simp [hgroup.above line hline]
    · -- an item stops the scan at its header, a background lets it pass on to the next groups
      rcases member with scenario | item
      · have htables : group.tables = [] := List.forall₂_nil_right_iff.1 hgroup.tables
        have hbody : ∀ line ∈ group.header :: group.steps, !line.kind.isItem := by
          intro line hline
          rcases List.mem_cons.1 hline with rfl | hline
          · simp [hgroup.kind_header, LineKind.isItem, Member.keyword]
          · simp [hgroup.kind_steps line hline, LineKind.isItem]
        rw [htables, List.flatMap_nil, List.append_nil,
          List.takeWhile_append_of_pos hbody] at hline
        rcases List.mem_append.1 hline with hline | hline
        · rcases List.mem_cons.1 hline with rfl | hline
          · simp [hgroup.kind_header, Member.keyword]
          · simp [hgroup.kind_steps line hline]
        · exact ih line hline
      · have hitem : group.header.kind.isItem = true := by
          rw [hgroup.kind_header]
          cases item <;> rfl
        simp [hitem] at hline

/-- What stands below the header of a group, read up to the next item, are its own tables. -/
theorem groupAt_of_holds (h : group.Holds member)
    (hrest : List.Forall₂ GroupLines.Holds groups members) (hbefore : EndsUntagged before) :
    GroupAt ⟨before ++ group.above, group.header,
      group.steps ++ (group.tables.flatMap TableLines.lines ++
        groups.flatMap GroupLines.lines)⟩ group := by
  have hstart := startsTagged_groups hrest
  refine ⟨rfl, tagRun_append hbefore h.above, ?_, ?_⟩
  · exact body_eq rfl h.kind_steps rfl (by simp) (startsTagged_tables h.tables hstart)
  · have hsteps : ∀ line ∈ group.steps, !line.kind.isItem :=
      fun line hline => by simp [h.kind_steps line hline, LineKind.isItem]
    have htables : ∀ line ∈ group.tables.flatMap TableLines.lines, !line.kind.isItem := by
      intro line hline
      rcases kind_tables h.tables hline with hkind | hkind | hkind <;>
        simp [hkind, LineKind.isItem]
    have hnone : ∀ line ∈ group.steps, decide (line.kind = .header .examples) = false :=
      fun line hline => by simp [h.kind_steps line hline]
    have hends : EndsUntagged ([] ++ group.steps) := by
      by_cases hnil : group.steps = []
      · rw [hnil]
        exact endsUntagged_nil
      · exact endsUntagged_append hnil fun line hline => by simp [h.kind_steps line hline]
    -- up to the next item stand the own steps and tables, and what a background leaves below them
    rw [Site.tables, List.takeWhile_append_of_pos hsteps, List.takeWhile_append_of_pos htables,
      sites, sitesBelow_append hnone]
    exact forall₂_sites_tables h.tables hends (hstart.takeWhile _) (not_table_of_groups hrest)

theorem eq_false_of_not_isMember {p : LineKind → Bool}
    (hp : ∀ kind, p kind = true → kind.isMember) (kind : LineKind)
    (hkind : kind.isMember = false) : p kind = false := by
  by_contra hne
  rw [hp kind (by simpa using hne)] at hkind
  exact Bool.false_ne_true hkind.symm

/-- The sites of the group headers give the groups of a layout, one for one and in order. -/
theorem forall₂_sites_groups {p : LineKind → Bool} (hp : ∀ kind, p kind = true → kind.isMember)
    (h : List.Forall₂ GroupLines.Holds groups members) (hbefore : EndsUntagged before) :
    List.Forall₂ GroupAt (sitesBelow p before (groups.flatMap GroupLines.lines))
      (groups.filter fun group => p group.header.kind) := by
  have hno := eq_false_of_not_isMember hp
  induction h generalizing before with
  | nil => exact .nil
  | @cons group member groups members hgroup hgroups ih =>
    have hlines : (group :: groups).flatMap GroupLines.lines =
        group.above ++ group.header :: (group.steps ++
          (group.tables.flatMap TableLines.lines ++ groups.flatMap GroupLines.lines)) := by
      simp [GroupLines.lines]
    have habove : ∀ line ∈ group.above, p line.kind = false :=
      fun line hline => hno _ (by rw [hgroup.above line hline]; rfl)
    have hbelow : ∀ line ∈ group.steps ++ group.tables.flatMap TableLines.lines,
        p line.kind = false := by
      intro line hline
      rcases List.mem_append.1 hline with hline | hline
      · exact hno _ (by rw [hgroup.kind_steps line hline]; rfl)
      · rcases kind_tables hgroup.tables hline with hkind | hkind | hkind <;>
          exact hno _ (by rw [hkind]; rfl)
    have hskip : sitesBelow p (before ++ group.above ++ [group.header]) (group.steps ++
        (group.tables.flatMap TableLines.lines ++ groups.flatMap GroupLines.lines)) =
        sitesBelow p (before ++ group.lines) (groups.flatMap GroupLines.lines) := by
      rw [← List.append_assoc group.steps, sitesBelow_append hbelow]
      simp [GroupLines.lines]
    -- the other lines of the group are no sites, they only move up into what stands above the next
    rw [hlines, sitesBelow_append habove]
    by_cases hheader : p group.header.kind = true
    · rw [sitesBelow_cons_of_pos hheader, hskip, List.filter_cons, if_pos hheader]
      exact .cons (groupAt_of_holds hgroup hgroups hbefore) (ih (hgroup.endsUntagged before))
    · rw [sitesBelow, if_neg hheader, hskip, List.filter_cons, if_neg hheader]
      exact ih (hgroup.endsUntagged before)

end Groups

/-- The sites of the group headers of a file give the groups of its layout, one for one and in
    order. -/
theorem Layout.Holds.forall₂_sites {layout : Layout} {feature : Feature} {p : LineKind → Bool}
    (h : layout.Holds feature) (hp : ∀ kind, p kind = true → kind.isMember) :
    List.Forall₂ GroupAt (sites p layout.lines)
      (layout.groups.filter fun group => p group.header.kind) := by
  have hno := eq_false_of_not_isMember hp
  obtain ⟨members, hmembers, -, -⟩ := h.groups
  have hlines : layout.lines = layout.preamble ++ layout.header :: layout.description ++
      layout.groups.flatMap GroupLines.lines := by simp [Layout.lines]
  have habove : ∀ line ∈ layout.preamble ++ layout.header :: layout.description,
      p line.kind = false := by
    intro line hline
    rcases List.mem_append.1 hline with hline | hline
    · rcases h.preamble line hline with hkind | hkind <;> exact hno _ (by rw [hkind]; rfl)
    · rcases List.mem_cons.1 hline with rfl | hline
      · exact hno _ (by rw [Line.kind_of_shape h.header]; rfl)
      · exact hno _ (by rw [h.description line hline]; rfl)
  have hends : EndsUntagged (layout.preamble ++ layout.header :: layout.description) :=
    endsUntagged_append (by simp) h.kind_ne_tags
  rw [hlines, sites, sitesBelow_append habove]
  exact forall₂_sites_groups hp hmembers hends

/-! ## Sites of the groups of a feature -/

section Pairs

variable {α β γ : Type} {R : α → β → Prop} {xs : List α} {ys : List β}

theorem forall₂_trans {S : β → γ → Prop} {zs : List γ} (h : List.Forall₂ R xs ys)
    (h' : List.Forall₂ S ys zs) : List.Forall₂ (fun x z => ∃ y, R x y ∧ S y z) xs zs := by
  induction h generalizing zs with
  | nil =>
    cases h'
    exact .nil
  | @cons x y xs ys hxy _ ih =>
    cases h' with
    | cons hyz htail => exact .cons ⟨y, hxy, hyz⟩ (ih htail)

theorem map_eq_of_forall₂ {f : α → γ} {g : β → γ} (h : List.Forall₂ R xs ys)
    (heq : ∀ x y, R x y → g y = f x) : ys.map g = xs.map f := by
  induction h with
  | nil => rfl
  | @cons x y xs ys hxy _ ih => rw [List.map_cons, List.map_cons, heq x y hxy, ih]

theorem flatMap_eq_of_forall₂ {f : α → List γ} {g : β → List γ} (h : List.Forall₂ R xs ys)
    (heq : ∀ x y, R x y → g y = f x) : ys.flatMap g = xs.flatMap f := by
  rw [List.flatMap_def, List.flatMap_def, map_eq_of_forall₂ h heq]

theorem filter_flatMap_of_forall₂ {p : γ → Bool} {f g : α → List γ} (h : List.Forall₂ R xs ys)
    (heq : ∀ x y, R x y → (f x).filter p = g x) : (xs.flatMap f).filter p = xs.flatMap g := by
  induction h with
  | nil => rfl
  | @cons x y xs ys hxy _ ih =>
    rw [List.flatMap_cons, List.flatMap_cons, List.filter_append, heq x y hxy, ih]

end Pairs

/-- The header of a group at the site says what the group of the feature says. -/
def Site.Shows (site : Site) (member : Member) : Prop :=
  ∃ group : GroupLines, GroupAt site group ∧ group.Holds member

section Features

variable {groups : List GroupLines} {members : List Member} {layout : Layout} {feature : Feature}

theorem forall₂_item_groups (h : List.Forall₂ GroupLines.Holds groups members) :
    List.Forall₂ (fun group item => group.Holds (.item item))
      (groups.filter fun group => group.header.kind.isItem)
      (members.filterMap Member.item?) := by
  induction h with
  | nil => exact .nil
  | @cons group member groups members hgroup _ ih =>
    rw [List.filter_cons, List.filterMap_cons, hgroup.kind_header]
    rcases member with scenario | ⟨scenario | outline⟩
    · exact ih
    · exact .cons hgroup ih
    · exact .cons hgroup ih

theorem forall₂_background_groups (h : List.Forall₂ GroupLines.Holds groups members) :
    List.Forall₂ (fun group scenario => group.Holds (.background scenario))
      (groups.filter fun group => group.header.kind = .header .background)
      (members.filterMap Member.background?) := by
  induction h with
  | nil => exact .nil
  | @cons group member groups members hgroup _ ih =>
    rw [List.filter_cons, List.filterMap_cons, hgroup.kind_header]
    rcases member with scenario | ⟨scenario | outline⟩
    · exact .cons hgroup ih
    · exact ih
    · exact ih

/-- The sites of the item headers show the items of the feature, one for one and in order. -/
theorem Layout.Holds.sites_items (h : layout.Holds feature) :
    List.Forall₂ (fun site item => site.Shows (.item item)) (sites LineKind.isItem layout.lines)
      feature.items := by
  obtain ⟨members, hmembers, -, hitems⟩ := h.groups
  rw [← hitems]
  exact forall₂_trans (h.forall₂_sites fun _ => LineKind.isMember_of_isItem)
    (forall₂_item_groups hmembers)

/-- There is a site of a background header exactly if the feature has a background, which it
    shows. -/
theorem Layout.Holds.sites_background (h : layout.Holds feature) :
    List.Forall₂ (fun site scenario => site.Shows (.background scenario))
      (sites (fun kind => kind = .header .background) layout.lines)
      feature.background.toList := by
  obtain ⟨members, hmembers, hback, -⟩ := h.groups
  rw [← hback]
  refine forall₂_trans (h.forall₂_sites fun kind hkind => ?_) (forall₂_background_groups hmembers)
  rw [of_decide_eq_true hkind]
  rfl

/-- The sites of all group headers give all groups of the layout. -/
theorem Layout.Holds.sites_groups (h : layout.Holds feature) :
    List.Forall₂ GroupAt (sites LineKind.isMember layout.lines) layout.groups := by
  obtain ⟨members, hmembers, -, -⟩ := h.groups
  have hall : (layout.groups.filter fun group => group.header.kind.isMember) = layout.groups := by
    refine List.filter_eq_self.2 fun group hgroup => ?_
    obtain ⟨member, -, hmember⟩ := exists_of_forall₂_left hmembers hgroup
    rw [hmember.kind_header]
    rcases member with scenario | ⟨scenario | outline⟩ <;> rfl
  rw [← hall]
  exact h.forall₂_sites fun _ hkind => hkind

end Features

end FeatureFile
