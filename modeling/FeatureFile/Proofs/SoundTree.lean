import FeatureFile.Files.Search
import FeatureFile.Proofs.Writes
import Mathlib.Data.List.Induction
import Mathlib.Data.List.Nodup

set_option autoImplicit false

/-! # Sound file trees

A tree is a list of entries, and not every such list is what a file system holds. In a sound tree
each location has one entry, its names are names of directory entries, and what is above it is a
directory; and the working directory is there. Then the entries are told by `Tree.get?`, and looking
below a location finds what stands there, each once (`Tree.IsSound.mem_descendants_iff`,
`Tree.IsSound.nodup_descendants`).

A directory that is made where nothing stands keeps a tree sound, and so do all directories of a
path (`Tree.IsSound.makeDirectories`). -/

namespace FeatureFile

/-- A name that an entry of a directory can have. -/
structure IsEntryName (name : String) : Prop where
  ne_empty : name ≠ ""
  ne_dot : name ≠ "."
  ne_dots : name ≠ ".."
  no_slash : '/' ∉ name.toList

instance (name : String) : Decidable (IsEntryName name) :=
  decidable_of_iff (name ≠ "" ∧ name ≠ "." ∧ name ≠ ".." ∧ '/' ∉ name.toList)
    ⟨fun h => ⟨h.1, h.2.1, h.2.2.1, h.2.2.2⟩,
      fun h => ⟨h.ne_empty, h.ne_dot, h.ne_dots, h.no_slash⟩⟩

theorem IsEntryName.not_same {name : String} (h : IsEntryName name) :
    ¬(name = "" ∨ name = ".") := by
  rw [not_or]
  exact ⟨h.ne_empty, h.ne_dot⟩

namespace Tree

/-- The entries of a tree are those of a file system. -/
structure IsSound (tree : Tree) : Prop where
  nodup : (tree.entries.map Prod.fst).Nodup
  nonempty : ∀ location ∈ tree.entries.map Prod.fst, location ≠ []
  names : ∀ location ∈ tree.entries.map Prod.fst, ∀ name ∈ location, IsEntryName name
  parents : ∀ location ∈ tree.entries.map Prod.fst, tree.get? location.dropLast = some .directory
  cwd : tree.get? tree.cwd = some .directory

instance (tree : Tree) : Decidable tree.IsSound :=
  decidable_of_iff
    ((tree.entries.map Prod.fst).Nodup ∧ (∀ location ∈ tree.entries.map Prod.fst, location ≠ []) ∧
      (∀ location ∈ tree.entries.map Prod.fst, ∀ name ∈ location, IsEntryName name) ∧
      (∀ location ∈ tree.entries.map Prod.fst,
        tree.get? location.dropLast = some .directory) ∧
      tree.get? tree.cwd = some .directory)
    ⟨fun h => ⟨h.1, h.2.1, h.2.2.1, h.2.2.2.1, h.2.2.2.2⟩,
      fun h => ⟨h.nodup, h.nonempty, h.names, h.parents, h.cwd⟩⟩

/-! ## Entries -/

theorem findEntry_eq_some_iff {entries : List (Location × Entry)} {location : Location}
    {entry : Entry} (h : (entries.map Prod.fst).Nodup) :
    findEntry location entries = some entry ↔ (location, entry) ∈ entries := by
  induction entries with
  | nil => simp [findEntry]
  | cons head rest ih =>
    obtain ⟨l, e⟩ := head
    rw [List.map_cons, List.nodup_cons] at h
    by_cases hl : l = location
    · subst hl
      have hrest : (l, entry) ∉ rest := fun hmem => h.1 (List.mem_map.2 ⟨_, hmem, rfl⟩)
      simp [findEntry, hrest, eq_comm]
    · simp [findEntry, hl, Ne.symm hl, ih h.2]

section Sound

variable {tree : Tree} {location target home : Location} {entry : Entry} {names : List String}
  {name : String}

/-- What stands at a location below the top is its entry. -/
theorem IsSound.mem_entries_iff (h : tree.IsSound) :
    (location, entry) ∈ tree.entries ↔ location ≠ [] ∧ tree.get? location = some entry := by
  constructor
  · intro hmem
    have hne : location ≠ [] := h.nonempty location (List.mem_map_of_mem hmem)
    rw [get?, if_neg hne, findEntry_eq_some_iff h.nodup]
    exact ⟨hne, hmem⟩
  · rintro ⟨hne, hget⟩
    rwa [get?, if_neg hne, findEntry_eq_some_iff h.nodup] at hget

theorem IsSound.mem_locations (h : tree.IsSound) (hne : location ≠ [])
    (hget : tree.get? location = some entry) : location ∈ tree.entries.map Prod.fst :=
  List.mem_map_of_mem (h.mem_entries_iff.2 ⟨hne, hget⟩)

theorem IsSound.isEntryName (h : tree.IsSound) (hget : tree.get? location = some entry)
    (hname : name ∈ location) : IsEntryName name :=
  h.names location (h.mem_locations (List.ne_nil_of_mem hname) hget) name hname

/-- Whatever is below a location, the location is a directory. -/
theorem IsSound.directory_above (h : tree.IsSound) (hne : names ≠ [])
    (hget : tree.get? (location ++ names) = some entry) :
    tree.get? location = some .directory := by
  induction names using List.reverseRecOn generalizing entry with
  | nil => exact absurd rfl hne
  | append_singleton names name ih =>
    rw [← List.append_assoc] at hget
    have hparent := h.parents _ (h.mem_locations (by simp) hget)
    rw [List.dropLast_concat] at hparent
    by_cases hnames : names = []
    · rwa [hnames, List.append_nil] at hparent
    · exact ih hnames hparent

/-- Names that stand in the tree lead to where they stand. -/
theorem IsSound.leads (h : tree.IsSound) (hget : tree.get? (location ++ names) = some entry) :
    Leads tree location names (location ++ names) := by
  induction names generalizing location with
  | nil =>
    rw [List.append_nil]
    exact .here location
  | cons name rest ih =>
    have hname : IsEntryName name := h.isEntryName hget (by simp)
    rw [List.append_cons] at hget ⊢
    by_cases hrest : rest = []
    · subst hrest
      rw [List.append_nil] at hget ⊢
      by_cases hdirectory : entry = .directory
      · subst hdirectory
        exact .down hname.not_same hname.ne_dots hget (.here _)
      · exact .last hname.not_same hname.ne_dots hget hdirectory
    · exact .down hname.not_same hname.ne_dots (h.directory_above hrest hget) (ih hget)

/-- Names other than dots lead to a location below, and something stands there. -/
theorem Leads.eq_append (h : Leads tree location names target)
    (hnames : ∀ name ∈ names, ¬(name = "" ∨ name = ".") ∧ name ≠ "..") :
    target = location ++ names := by
  induction h with
  | here location => rw [List.append_nil]
  | stay same => exact absurd same (hnames _ List.mem_cons_self).1
  | up => exact absurd rfl (hnames _ List.mem_cons_self).2
  | down _ _ _ _ ih =>
    rw [ih (List.forall_mem_cons.1 hnames).2, List.append_assoc, List.singleton_append]
  | last => rfl

/-- A way can be cut anywhere. -/
theorem Leads.exists_mid {more : List String} (h : Leads tree location (names ++ more) target) :
    ∃ mid, Leads tree location names mid ∧ Leads tree mid more target := by
  induction names generalizing location with
  | nil => exact ⟨location, .here location, h⟩
  | cons name rest ih =>
    rw [List.cons_append] at h
    generalize hnames : rest ++ more = all at h
    cases h with
    | stay same way =>
      obtain ⟨mid, hmid, htarget⟩ := ih (hnames ▸ way)
      exact ⟨mid, .stay same hmid, htarget⟩
    | up way =>
      obtain ⟨mid, hmid, htarget⟩ := ih (hnames ▸ way)
      exact ⟨mid, .up hmid, htarget⟩
    | down other below entry way =>
      obtain ⟨mid, hmid, htarget⟩ := ih (hnames ▸ way)
      exact ⟨mid, .down other below entry hmid, htarget⟩
    | last other below stands leaf =>
      obtain ⟨rfl, rfl⟩ := List.append_eq_nil_iff.1 hnames
      exact ⟨_, .last other below stands leaf, .here _⟩

/-- Names that are followed are dots, or names of entries. -/
theorem Leads.exists_of_mem (h : Leads tree location names target) (hname : name ∈ names)
    (hdots : name ≠ "..") (hsame : ¬(name = "" ∨ name = ".")) :
    ∃ above entry, tree.get? (above ++ [name]) = some entry := by
  induction h with
  | here => cases hname
  | stay same _ ih =>
    rcases List.mem_cons.1 hname with rfl | hrest
    · exact absurd same hsame
    · exact ih hrest
  | up _ ih =>
    rcases List.mem_cons.1 hname with rfl | hrest
    · exact absurd rfl hdots
    · exact ih hrest
  | down _ _ entry _ ih =>
    rcases List.mem_cons.1 hname with rfl | hrest
    · exact ⟨_, _, entry⟩
    · exact ih hrest
  | last _ _ stands =>
    obtain rfl := List.mem_singleton.1 hname
    exact ⟨_, _, stands⟩

/-- The directory above a directory is one. -/
theorem IsSound.directory_dropLast (h : tree.IsSound)
    (hget : tree.get? location = some .directory) :
    tree.get? location.dropLast = some .directory := by
  by_cases hne : location = []
  · subst hne
    rfl
  · exact h.parents location (h.mem_locations hne hget)

/-- Names that are followed from a directory lead to something. -/
theorem IsSound.isSome_get? (h : tree.IsSound) (hleads : Leads tree location names target)
    (hget : tree.get? location = some .directory) : ∃ entry, tree.get? target = some entry := by
  induction hleads with
  | here location => exact ⟨_, hget⟩
  | stay _ _ ih => exact ih hget
  | up _ ih => exact ih (h.directory_dropLast hget)
  | down _ _ entry _ ih => exact ih entry
  | last _ _ stands => exact ⟨_, stands⟩

theorem IsSound.directory_start (h : tree.IsSound) (root : PathRoot) :
    tree.get? (tree.start root) = some .directory := by
  cases root with
  | relative => exact h.cwd
  | single | double => rfl

/-- Where a path leads, something stands. -/
theorem IsSound.exists_get?_of_locate (h : tree.IsSound) {path : Path}
    (hlocate : tree.locate path = .ok location) : ∃ entry, tree.get? location = some entry :=
  h.isSome_get? (locate_eq_ok_iff.1 hlocate) (h.directory_start path.root)

/-- Names that stand below the directory of a path lead to where they stand. -/
theorem IsSound.locate_append (h : tree.IsSound) {path : Path}
    (hhome : tree.directoryAt path = .ok home)
    (hget : tree.get? (home ++ names) = some entry) :
    tree.locate ⟨path.root, path.names ++ names⟩ = .ok (home ++ names) :=
  Tree.locate_append hhome (h.leads hget)

/-! ## Looking below a location -/

theorem below?_eq_some_iff : Location.below? location target = some names ↔
    target = location ++ names := by
  induction location generalizing target with
  | nil => simp [Location.below?, eq_comm]
  | cons a above ih =>
    cases target with
    | nil => simp [Location.below?]
    | cons b target =>
      by_cases hab : a = b
      · subst hab
        simp [Location.below?, ih]
      · simp [Location.below?, hab, Ne.symm hab]

/-- One entry, seen from a location above it. -/
theorem descend_eq_some_iff {other : Entry} :
    (match Location.below? location target with
      | some (name :: names) => some (name :: names, other)
      | _ => none) = some (names, entry) ↔
      names ≠ [] ∧ target = location ++ names ∧ other = entry := by
  rw [← below?_eq_some_iff]
  cases hbelow : Location.below? location target with
  | none => simp
  | some found =>
    cases found with
    | nil =>
      simp only [reduceCtorEq, Option.some.injEq, false_iff, not_and]
      rintro hne rfl
      exact absurd rfl hne
    | cons name rest =>
      simp only [Option.some.injEq, Prod.mk.injEq]
      constructor
      · rintro ⟨rfl, rfl⟩
        exact ⟨List.cons_ne_nil _ _, rfl, rfl⟩
      · rintro ⟨-, rfl, rfl⟩
        exact ⟨rfl, rfl⟩

/-- What is below a location is what stands there. -/
theorem IsSound.mem_descendants_iff (h : tree.IsSound) :
    (names, entry) ∈ tree.descendants location ↔
      names ≠ [] ∧ tree.get? (location ++ names) = some entry := by
  rw [descendants, List.mem_filterMap]
  constructor
  · rintro ⟨⟨target, other⟩, hmem, hdescend⟩
    obtain ⟨hne, rfl, rfl⟩ := descend_eq_some_iff.1 hdescend
    exact ⟨hne, (h.mem_entries_iff.1 hmem).2⟩
  · rintro ⟨hne, hget⟩
    have hmem : (location ++ names, entry) ∈ tree.entries :=
      h.mem_entries_iff.2 ⟨by simp [hne], hget⟩
    exact ⟨_, hmem, descend_eq_some_iff.2 ⟨hne, rfl, rfl⟩⟩

/-- Everything below a location is found once. -/
theorem IsSound.nodup_descendants (h : tree.IsSound) (location : Location) :
    ((tree.descendants location).map Prod.fst).Nodup := by
  refine List.pairwise_map.2 (List.pairwise_filterMap.2 ?_)
  refine (List.pairwise_map.1 h.nodup).imp ?_
  rintro ⟨target, entry⟩ ⟨other, entry'⟩ hne ⟨names, found⟩ hfound ⟨names', found'⟩ hfound'
  obtain ⟨-, rfl, -⟩ := descend_eq_some_iff.1 hfound
  obtain ⟨-, rfl, -⟩ := descend_eq_some_iff.1 hfound'
  rintro rfl
  exact hne rfl

theorem child_eq_some_iff {other : Entry} :
    (match names with
      | [name] => some (name, other)
      | _ => none) = some (name, entry) ↔ names = [name] ∧ other = entry := by
  split
  · simp
  · next hsingle =>
    simp only [reduceCtorEq, false_iff, not_and]
    rintro rfl
    exact absurd rfl (hsingle name)

theorem IsSound.mem_children_iff (h : tree.IsSound) :
    (name, entry) ∈ tree.children location ↔ tree.get? (location ++ [name]) = some entry := by
  rw [children, List.mem_filterMap]
  constructor
  · rintro ⟨⟨names, other⟩, hmem, hchild⟩
    obtain ⟨rfl, rfl⟩ := child_eq_some_iff.1 hchild
    exact (h.mem_descendants_iff.1 hmem).2
  · intro hget
    exact ⟨([name], entry), h.mem_descendants_iff.2 ⟨by simp, hget⟩, rfl⟩

theorem IsSound.nodup_children (h : tree.IsSound) (location : Location) :
    ((tree.children location).map Prod.fst).Nodup := by
  refine List.pairwise_map.2 (List.pairwise_filterMap.2 ?_)
  refine (List.pairwise_map.1 (h.nodup_descendants location)).imp ?_
  rintro ⟨names, entry⟩ ⟨names', entry'⟩ hne ⟨name, found⟩ hfound ⟨name', found'⟩ hfound'
  obtain ⟨rfl, -⟩ := child_eq_some_iff.1 hfound
  obtain ⟨rfl, -⟩ := child_eq_some_iff.1 hfound'
  rintro rfl
  exact hne rfl

/-! ## Making directories -/

theorem map_fst_putEntry (location : Location) (entry : Entry)
    (entries : List (Location × Entry)) :
    (putEntry location entry entries).map Prod.fst =
      if location ∈ entries.map Prod.fst then entries.map Prod.fst
      else entries.map Prod.fst ++ [location] := by
  induction entries with
  | nil => rfl
  | cons head rest ih =>
    obtain ⟨l, e⟩ := head
    by_cases hl : l = location
    · simp [putEntry, hl]
    · simp only [putEntry, hl, if_false, List.map_cons, ih, List.mem_cons, Ne.symm hl, false_or]
      split <;> rfl

/-- A new entry in a directory keeps a tree sound. -/
theorem IsSound.put_directory (h : tree.IsSound) (hname : IsEntryName name)
    (hhome : tree.get? home = some .directory) (hfree : tree.get? (home ++ [name]) = none) :
    (tree.put (home ++ [name]) .directory).IsSound := by
  have hnew : home ++ [name] ∉ tree.entries.map Prod.fst := by
    intro hmem
    obtain ⟨⟨location, entry⟩, hentry, rfl⟩ := List.mem_map.1 hmem
    rw [(h.mem_entries_iff.1 hentry).2] at hfree
    cases hfree
  have hlocations : ((tree.put (home ++ [name]) .directory).entries.map Prod.fst) =
      tree.entries.map Prod.fst ++ [home ++ [name]] := by
    rw [put, map_fst_putEntry, if_neg hnew]
  have hkept : ∀ location, tree.get? location = some .directory →
      (tree.put (home ++ [name]) .directory).get? location = some .directory := by
    intro location hlocation
    rw [get?_put tree (by simp)]
    split_ifs
    · rfl
    · exact hlocation
  have hnames : ∀ above ∈ home, IsEntryName above := fun above => h.isEntryName hhome
  constructor
  · rw [hlocations, ← List.concat_eq_append]
    exact h.nodup.concat hnew
  · rw [hlocations, List.forall_mem_append]
    exact ⟨h.nonempty, by simp⟩
  · rw [hlocations, List.forall_mem_append]
    refine ⟨h.names, List.forall_mem_singleton.2 ?_⟩
    exact List.forall_mem_append.2 ⟨hnames, List.forall_mem_singleton.2 hname⟩
  · rw [hlocations, List.forall_mem_append]
    refine ⟨fun location hlocation => hkept _ (h.parents location hlocation), ?_⟩
    rw [List.forall_mem_singleton, List.dropLast_concat]
    exact hkept home hhome
  · exact hkept tree.cwd h.cwd

variable {path : Path} {made : Tree}

theorem IsSound.ensureDirectory (h : tree.IsSound)
    (hpath : ∀ name ∈ path.names, ¬(name = "" ∨ name = ".") ∧ '/' ∉ name.toList)
    (hmade : tree.ensureDirectory path = .ok made) : made.IsSound := by
  unfold Tree.ensureDirectory at hmade
  split at hmade
  · next hmake =>
    cases hmade
    obtain ⟨above, name, home, hnames, hup, hhome, hfree, rfl⟩ := exists_of_makeDirectory hmake
    obtain ⟨hsame, hslash⟩ := hpath name (by simp [hnames])
    rw [not_or] at hsame
    exact h.put_directory ⟨hsame.1, hsame.2, hup, hslash⟩ (directoryAt_eq_ok_iff.1 hhome).2 hfree
  · split_ifs at hmade
    cases hmade
    exact h

theorem IsSound.makeReversed (h : tree.IsSound) (root : PathRoot) {names : List String}
    (hnames : ∀ name ∈ names, ¬(name = "" ∨ name = ".") ∧ '/' ∉ name.toList) :
    (tree.makeReversed root names).1.IsSound := by
  induction names with
  | nil =>
    rw [Tree.makeReversed]
    cases hensure : tree.ensureDirectory ⟨root, []⟩ with
    | ok made => exact h.ensureDirectory (by simp) hensure
    | error error => exact h
  | cons name above ih =>
    have hpath : ∀ other ∈ (⟨root, (name :: above).reverse⟩ : Path).names,
        ¬(other = "" ∨ other = ".") ∧ '/' ∉ other.toList := by
      intro other hother
      exact hnames other (List.mem_reverse.1 hother)
    rw [Tree.makeReversed]
    cases hensure : tree.ensureDirectory ⟨root, (name :: above).reverse⟩ with
    | ok made => exact h.ensureDirectory hpath hensure
    | error error =>
      simp only
      split_ifs
      · have habove := ih (List.forall_mem_cons.1 hnames).2
        generalize tree.makeReversed root above = result at habove ⊢
        obtain ⟨made, fault⟩ := result
        cases fault with
        | some error => exact habove
        | none =>
          simp only
          cases hagain : made.ensureDirectory ⟨root, (name :: above).reverse⟩ with
          | ok again => exact habove.ensureDirectory hpath hagain
          | error error => exact habove
      · exact h

/-- Making the directory of a path keeps a tree sound. -/
theorem IsSound.makeDirectories (h : tree.IsSound)
    (hpath : ∀ name ∈ path.names, ¬(name = "" ∨ name = ".") ∧ '/' ∉ name.toList) :
    (tree.makeDirectories path).1.IsSound :=
  h.makeReversed path.root fun name hname => hpath name (List.mem_reverse.1 hname)

end Sound

end Tree

end FeatureFile
