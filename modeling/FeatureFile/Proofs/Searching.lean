import FeatureFile.Proofs.PathTexts
import Mathlib.Data.List.Flatten
import Mathlib.Data.List.Perm.Basic

set_option autoImplicit false

/-! # What a search finds

A directory is searched with everything below it, and `Tree.mem_featureFilesBelow_iff` says what is
found there. A pattern is expanded name by name, each name in all directories that the names before
it stand for. `Tree.StandsFor` says what one name stands for, and what every name preserves is
preserved by the whole expansion (`Tree.expand_induction`).

A name other than `**` adds the same number of names to every text. So texts that differ go on to
differ, up to the first `**`, where they have one length, and from there on
(`Tree.IsSound.nodup_expand`). A second `**` adds to texts of different lengths, and there the
argument ends. -/

namespace FeatureFile

open Wildcard

namespace Tree

variable {tree : Tree} {home location : Location} {path : Path} {directoriesOnly : Bool}
  {name directory text literal : String} {names directories : List String}

/-! ## Directories -/

/-- The names that lead from a location to the feature files below it. -/
def featureNamesBelow (tree : Tree) (location : Location) : List Location :=
  (tree.descendants location).filterMap fun (names, entry) =>
    match entry with
    | .file _ => if isFeatureName (names.getLast?.getD "") then some names else none
    | _ => none

theorem featureFilesBelow_eq (h : tree.locate path = .ok home) :
    tree.featureFilesBelow path =
      ((tree.featureNamesBelow home).mergeSort Location.isUpTo).map fun names =>
        { path with names := path.names ++ names } := by
  unfold featureFilesBelow
  rw [h]
  rfl

/-- One entry, if it is a feature file. -/
theorem featureNames_eq_some_iff {entry : Entry} {other : List String} :
    (match entry with
      | .file _ => if isFeatureName (names.getLast?.getD "") then some names else none
      | _ => none) = some other ↔
      (∃ bytes, entry = .file bytes) ∧ isFeatureName (names.getLast?.getD "") = true ∧
        names = other := by
  cases entry <;> simp

theorem IsSound.mem_featureNamesBelow_iff (h : tree.IsSound) :
    names ∈ tree.featureNamesBelow home ↔
      ∃ front name bytes, names = front ++ [name] ∧ isFeatureName name = true ∧
        tree.get? (home ++ names) = some (.file bytes) := by
  rw [featureNamesBelow, List.mem_filterMap]
  constructor
  · rintro ⟨⟨found, entry⟩, hmem, hfound⟩
    obtain ⟨⟨bytes, rfl⟩, hname, rfl⟩ := featureNames_eq_some_iff.1 hfound
    obtain ⟨hne, hget⟩ := h.mem_descendants_iff.1 hmem
    refine ⟨found.dropLast, found.getLast hne, bytes, ?_, ?_, hget⟩
    · rw [List.dropLast_append_getLast hne]
    · rwa [List.getLast?_eq_some_getLast hne, Option.getD_some] at hname
  · rintro ⟨front, name, bytes, rfl, hname, hget⟩
    refine ⟨(front ++ [name], .file bytes), h.mem_descendants_iff.2 ⟨by simp, hget⟩, ?_⟩
    exact featureNames_eq_some_iff.2 ⟨⟨bytes, rfl⟩, by simpa using hname, rfl⟩

theorem IsSound.nodup_featureNamesBelow (h : tree.IsSound) (home : Location) :
    (tree.featureNamesBelow home).Nodup := by
  refine List.pairwise_filterMap.2 ((List.pairwise_map.1 (h.nodup_descendants home)).imp ?_)
  rintro ⟨names, entry⟩ ⟨names', entry'⟩ hne found hfound found' hfound'
  obtain ⟨-, -, rfl⟩ := featureNames_eq_some_iff.1 hfound
  obtain ⟨-, -, rfl⟩ := featureNames_eq_some_iff.1 hfound'
  exact hne

/-- A directory is searched for all feature files below it. -/
theorem IsSound.mem_featureFilesBelow_iff (h : tree.IsSound) {file : Path}
    (hhome : tree.directoryAt path = .ok home) :
    file ∈ tree.featureFilesBelow path ↔
      ∃ front name bytes, file = ⟨path.root, path.names ++ (front ++ [name])⟩ ∧
        isFeatureName name = true ∧ tree.get? (home ++ (front ++ [name])) = some (.file bytes) := by
  rw [featureFilesBelow_eq (directoryAt_eq_ok_iff.1 hhome).1, List.mem_map]
  simp only [List.mem_mergeSort, h.mem_featureNamesBelow_iff]
  constructor
  · rintro ⟨names, ⟨front, name, bytes, rfl, hname, hget⟩, rfl⟩
    exact ⟨front, name, bytes, rfl, hname, hget⟩
  · rintro ⟨front, name, bytes, rfl, hname, hget⟩
    exact ⟨_, ⟨front, name, bytes, rfl, hname, hget⟩, rfl⟩

/-! ### The order of locations -/

theorem isUpTo_eq_true_iff {a b : Location} : Location.isUpTo a b = true ↔ ¬b < a := by
  induction a generalizing b with
  | nil => simp [Location.isUpTo]
  | cons x a ih =>
    cases b with
    | nil => simp [Location.isUpTo]
    | cons y b =>
      by_cases hxy : x = y
      · simp [Location.isUpTo, hxy, ih]
      · simp only [Location.isUpTo, hxy, if_false, decide_eq_true_eq, List.cons_lt_cons_iff,
          Ne.symm hxy, false_and, or_false]
        constructor
        · intro h
          exact String.lt_asymm h
        · intro h
          exact Std.lt_of_le_of_ne (String.not_lt.1 h) hxy

/-- Locations that differ and are in order are strictly so. -/
theorem pairwise_lt_mergeSort {locations : List Location} (h : locations.Nodup) :
    (locations.mergeSort Location.isUpTo).Pairwise (· < ·) := by
  have hsorted : (locations.mergeSort Location.isUpTo).Pairwise
      fun a b => Location.isUpTo a b = true := by
    refine List.pairwise_mergeSort (fun a b c hab hbc => ?_) (fun a b => ?_) locations
    · rw [isUpTo_eq_true_iff] at hab hbc ⊢
      exact List.le_trans hab hbc
    · rw [Bool.or_eq_true, isUpTo_eq_true_iff, isUpTo_eq_true_iff]
      exact List.le_total a b
  have hnodup : (locations.mergeSort Location.isUpTo).Nodup :=
    (List.mergeSort_perm locations Location.isUpTo).nodup_iff.2 h
  refine (hsorted.and hnodup).imp ?_
  rintro a b ⟨hle, hne⟩
  rw [isUpTo_eq_true_iff] at hle
  by_contra hlt
  exact hne (List.le_antisymm hle hlt)

/-- The feature files of a directory are listed in strictly ascending order, name by name. -/
theorem IsSound.pairwise_featureFilesBelow (h : tree.IsSound) (path : Path) :
    (tree.featureFilesBelow path).Pairwise fun a b => a.names < b.names := by
  cases hlocate : tree.locate path with
  | error fault =>
    rw [featureFilesBelow, hlocate]
    exact .nil
  | ok home =>
    rw [featureFilesBelow_eq hlocate]
    refine List.pairwise_map.2 ((pairwise_lt_mergeSort (h.nodup_featureNamesBelow home)).imp ?_)
    exact fun hlt => List.append_left_lt hlt

/-! ## One name of a pattern -/

/-- What one name of a pattern stands for in a directory, as a text that is joined to that of the
    directory. -/
inductive StandsFor (tree : Tree) (directoriesOnly : Bool) : String → String → String → Prop where
  /-- The directory itself; a search that is not strict does not look whether it is there. -/
  | here {directory : String}
      (looked : tree.strictStars = true → ∃ home, tree.LooksInto directory home) :
      StandsFor tree directoriesOnly "**" directory ""
  /-- Something below the directory. -/
  | below {directory : String} {home : Location} {names : List String} {entry : Entry}
      (search : tree.LooksInto directory home) (nonempty : names ≠ [])
      (stands : tree.get? (home ++ names) = some entry)
      (admitted : admits directoriesOnly entry = true)
      (visible : ∀ name ∈ names, isHidden name = false)
      (reached : isReached directory names.dropLast = true) :
      StandsFor tree directoriesOnly "**" directory (String.intercalate "/" names)
  /-- An entry of the directory that the name matches. -/
  | child {name directory text : String} {home : Location} {entry : Entry}
      (wildcard : hasWildcard name = true) (single : name ≠ "**")
      (search : tree.LooksInto directory home)
      (stands : tree.get? (home ++ [text]) = some entry)
      (admitted : admits directoriesOnly entry = true)
      (visible : isHidden name = true ∨ isHidden text = false)
      (fits : isMatch name text = true) : StandsFor tree directoriesOnly name directory text
  /-- The directory itself, after a final slash. -/
  | directory {directory : String} {home : Location} (nonempty : directory ≠ "")
      (search : tree.LooksInto directory home) :
      StandsFor tree directoriesOnly "" directory ""
  /-- The name itself. -/
  | literal {name directory : String} (plain : hasWildcard name = false) (nonempty : name ≠ "")
      (stands : tree.existsText (joinText directory name) = true) :
      StandsFor tree directoriesOnly name directory name

theorem IsSound.mem_visibleBelow_iff (h : tree.IsSound) :
    text ∈ tree.visibleBelow directoriesOnly directory ↔
      ∃ home names entry, tree.LooksInto directory home ∧ names ≠ [] ∧
        tree.get? (home ++ names) = some entry ∧ admits directoriesOnly entry = true ∧
        (∀ name ∈ names, isHidden name = false) ∧ isReached directory names.dropLast = true ∧
        text = String.intercalate "/" names := by
  unfold visibleBelow
  cases hsearch : tree.searchDirectory? directory with
  | none =>
    refine iff_of_false (by simp) ?_
    rintro ⟨home, -, -, hhome, -⟩
    rw [h.searchDirectory?_eq_some_iff.2 hhome] at hsearch
    cases hsearch
  | some home =>
    have hhome := h.searchDirectory?_eq_some_iff.1 hsearch
    simp only [List.mem_filterMap, Prod.exists, h.mem_descendants_iff,
      Option.ite_none_right_eq_some, Option.some.injEq, Bool.and_eq_true, List.all_eq_true,
      Bool.not_eq_true']
    constructor
    · rintro ⟨names, entry, ⟨hne, hget⟩, ⟨⟨hadmits, hvisible⟩, hreached⟩, rfl⟩
      exact ⟨home, names, entry, hhome, hne, hget, hadmits, hvisible, hreached, rfl⟩
    · rintro ⟨found, names, entry, hfound, hne, hget, hadmits, hvisible, hreached, rfl⟩
      obtain rfl : home = found := Except.ok.inj (hhome.leads.symm.trans hfound.leads)
      exact ⟨names, entry, ⟨hne, hget⟩, ⟨⟨hadmits, hvisible⟩, hreached⟩, rfl⟩

theorem IsSound.mem_matchingNames_iff (h : tree.IsSound) :
    text ∈ tree.matchingNames directoriesOnly name directory ↔
      ∃ home entry, tree.LooksInto directory home ∧
        tree.get? (home ++ [text]) = some entry ∧ admits directoriesOnly entry = true ∧
        (isHidden name = true ∨ isHidden text = false) ∧ isMatch name text = true := by
  unfold matchingNames
  cases hsearch : tree.searchDirectory? directory with
  | none =>
    refine iff_of_false (by simp) ?_
    rintro ⟨home, -, hhome, -⟩
    rw [h.searchDirectory?_eq_some_iff.2 hhome] at hsearch
    cases hsearch
  | some home =>
    have hhome := h.searchDirectory?_eq_some_iff.1 hsearch
    simp only [List.mem_filterMap, Prod.exists, h.mem_children_iff, Option.ite_none_right_eq_some,
      Option.some.injEq, Bool.and_eq_true, Bool.or_eq_true, Bool.not_eq_true']
    constructor
    · rintro ⟨name, entry, hget, ⟨⟨hadmits, hvisible⟩, hfits⟩, rfl⟩
      exact ⟨home, entry, hhome, hget, hadmits, hvisible, hfits⟩
    · rintro ⟨found, entry, hfound, hget, hadmits, hvisible, hfits⟩
      obtain rfl : home = found := Except.ok.inj (hhome.leads.symm.trans hfound.leads)
      exact ⟨text, entry, hget, ⟨⟨hadmits, hvisible⟩, hfits⟩, rfl⟩

/-- Whether a search takes `**` for its directory. -/
theorem IsSound.looked_iff (h : tree.IsSound) :
    (tree.strictStars && (tree.searchDirectory? directory).isNone) = false ↔
      (tree.strictStars = true → ∃ home, tree.LooksInto directory home) := by
  simp only [← h.searchDirectory?_eq_some_iff, ← Option.isSome_iff_exists]
  cases tree.strictStars <;> cases tree.searchDirectory? directory <;> simp

theorem IsSound.mem_expandName_iff (h : tree.IsSound) :
    text ∈ tree.expandName directoriesOnly name directory ↔
      StandsFor tree directoriesOnly name directory text := by
  unfold expandName
  split_ifs with hstars hblind hwildcard hempty hdirectory hexists
  · -- a strict search that does not find the directory finds nothing below it
    refine iff_of_false (by simp) fun hstands => ?_
    rw [← Bool.not_eq_false, h.looked_iff] at hblind
    cases hstands with
    | here looked => exact hblind looked
    | below search => exact hblind fun _ => ⟨_, search⟩
    | child _ single => exact single hstars
    | directory => exact absurd hstars (by decide)
    | literal plain =>
      rw [hstars] at plain
      exact absurd plain (by decide)
  · rw [Bool.not_eq_true, h.looked_iff] at hblind
    rw [List.mem_cons, h.mem_visibleBelow_iff]
    constructor
    · subst hstars
      rintro (rfl | ⟨home, names, entry, hhome, hne, hget, hadmits, hvisible, hreached, rfl⟩)
      · exact .here hblind
      · exact .below hhome hne hget hadmits hvisible hreached
    · intro hstands
      cases hstands with
      | here | directory => exact .inl rfl
      | below search nonempty stands admitted visible reached =>
        exact .inr ⟨_, _, _, search, nonempty, stands, admitted, visible, reached, rfl⟩
      | child _ single => exact absurd hstars single
      | literal plain =>
        rw [hstars] at plain
        exact absurd plain (by decide)
  · rw [h.mem_matchingNames_iff]
    constructor
    · rintro ⟨home, entry, hhome, hget, hadmits, hvisible, hfits⟩
      exact .child hwildcard hstars hhome hget hadmits hvisible hfits
    · intro hstands
      cases hstands with
      | here | below => exact absurd rfl hstars
      | child _ _ search stands admitted visible fits =>
        exact ⟨_, _, search, stands, admitted, visible, fits⟩
      | directory => exact absurd hwildcard (by decide)
      | literal plain => simp [plain] at hwildcard
  · rw [List.mem_singleton]
    constructor
    · subst hempty
      rintro rfl
      obtain ⟨home, hhome⟩ := Option.isSome_iff_exists.1 hdirectory
      obtain ⟨hne, hshort, hhome⟩ := directoryText?_eq_some_iff.1 hhome
      exact .directory hne ⟨hshort, hhome⟩
    · intro hstands
      cases hstands with
      | here | below => exact absurd rfl hstars
      | child wildcard => exact absurd wildcard hwildcard
      | directory => rfl
      | literal => exact hempty
  · refine iff_of_false (by simp) fun hstands => ?_
    cases hstands with
    | here | below => exact hstars rfl
    | child wildcard => exact hwildcard wildcard
    | directory nonempty search =>
      rw [directoryText?_eq_some_iff.2 ⟨nonempty, search.short, search.leads⟩] at hdirectory
      exact hdirectory rfl
    | literal _ nonempty => exact nonempty hempty
  · rw [List.mem_singleton]
    constructor
    · rintro rfl
      exact .literal (by simpa using hwildcard) hempty hexists
    · intro hstands
      cases hstands with
      | here | below => exact absurd rfl hstars
      | child wildcard => exact absurd wildcard hwildcard
      | directory => exact absurd rfl hempty
      | literal => rfl
  · refine iff_of_false (by simp) fun hstands => ?_
    cases hstands with
    | here | below => exact hstars rfl
    | child wildcard => exact hwildcard wildcard
    | directory => exact hempty rfl
    | literal _ _ stands => exact hexists stands

/-! ## Patterns -/

/-- The texts that one name of a pattern stands for in some directories. -/
def expandIn (tree : Tree) (directoriesOnly : Bool) (name : String) (directories : List String) :
    List String :=
  directories.flatMap fun directory =>
    (tree.expandName directoriesOnly name directory).map (joinText directory)

theorem expand_cons (rest : List String) :
    tree.expand (name :: rest) directories =
      tree.expand rest (tree.expandIn (!rest.isEmpty) name directories) := rfl

theorem IsSound.mem_expandIn_iff (h : tree.IsSound) :
    text ∈ tree.expandIn directoriesOnly name directories ↔
      ∃ directory ∈ directories, ∃ more,
        StandsFor tree directoriesOnly name directory more ∧ text = joinText directory more := by
  simp only [expandIn, List.mem_flatMap, List.mem_map, h.mem_expandName_iff, eq_comm]

/-- What every name of a pattern preserves, all its names preserve; the property may speak of the
    names so far. -/
theorem IsSound.expand_induction (h : tree.IsSound) {P : List String → String → Prop}
    (step : ∀ seen directoriesOnly name directory more, P seen directory →
      StandsFor tree directoriesOnly name directory more →
      P (seen ++ [name]) (joinText directory more))
    (seen : List String) (start : ∀ directory ∈ directories, P seen directory) :
    ∀ text ∈ tree.expand names directories, P (seen ++ names) text := by
  induction names generalizing seen directories with
  | nil =>
    rw [List.append_nil]
    exact start
  | cons name rest ih =>
    rw [expand_cons, List.append_cons]
    refine ih (seen ++ [name]) fun text htext => ?_
    obtain ⟨directory, hdirectory, more, hstands, rfl⟩ := h.mem_expandIn_iff.1 htext
    exact step seen _ name directory more (start directory hdirectory) hstands

/-! ### Different texts -/

/-- The names of something that stands below a location. -/
theorem IsSound.namesOf_below (h : tree.IsSound) {entry : Entry}
    (hget : tree.get? (home ++ names) = some entry) :
    Path.namesOf (String.intercalate "/" names) = names :=
  Path.namesOf_intercalate fun _ hname => h.isEntryName hget (List.mem_append_right home hname)

theorem IsSound.nodup_visibleBelow (h : tree.IsSound) :
    ((tree.visibleBelow directoriesOnly directory).map Path.namesOf).Nodup := by
  unfold visibleBelow
  split
  · exact .nil
  · next home _ =>
    refine List.pairwise_map.2 (List.pairwise_filterMap.2 ?_)
    refine (List.pairwise_map.1 (h.nodup_descendants home)).imp_of_mem ?_
    rintro ⟨names, entry⟩ ⟨names', entry'⟩ hmem hmem' hne text htext text' htext'
    obtain rfl := Option.some.inj (Option.ite_none_right_eq_some.1 htext).2
    obtain rfl := Option.some.inj (Option.ite_none_right_eq_some.1 htext').2
    rw [h.namesOf_below (h.mem_descendants_iff.1 hmem).2,
      h.namesOf_below (h.mem_descendants_iff.1 hmem').2]
    exact hne

theorem IsSound.nodup_matchingNames (h : tree.IsSound) :
    ((tree.matchingNames directoriesOnly name directory).map Path.namesOf).Nodup := by
  unfold matchingNames
  split
  · exact .nil
  · next home _ =>
    refine List.pairwise_map.2 (List.pairwise_filterMap.2 ?_)
    refine (List.pairwise_map.1 (h.nodup_children home)).imp_of_mem ?_
    rintro ⟨name, entry⟩ ⟨name', entry'⟩ hmem hmem' hne text htext text' htext'
    obtain rfl := Option.some.inj (Option.ite_none_right_eq_some.1 htext).2
    obtain rfl := Option.some.inj (Option.ite_none_right_eq_some.1 htext').2
    have hname : IsEntryName name := h.isEntryName (h.mem_children_iff.1 hmem) (by simp)
    have hname' : IsEntryName name' := h.isEntryName (h.mem_children_iff.1 hmem') (by simp)
    rw [Path.namesOf_of_isEntryName hname, Path.namesOf_of_isEntryName hname']
    simpa using hne

/-- What one name of a pattern stands for in a directory differs in its names. -/
theorem IsSound.nodup_expandName (h : tree.IsSound) :
    ((tree.expandName directoriesOnly name directory).map Path.namesOf).Nodup := by
  unfold expandName
  split_ifs
  · simp
  · rw [List.map_cons, List.nodup_cons]
    refine ⟨fun hempty => ?_, h.nodup_visibleBelow⟩
    obtain ⟨text, htext, hnames⟩ := List.mem_map.1 hempty
    obtain ⟨home, names, entry, -, hne, hget, -, -, -, rfl⟩ := h.mem_visibleBelow_iff.1 htext
    rw [h.namesOf_below hget, Path.namesOf_empty] at hnames
    exact hne hnames
  · exact h.nodup_matchingNames
  all_goals simp

/-- A name other than `**` adds the same number of names everywhere. -/
theorem IsSound.exists_length_of_standsFor (h : tree.IsSound) (hname : name ≠ "**") :
    ∃ n, ∀ directoriesOnly directory more, StandsFor tree directoriesOnly name directory more →
      (Path.namesOf more).length = n := by
  by_cases hwildcard : hasWildcard name = true
  · refine ⟨1, fun directoriesOnly directory more hstands => ?_⟩
    cases hstands with
    | here | below => exact absurd rfl hname
    | child _ _ _ stands =>
      have hmore : IsEntryName more := h.isEntryName stands (by simp)
      rw [Path.namesOf_of_isEntryName hmore, List.length_singleton]
    | directory => exact absurd hwildcard (by decide)
    | literal plain => exact absurd hwildcard (by simp [plain])
  · refine ⟨(Path.namesOf name).length, fun directoriesOnly directory more hstands => ?_⟩
    cases hstands with
    | here | below => exact absurd rfl hname
    | child wildcard => exact absurd wildcard hwildcard
    | directory | literal => rfl

/-- All of the texts have the same number of names. -/
def OneLength (texts : List String) : Prop := ∃ n, ∀ text ∈ texts, (Path.namesOf text).length = n

theorem IsSound.oneLength_expandIn (h : tree.IsSound) (hname : name ≠ "**")
    (hlength : OneLength directories) :
    OneLength (tree.expandIn directoriesOnly name directories) := by
  obtain ⟨m, hm⟩ := hlength
  obtain ⟨n, hn⟩ := h.exists_length_of_standsFor hname
  refine ⟨m + n, fun text htext => ?_⟩
  obtain ⟨directory, hdirectory, more, hstands, rfl⟩ := h.mem_expandIn_iff.1 htext
  rw [Path.namesOf_joinText, List.length_append, hm directory hdirectory, hn _ _ _ hstands]

/-- One name of a pattern keeps texts apart: what it adds has one length, or what it is added to
    has. -/
theorem IsSound.nodup_expandIn (h : tree.IsSound) (hname : name ≠ "**" ∨ OneLength directories)
    (hnodup : (directories.map Path.namesOf).Nodup) :
    ((tree.expandIn directoriesOnly name directories).map Path.namesOf).Nodup := by
  rw [expandIn, List.map_flatMap, List.nodup_flatMap]
  constructor
  · intro directory _
    have hjoin : Path.namesOf ∘ joinText directory = (Path.namesOf directory ++ ·) ∘ Path.namesOf :=
      funext fun more => Path.namesOf_joinText directory more
    rw [List.map_map, hjoin, ← List.map_map]
    exact h.nodup_expandName.map (List.append_right_injective _)
  · refine (List.pairwise_map.1 hnodup).imp_of_mem ?_
    intro directory other hdirectory hother hne names hnames hnames'
    simp only [List.mem_map, exists_exists_and_eq_and, h.mem_expandName_iff,
      Path.namesOf_joinText] at hnames hnames'
    obtain ⟨more, hstands, rfl⟩ := hnames
    obtain ⟨more', hstands', heq⟩ := hnames'
    rcases hname with hname | ⟨n, hn⟩
    · obtain ⟨n, hn⟩ := h.exists_length_of_standsFor hname
      have hlength := (hn _ _ _ hstands').trans (hn _ _ _ hstands).symm
      exact hne (List.append_inj_left' heq hlength).symm
    · have hlength := (hn other hother).trans (hn directory hdirectory).symm
      exact hne (List.append_inj_left heq hlength).symm

/-- A pattern with at most one `**` gives no text twice, not even in another spelling. -/
theorem IsSound.nodup_expand (h : tree.IsSound)
    (hnames : names.count "**" = 0 ∨ names.count "**" ≤ 1 ∧ OneLength directories)
    (hnodup : (directories.map Path.namesOf).Nodup) :
    ((tree.expand names directories).map Path.namesOf).Nodup := by
  induction names generalizing directories with
  | nil => exact hnodup
  | cons name rest ih =>
    rw [expand_cons]
    by_cases hname : name = "**"
    · subst hname
      rw [List.count_cons_self] at hnames
      rcases hnames with hzero | ⟨hone, hlength⟩
      · omega
      · exact ih (.inl (by omega)) (h.nodup_expandIn (.inr hlength) hnodup)
    · rw [List.count_cons_of_ne hname] at hnames
      refine ih (hnames.imp_right fun hone => ?_) (h.nodup_expandIn (.inl hname) hnodup)
      exact ⟨hone.1, h.oneLength_expandIn hname hone.2⟩

end Tree

end FeatureFile
