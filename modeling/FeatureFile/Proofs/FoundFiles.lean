import FeatureFile.Proofs.Accounting
import FeatureFile.Proofs.Searching

set_option autoImplicit false

/-! # The files that a search lists

A pattern with more than one `**` reaches the same file in several ways, and lists it as often.
`found_once` says that there is nothing else of this kind: everything in the list is there and is no
directory; with at most one `**` no path is listed twice; and if the pattern goes up nowhere behind
its first wildcard, no two paths lead to one file. A search that is not strict has one exception: it
lists the front of a pattern with nothing but `**` behind it without a look, so that a missing front
passes for a file. -/

namespace FeatureFile

open Wildcard

/-! ## Parts of a pattern -/

theorem dropEmptyNames_subset (names : List String) : dropEmptyNames names ⊆ names := by
  fun_induction dropEmptyNames names with
  | case1 | case2 => exact fun _ h => h
  | case3 rest _ ih => exact fun other hother => List.mem_cons_of_mem _ (ih hother)
  | case4 name rest _ _ ih => exact List.cons_subset_cons name ih

theorem dropEmptyNames_ne_nil {names : List String} (h : names ≠ []) :
    dropEmptyNames names ≠ [] := by
  fun_induction dropEmptyNames names with
  | case1 => exact h
  | case2 | case4 => simp
  | case3 rest hrest ih => exact ih fun hnil => hrest hnil

/-- A pattern with a wildcard has a name with one. -/
theorem wildcardNames_ne_nil {pattern : String} (h : hasWildcard pattern = true) :
    wildcardNames pattern ≠ [] := by
  refine dropEmptyNames_ne_nil fun hnil => ?_
  obtain ⟨c, hc, hmagic⟩ := List.any_eq_true.1 h
  obtain ⟨name, hname, hcname⟩ := Path.exists_segment_of_mem hc (by rintro rfl; simp at hmagic)
  have hplain := List.dropWhile_eq_nil_iff.1 hnil name hname
  have hwildcard : hasWildcard name = true := List.any_eq_true.2 ⟨c, hcname, hmagic⟩
  simp [hwildcard] at hplain

theorem no_slash_of_mem_wildcardNames {pattern name : String} (h : name ∈ wildcardNames pattern) :
    '/' ∉ name.toList :=
  Path.no_slash_of_mem_segments ((List.dropWhile_suffix _).subset (dropEmptyNames_subset _ h))

namespace Tree

variable {tree : Tree} {home location : Location} {pattern literal text : String}
  {front a b path : Path} {names : List String}

/-- A match of a pattern is what its names with wildcards stand for behind its front, or the pattern
    itself. -/
theorem mem_patternMatches_cases (htext : text ∈ tree.patternMatches pattern) :
    hasWildcard pattern = true ∧
        text ∈ tree.expand (wildcardNames pattern) [literalFront pattern] ∨
      hasWildcard pattern = false ∧ text = pattern ∧ tree.existsText pattern = true := by
  unfold patternMatches at htext
  split_ifs at htext with hwildcard hexists
  · exact .inl ⟨hwildcard, List.mem_of_mem_filter htext⟩
  · exact .inr ⟨by simpa using hwildcard, List.mem_singleton.1 htext, hexists⟩
  · simp at htext

/-- What a pattern lists that is no directory: matches, in their normal form. -/
theorem mem_files_iff (hpattern : tree.isDirectory (Path.ofString pattern) = false) :
    path ∈ (tree.findFeatureFiles pattern).files ↔
      (∃ text ∈ tree.patternMatches pattern, Path.ofString text = path) ∧
        tree.isDirectory path = false := by
  simp [findFeatureFiles, hpattern]

theorem files_of_isDirectory (hpattern : tree.isDirectory (Path.ofString pattern) = true) :
    (tree.findFeatureFiles pattern).files = tree.featureFilesBelow (Path.ofString pattern) := by
  simp [findFeatureFiles, hpattern]

/-! ## What is listed is there -/

/-- What the names of a pattern stand for is there. A search that is not strict takes the front for
    there if all names are `**`. -/
theorem IsSound.locate_or_front (h : tree.IsSound) :
    ∀ text ∈ tree.expand names [literal],
      (∃ location, tree.locate (Path.ofString text) = .ok location) ∨
        (names ≠ [] → tree.strictStars = false) ∧ Path.ofString text = Path.ofString literal ∧
          ∀ name ∈ names, name = "**" := by
  refine h.expand_induction (P := fun seen text =>
    (∃ location, tree.locate (Path.ofString text) = .ok location) ∨
      (seen ≠ [] → tree.strictStars = false) ∧ Path.ofString text = Path.ofString literal ∧
        ∀ name ∈ seen, name = "**") ?_ [] (by simp)
  intro seen directoriesOnly name directory more hdirectory hstands
  cases hstands with
  | here looked =>
    rw [Path.ofString_joinText_empty]
    cases hstrict : tree.strictStars with
    | true =>
      obtain ⟨home, hhome⟩ := looked hstrict
      exact .inl ⟨home, (directoryAt_eq_ok_iff.1 hhome.leads).1⟩
    | false =>
      refine hdirectory.imp_right fun hfront => ⟨fun _ => rfl, hfront.2.1, ?_⟩
      exact List.forall_mem_append.2 ⟨hfront.2.2, List.forall_mem_singleton.2 rfl⟩
  | below search _ stands => exact .inl ⟨_, h.locate_joinText search.leads stands⟩
  | child _ _ search stands =>
    have hlocate := h.locate_joinText search.leads stands
    rw [String.intercalate_singleton] at hlocate
    exact .inl ⟨_, hlocate⟩
  | directory _ search =>
    rw [Path.ofString_joinText_empty]
    exact .inl ⟨_, (directoryAt_eq_ok_iff.1 search.leads).1⟩
  | literal _ _ stands => exact .inl (exists_locate_of_existsText stands)

/-- Something that is no directory stands where the path leads. -/
def IsLeaf (tree : Tree) (path : Path) : Prop :=
  ∃ location entry, tree.locate path = .ok location ∧ tree.get? location = some entry ∧
    entry ≠ .directory

theorem IsSound.isLeaf (h : tree.IsSound) (hlocate : tree.locate path = .ok location)
    (hdirectory : tree.isDirectory path = false) : tree.IsLeaf path := by
  obtain ⟨entry, hentry⟩ := h.exists_get?_of_locate hlocate
  refine ⟨location, entry, hlocate, hentry, ?_⟩
  rintro rfl
  simp [isDirectory, hlocate, hentry] at hdirectory

/-- The search is not strict, and the path is the front of a pattern that has nothing but `**`
    behind it, and is not there. -/
structure IsMissingFront (tree : Tree) (pattern : String) (path : Path) : Prop where
  blind : tree.strictStars = false
  front : path = Path.ofString (literalFront pattern)
  stars : ∀ name ∈ wildcardNames pattern, name = "**"
  missing : ∀ location, tree.locate path ≠ .ok location

theorem IsSound.isLeaf_of_mem_files (h : tree.IsSound)
    (hpath : path ∈ (tree.findFeatureFiles pattern).files) :
    tree.IsLeaf path ∨ tree.IsMissingFront pattern path := by
  cases hpattern : tree.isDirectory (Path.ofString pattern) with
  | true =>
    obtain ⟨home, hhome⟩ := exists_directoryAt hpattern
    rw [files_of_isDirectory hpattern, h.mem_featureFilesBelow_iff hhome] at hpath
    obtain ⟨front, name, bytes, rfl, -, hget⟩ := hpath
    exact .inl ⟨_, _, h.locate_append hhome hget, hget, nofun⟩
  | false =>
    obtain ⟨⟨text, htext, rfl⟩, hdirectory⟩ := (mem_files_iff hpattern).1 hpath
    by_cases hlocate : ∃ location, tree.locate (Path.ofString text) = .ok location
    · obtain ⟨location, hlocation⟩ := hlocate
      exact .inl (h.isLeaf hlocation hdirectory)
    obtain ⟨hwildcard, hexpand⟩ | ⟨-, rfl, hexists⟩ := mem_patternMatches_cases htext
    · obtain ⟨hblind, hfront, hstars⟩ := (h.locate_or_front text hexpand).resolve_left hlocate
      exact .inr ⟨hblind (wildcardNames_ne_nil hwildcard), hfront, hstars,
        fun location hlocation => hlocate ⟨location, hlocation⟩⟩
    · exact absurd (exists_locate_of_existsText hexists) hlocate

/-! ## No path is listed twice -/

theorem IsSound.nodup_patternMatches (h : tree.IsSound)
    (hstars : (wildcardNames pattern).count "**" ≤ 1) :
    ((tree.patternMatches pattern).map Path.namesOf).Nodup := by
  unfold patternMatches
  split_ifs
  · have hfront : OneLength [literalFront pattern] := ⟨_, List.forall_mem_singleton.2 rfl⟩
    exact (h.nodup_expand (.inr ⟨hstars, hfront⟩) (List.nodup_singleton _)).sublist
      (List.filter_sublist.map _)
  · simp
  · exact .nil

theorem IsSound.nodup_files (h : tree.IsSound)
    (hpattern : tree.isDirectory (Path.ofString pattern) = true ∨
      (wildcardNames pattern).count "**" ≤ 1) :
    (tree.findFeatureFiles pattern).files.Nodup := by
  cases hdirectory : tree.isDirectory (Path.ofString pattern) with
  | true =>
    rw [files_of_isDirectory hdirectory]
    refine (h.pairwise_featureFilesBelow _).imp fun hlt heq => ?_
    rw [heq] at hlt
    exact List.lt_irrefl _ hlt
  | false =>
    have hstars := hpattern.resolve_left (by simp [hdirectory])
    have hsorted : (((tree.patternMatches pattern).mergeSort fun a b => decide (a ≤ b)).map
        Path.ofString).Nodup := by
      refine List.Nodup.of_map Path.names ?_
      rw [List.map_map]
      exact ((List.mergeSort_perm _ _).map _).nodup_iff.2 (h.nodup_patternMatches hstars)
    simp only [findFeatureFiles, hdirectory, Bool.false_eq_true, if_false]
    exact hsorted.filter _

/-! ## No two paths lead to one file -/

/-- The path goes on from a front, and never up from there. -/
structure GoesDown (front path : Path) : Prop where
  root : path.root = front.root
  names : ∃ more, path.names = front.names ++ more ∧
    ∀ name ∈ more, ¬(name = "" ∨ name = ".") ∧ name ≠ ".."

theorem GoesDown.refl (front : Path) : GoesDown front front :=
  ⟨rfl, [], (List.append_nil _).symm, by simp⟩

/-- Paths that go down from one front lead to one place only if they are one path. -/
theorem eq_of_goesDown (ha : GoesDown front a) (hb : GoesDown front b)
    (hla : tree.locate a = .ok location) (hlb : tree.locate b = .ok location) : a = b := by
  obtain ⟨hroot, more, hmore, hdown⟩ := ha
  obtain ⟨hroot', more', hmore', hdown'⟩ := hb
  rw [locate_eq_ok_iff, hroot, hmore] at hla
  rw [locate_eq_ok_iff, hroot', hmore'] at hlb
  obtain ⟨mid, hmid, hlast⟩ := hla.exists_mid
  obtain ⟨mid', hmid', hlast'⟩ := hlb.exists_mid
  -- both go on from where the front leads
  obtain rfl : mid = mid' := by
    rw [← walk_eq_ok_iff] at hmid hmid'
    exact Except.ok.inj (hmid.symm.trans hmid')
  have hnames : more = more' := by
    have heq := (hlast.eq_append hdown).symm.trans (hlast'.eq_append hdown')
    exact List.append_cancel_left heq
  rw [hnames, ← hmore'] at hmore
  cases a
  cases b
  exact congrArg₂ Path.mk (hroot.trans hroot'.symm) hmore

/-- What one name of a pattern adds to the text of a directory starts with no slash, and its names
    do not go up unless the name of the pattern does. -/
theorem IsSound.added_of_standsFor (h : tree.IsSound) {directoriesOnly : Bool}
    {name directory more : String} (hslash : '/' ∉ name.toList) (hup : name ≠ "..")
    (hstands : StandsFor tree directoriesOnly name directory more) :
    more.toList.head? ≠ some '/' ∧ ".." ∉ Path.namesOf more := by
  cases hstands with
  | here | directory => simp
  | below _ _ stands =>
    refine ⟨head?_intercalate fun _ hname => ?_, ?_⟩
    · exact h.isEntryName stands (List.mem_append_right _ hname)
    · rw [h.namesOf_below stands]
      exact fun hmem => (h.isEntryName stands (List.mem_append_right _ hmem)).ne_dots rfl
  | child _ _ _ stands =>
    have hentry : IsEntryName more := h.isEntryName stands (by simp)
    rw [Path.namesOf_of_isEntryName hentry, List.mem_singleton]
    exact ⟨fun hhead => hentry.no_slash (List.mem_of_head? hhead), Ne.symm hentry.ne_dots⟩
  | literal =>
    rw [Path.namesOf_eq, Path.segments_of_no_slash hslash]
    refine ⟨fun hhead => hslash (List.mem_of_head? hhead), fun hmem => ?_⟩
    exact hup (List.mem_singleton.1 (List.mem_of_mem_filter hmem)).symm

/-- What the names of a pattern stand for is below its front, unless one of them goes up. -/
theorem IsSound.goesDown_of_mem_expand (h : tree.IsSound)
    (hnames : ∀ name ∈ names, '/' ∉ name.toList ∧ name ≠ "..") :
    ∀ text ∈ tree.expand names [literal],
      GoesDown (Path.ofString literal) (Path.ofString text) := by
  intro text htext
  refine h.expand_induction (P := fun seen text =>
    (∀ name ∈ seen, '/' ∉ name.toList ∧ name ≠ "..") →
      GoesDown (Path.ofString literal) (Path.ofString text)) ?_ [] ?_ text htext hnames
  · intro seen directoriesOnly name directory more hdirectory hstands hseen
    obtain ⟨hseen, hname⟩ := List.forall_mem_append.1 hseen
    obtain ⟨hslash, hup⟩ := hname name (List.mem_singleton_self name)
    obtain ⟨hroot, down, hdown, hdowns⟩ := hdirectory hseen
    obtain ⟨hhead, hmore⟩ := h.added_of_standsFor hslash hup hstands
    rw [Path.ofString_joinText hhead]
    refine ⟨hroot, down ++ Path.namesOf more, ?_, ?_⟩
    · rw [← List.append_assoc, ← hdown]
      rfl
    · refine List.forall_mem_append.2 ⟨hdowns, fun other hother => ?_⟩
      refine ⟨(Path.not_same_of_mem_namesOf hother).1, ?_⟩
      rintro rfl
      exact hmore hother
  · rw [List.forall_mem_singleton]
    exact fun _ => .refl _

/-- A pattern that reaches nothing in two ways: a directory, or a pattern that has at most one `**`
    and does not go up behind its first wildcard. -/
def IsOneWay (tree : Tree) (pattern : String) : Prop :=
  tree.isDirectory (Path.ofString pattern) = true ∨
    (wildcardNames pattern).count "**" ≤ 1 ∧ ".." ∉ wildcardNames pattern

instance (tree : Tree) (pattern : String) : Decidable (tree.IsOneWay pattern) :=
  inferInstanceAs (Decidable (_ ∨ _))

/-- The two paths do not lead to one place. -/
def LeadApart (tree : Tree) (a b : Path) : Prop :=
  ∀ location, tree.locate a = .ok location → tree.locate b ≠ .ok location

theorem IsSound.exists_goesDown (h : tree.IsSound) (hpattern : tree.IsOneWay pattern) :
    ∃ front, ∀ path ∈ (tree.findFeatureFiles pattern).files, GoesDown front path := by
  cases hdirectory : tree.isDirectory (Path.ofString pattern) with
  | true =>
    refine ⟨Path.ofString pattern, fun path hpath => ?_⟩
    obtain ⟨home, hhome⟩ := exists_directoryAt hdirectory
    rw [files_of_isDirectory hdirectory, h.mem_featureFilesBelow_iff hhome] at hpath
    obtain ⟨above, name, bytes, rfl, -, hget⟩ := hpath
    refine ⟨rfl, above ++ [name], rfl, fun other hother => ?_⟩
    have hentry : IsEntryName other := h.isEntryName hget (List.mem_append_right home hother)
    exact ⟨hentry.not_same, hentry.ne_dots⟩
  | false =>
    have hup := (hpattern.resolve_left (by simp [hdirectory])).2
    have hnames : ∀ name ∈ wildcardNames pattern, '/' ∉ name.toList ∧ name ≠ ".." :=
      fun name hname => ⟨no_slash_of_mem_wildcardNames hname, fun heq => hup (heq ▸ hname)⟩
    refine ⟨Path.ofString (if hasWildcard pattern then literalFront pattern else pattern),
      fun path hpath => ?_⟩
    obtain ⟨⟨text, htext, rfl⟩, -⟩ := (mem_files_iff hdirectory).1 hpath
    obtain ⟨hwildcard, hexpand⟩ | ⟨hplain, rfl, -⟩ := mem_patternMatches_cases htext
    · rw [if_pos hwildcard]
      exact h.goesDown_of_mem_expand hnames text hexpand
    · rw [hplain]
      exact .refl _

theorem IsSound.pairwise_leadApart (h : tree.IsSound) (hpattern : tree.IsOneWay pattern) :
    (tree.findFeatureFiles pattern).files.Pairwise tree.LeadApart := by
  obtain ⟨front, hfront⟩ := h.exists_goesDown hpattern
  refine (h.nodup_files (hpattern.imp_right And.left)).imp_of_mem ?_
  intro a b ha hb hne location hla hlb
  exact hne (eq_of_goesDown (hfront a ha) (hfront b hb) hla hlb)

end Tree

/-! ## Searches and runs -/

/-- What a search lists, and a run converts. Every path in the list is one of something that is
    there and no directory; if the search is not strict, it may also be the missing front of a
    pattern that has nothing but `**` behind it. No path is listed twice if a directory is searched,
    or if the pattern has at most one `**`; if the pattern does not go up behind its first wildcard
    either, no two paths lead to one file. So the files that a run with such a pattern counts, as
    converted or as failed, are as many different files. -/
theorem found_once {tree : Tree} (sound : tree.IsSound) :
    (∀ pattern, ∀ path ∈ (tree.findFeatureFiles pattern).files,
      tree.IsLeaf path ∨ tree.IsMissingFront pattern path) ∧
    (∀ pattern, tree.isDirectory (Path.ofString pattern) = true ∨
        (wildcardNames pattern).count "**" ≤ 1 →
      (tree.findFeatureFiles pattern).files.Nodup) ∧
    (∀ pattern, tree.IsOneWay pattern →
      (tree.findFeatureFiles pattern).files.Pairwise tree.LeadApart) ∧
    ∀ options time code, (Run.convert options time tree).ending = .returned code →
      let made := (tree.makeDirectories (Path.ofString options.output)).1
      let batch := Run.conversions options tree
      let files := batch.results.map Prod.fst
      made.IsOneWay options.pattern →
        batch.successes + batch.failures.length = files.length ∧ files.Nodup ∧
          files.Pairwise made.LeadApart := by
  refine ⟨fun pattern path => sound.isLeaf_of_mem_files, fun pattern => sound.nodup_files,
    fun pattern => sound.pairwise_leadApart, ?_⟩
  intro options time code hending made batch files hpattern
  have hmade : made.IsSound := sound.makeDirectories fun name => Path.not_same_of_mem_namesOf
  have hreturns := Run.returns_of_convert hending
  have hfiles : files = (made.findFeatureFiles options.pattern).files :=
    Run.map_fst_convertAll hreturns.limit
  refine ⟨?_, ?_, ?_⟩
  · rw [Run.Batch.successes_add_failures hreturns.limit, List.length_map]
  · rw [hfiles]
    exact hmade.nodup_files (hpattern.imp_right And.left)
  · rw [hfiles]
    exact hmade.pairwise_leadApart hpattern

/-- In the tree of two directories a directory and a pattern list every file once, and the four
    files that a run counts are different ones. -/
theorem found_once_twinTree :
    twinTree.IsSound ∧ twinTree.IsOneWay "../in/**/x.feature" ∧
      (twinTree.findFeatureFiles "../in/**/x.feature").files.Nodup ∧
      (Run.convert (twinOptions .stdout) "" twinTree).ending = .returned 1 ∧
      ((Run.conversions (twinOptions .stdout) twinTree).results.map Prod.fst).Nodup ∧
      (twinBatch.successes, twinBatch.failures.length) = (2, 2) := by
  have hsound : twinTree.IsSound := by decide +kernel
  have hpattern : twinTree.IsOneWay "../in/**/x.feature" := by decide +kernel
  have hdirectory : twinMade.IsOneWay (twinOptions .stdout).pattern := by decide +kernel
  obtain ⟨-, hnodup, -, hcounts⟩ := found_once hsound
  refine ⟨hsound, hpattern, hnodup _ (hpattern.imp_right And.left), convert_reported_twinTree, ?_,
    by decide +kernel⟩
  have hmade : (twinTree.makeDirectories (Path.ofString (twinOptions .stdout).output)).1 =
      twinMade := congrArg Prod.fst makeDirectories_twinTree
  have hrun := hcounts (twinOptions .stdout) "" 1 convert_reported_twinTree
  simp only [hmade] at hrun
  exact (hrun hdirectory).2.1

/-- One file in a directory. -/
def nestedTree : Tree :=
  ⟨[], [(["a"], .directory), (["a", "b.feature"], .file (Utf8.encode "Feature: f\n"))], true⟩

/-- A pattern that reaches the directory in two ways. -/
def starsOptions : Options := ⟨"**/**/*.feature", "a", .json, .silent, 1, false, []⟩

theorem files_nestedTree :
    (nestedTree.findFeatureFiles "**/**/*.feature").files =
      [⟨.relative, ["a", "b.feature"]⟩, ⟨.relative, ["a", "b.feature"]⟩] := by
  have hmatches : nestedTree.patternMatches "**/**/*.feature" =
      ["a/b.feature", "a/b.feature"] := by decide +kernel
  unfold Tree.findFeatureFiles
  rw [if_neg (by decide +kernel), hmatches]
  dsimp only
  rw [List.mergeSort_of_pairwise (by decide +kernel)]
  decide +kernel

theorem makeDirectories_nestedTree :
    nestedTree.makeDirectories (Path.ofString "a") = (nestedTree, none) := by
  decide +kernel

theorem conversions_nestedTree : Run.conversions starsOptions nestedTree =
    Run.convertAll (Path.ofString "a") .json false nestedTree
      [⟨.relative, ["a", "b.feature"]⟩, ⟨.relative, ["a", "b.feature"]⟩] := by
  show Run.convertAll (Path.ofString "a") .json false
    (nestedTree.makeDirectories (Path.ofString "a")).1
    ((nestedTree.makeDirectories (Path.ofString "a")).1.findFeatureFiles "**/**/*.feature").files =
      _
  rw [makeDirectories_nestedTree, files_nestedTree]

/-- The file is listed twice, and a run counts two converted files. -/
theorem found_twice_nestedTree :
    nestedTree.IsSound ∧
      ¬(nestedTree.findFeatureFiles "**/**/*.feature").files.Nodup ∧
      (Run.convert starsOptions "" nestedTree).ending = .returned 0 ∧
      (Run.convert starsOptions "" nestedTree).stdout =
        "Successful parses: 2\nFailed parses: 0\n" := by
  have hlimit : (Run.conversions starsOptions nestedTree).overlong? = none := by
    rw [conversions_nestedTree]
    decide +kernel
  have hconvert : Run.convert starsOptions "" nestedTree = _ :=
    Run.convert_eq makeDirectories_nestedTree hlimit
  refine ⟨by decide +kernel, ?_, ?_, ?_⟩
  · rw [files_nestedTree]
    decide
  · rw [hconvert, conversions_nestedTree]
    decide +kernel
  · rw [hconvert, conversions_nestedTree]
    decide +kernel

end FeatureFile
