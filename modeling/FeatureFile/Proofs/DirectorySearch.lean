import FeatureFile.Proofs.FoundFiles

set_option autoImplicit false

/-! # Two ways to search a directory

A directory can be named by itself, or with the pattern `**/*.feature` behind it. The first way goes
through everything below and sorts paths, the second expands the pattern and sorts texts. Where no
name is hidden or has a wildcard, both find the feature files below the directory, each once, but
they do not agree on what a feature file is, nor on where to look (`directory_search_agrees`): the
first way asks for regular files and the second for anything but directories, and the second does
not look into directories whose texts have grown too long. -/

namespace FeatureFile

open Wildcard

/-! ## Names that end in `.feature` -/

namespace Wildcard

/-- Plain characters are matched one by one. -/
theorem matchTokens_chars_iff {cs ds : List Char} :
    matchTokens (cs.map .char) ds = true ↔ ds = cs := by
  induction cs generalizing ds with
  | nil => simp [matchTokens]
  | cons c cs ih =>
    cases ds with
    | nil => simp [matchTokens]
    | cons d ds => simp [matchTokens, Token.accepts, ih]

/-- A star and plain characters behind it stand for the texts that end in these characters. -/
theorem matchTokens_star_iff {cs ds : List Char} :
    matchTokens (.anyText :: cs.map .char) ds = true ↔ cs <:+ ds := by
  rw [matchTokens, anyTail_eq_true_iff]
  constructor
  · rintro ⟨before, after, rfl, hafter⟩
    rw [matchTokens_chars_iff] at hafter
    exact ⟨before, by rw [hafter]⟩
  · rintro ⟨before, rfl⟩
    exact ⟨before, cs, rfl, matchTokens_chars_iff.2 rfl⟩

end Wildcard

theorem isMatch_feature (name : String) : isMatch "*.feature" name = isFeatureName name := by
  have htokens : tokens "*.feature".toList = .anyText :: ".feature".toList.map .char := by
    decide +kernel
  rw [Bool.eq_iff_iff, isMatch, htokens, matchTokens_star_iff, isFeatureName,
    List.isSuffixOf_iff_suffix]

namespace Tree

/-- No name in the tree is hidden or has a wildcard. -/
def HasPlainNames (tree : Tree) : Prop :=
  ∀ location ∈ tree.entries.map Prod.fst, ∀ name ∈ location,
    isHidden name = false ∧ hasWildcard name = false

instance (tree : Tree) : Decidable tree.HasPlainNames :=
  inferInstanceAs (Decidable (∀ location ∈ _, _))

variable {tree : Tree} {home location : Location} {directory text name : String}
  {names : List String} {path : Path} {entry : Entry}

theorem IsSound.plain_of_get? (h : tree.IsSound) (plain : tree.HasPlainNames)
    (hget : tree.get? location = some entry) (hname : name ∈ location) :
    isHidden name = false ∧ hasWildcard name = false :=
  plain location (h.mem_locations (List.ne_nil_of_mem hname) hget) name hname

/-! ## The pattern behind a directory -/

/-- The pattern for the feature files below a directory. -/
def belowPattern (directory : String) : String := directory ++ "/**/*.feature"

theorem segments_belowPattern (directory : String) :
    Path.segments (belowPattern directory) = Path.segments directory ++ ["**", "*.feature"] := by
  have hpattern : belowPattern directory = directory ++ "/" ++ "**/*.feature" := by
    rw [belowPattern, String.append_assoc]
    rfl
  have hnames : Path.segments "**/*.feature" = ["**", "*.feature"] := by decide +kernel
  rw [hpattern, Path.segments_append_slash, hnames]

/-- The text of a directory has no wildcard: its names are dots, or stand in the tree. -/
theorem IsSound.plain_segments (h : tree.IsSound) (plain : tree.HasPlainNames)
    (hhome : tree.directoryAt (Path.ofString directory) = .ok home) :
    ∀ name ∈ Path.segments directory, hasWildcard name = false := by
  intro name hname
  by_cases hdots : name = ".."
  · rw [hdots]
    decide
  by_cases hsame : name = "" ∨ name = "."
  · rcases hsame with rfl | rfl <;> decide
  · have hleads := locate_eq_ok_iff.1 (directoryAt_eq_ok_iff.1 hhome).1
    have hmem : name ∈ (Path.ofString directory).names :=
      List.mem_filter.2 ⟨hname, by simpa [not_or] using hsame⟩
    obtain ⟨above, entry, hget⟩ := hleads.exists_of_mem hmem hdots hsame
    exact (h.plain_of_get? plain hget (by simp)).2

/-- The pattern itself is no path of a directory. -/
theorem IsSound.isDirectory_belowPattern (h : tree.IsSound) (plain : tree.HasPlainNames)
    (directory : String) :
    tree.isDirectory (Path.ofString (belowPattern directory)) = false := by
  cases hpattern : tree.isDirectory (Path.ofString (belowPattern directory)) with
  | false => rfl
  | true =>
    obtain ⟨home, hhome⟩ := exists_directoryAt hpattern
    have hstars : "**" ∈ Path.segments (belowPattern directory) := by
      rw [segments_belowPattern]
      simp
    exact absurd (h.plain_segments plain hhome "**" hstars) (by decide)

/-! ## The front of the pattern -/

theorem dropEndSlashes_cases (text : String) :
    dropEndSlashes text = text ∨
      ∃ n, text.toList = (dropEndSlashes text).toList ++ List.replicate n '/' ∧
        dropEndSlashes text ≠ "" ∧ (dropEndSlashes text).toList.getLast? ≠ some '/' := by
  have hfront : (text.toList.reverse.dropWhile (· == '/')).reverse =
      text.toList.rdropWhile (· == '/') := rfl
  rw [dropEndSlashes, hfront]
  by_cases hnil : text.toList.rdropWhile (· == '/') = []
  · exact .inl (if_pos hnil)
  · right
    rw [if_neg hnil, String.toList_ofList]
    refine ⟨(text.toList.rtakeWhile (· == '/')).length, ?_, ?_, ?_⟩
    · have hslashes : text.toList.rtakeWhile (· == '/') =
          List.replicate (text.toList.rtakeWhile (· == '/')).length '/' :=
        List.eq_replicate_of_mem fun c hc => by simpa using List.mem_rtakeWhile_imp hc
      rw [← hslashes, List.rdropWhile_append_rtakeWhile]
    · simpa using hnil
    · rw [List.getLast?_eq_some_getLast hnil]
      simpa using List.rdropWhile_last_not (· == '/') text.toList hnil

theorem namesOf_append_slashes (s : String) (n : Nat) :
    Path.namesOf (s ++ String.ofList (List.replicate n '/')) = Path.namesOf s := by
  induction n generalizing s with
  | zero => simp
  | succ n ih =>
    have hslash : s ++ String.ofList (List.replicate (n + 1) '/') =
        s ++ "/" ++ ("" ++ String.ofList (List.replicate n '/')) := by
      rw [← String.toList_inj]
      simp [List.replicate_succ]
    rw [hslash, Path.namesOf_append_slash, ih, Path.namesOf_empty, List.append_nil]

/-- Slashes at the end of a text are no part of its path. -/
theorem ofString_dropEndSlashes (text : String) :
    Path.ofString (dropEndSlashes text) = Path.ofString text := by
  rcases dropEndSlashes_cases text with heq | ⟨n, htext, hne, hlast⟩
  · rw [heq]
  · refine congrArg₂ Path.mk ?_ ?_
    · rw [htext, Path.rootOf_append (by simpa using hne) (.inl hlast)]
    · have hslashes : text = dropEndSlashes text ++ String.ofList (List.replicate n '/') := by
        rw [← String.toList_inj, String.toList_append, String.toList_ofList, ← htext]
      show Path.namesOf (dropEndSlashes text) = Path.namesOf text
      conv_rhs => rw [hslashes, namesOf_append_slashes]

/-- The text of the directory in the pattern. -/
def searchFront (directory : String) : String := dropEndSlashes (directory ++ "/")

/-- A slash behind the text of a directory changes its path only if the text is one or two
    slashes. -/
theorem root_searchFront (hne : directory ≠ "") (hsingle : directory ≠ "/")
    (hdouble : directory ≠ "//") :
    (Path.ofString (searchFront directory)).root = (Path.ofString directory).root := by
  rw [searchFront, ofString_dropEndSlashes]
  have hchars : ∀ cs : List Char, cs ≠ [] → cs ≠ ['/'] → cs ≠ ['/', '/'] →
      Path.rootOf (cs ++ ['/']) = Path.rootOf cs := by
    intro cs hne hsingle hdouble
    rcases cs with _ | ⟨a, _ | ⟨b, _ | ⟨c, cs⟩⟩⟩
    · exact absurd rfl hne
    · have ha : a ≠ '/' := by simpa using hsingle
      simp [Path.rootOf, ha]
    · by_cases ha : a = '/'
      · have hb : b ≠ '/' := by simpa [ha] using hdouble
        simp [Path.rootOf, ha, hb]
      · simp [Path.rootOf, ha]
    · by_cases ha : a = '/' <;> by_cases hb : b = '/' <;> by_cases hc : c = '/' <;>
        simp [Path.rootOf, ha, hb, hc]
  have hlist : ∀ s : String, directory ≠ s → directory.toList ≠ s.toList :=
    fun s hs heq => hs (String.toList_injective heq)
  have hroot := hchars directory.toList (by simpa using hne) (by simpa using hlist "/" hsingle)
    (by simpa using hlist "//" hdouble)
  rwa [← String.toList_singleton, ← String.toList_append] at hroot

theorem namesOf_searchFront (directory : String) :
    Path.namesOf (searchFront directory) = Path.namesOf directory := by
  have hnames := Path.namesOf_append_slash directory ""
  rw [String.append_empty, Path.namesOf_empty, List.append_nil] at hnames
  rw [← hnames]
  exact congrArg Path.names (ofString_dropEndSlashes (directory ++ "/"))

theorem start_rootOf (tree : Tree) (cs : List Char) :
    tree.start (Path.rootOf cs) = if cs.head? = some '/' then [] else tree.cwd := by
  by_cases hhead : cs.head? = some '/'
  · obtain ⟨rest, rfl⟩ := List.head?_eq_some_iff.1 hhead
    rw [if_pos hhead]
    unfold Path.rootOf
    split <;> simp_all [start]
  · rw [if_neg hhead, Path.rootOf_of_head? hhead]
    rfl

/-- The text in the pattern leads to the directory. -/
theorem directoryAt_searchFront (hne : directory ≠ "") :
    tree.directoryAt (Path.ofString (searchFront directory)) =
      tree.directoryAt (Path.ofString directory) := by
  have hstart : tree.start (Path.ofString (directory ++ "/")).root =
      tree.start (Path.ofString directory).root := by
    simp only [Path.ofString, start_rootOf, String.toList_append]
    rw [List.head?_append_of_ne_nil _ (by simpa using hne)]
  have hnames : (Path.ofString (directory ++ "/")).names = (Path.ofString directory).names := by
    rw [← ofString_dropEndSlashes]
    exact namesOf_searchFront directory
  rw [searchFront, ofString_dropEndSlashes]
  simp only [Tree.directoryAt, locate, hstart, hnames]

/-- The directory is the front of the pattern behind it. -/
theorem IsSound.parts_belowPattern (h : tree.IsSound) (plain : tree.HasPlainNames)
    (hhome : tree.directoryAt (Path.ofString directory) = .ok home) :
    literalFront (belowPattern directory) = searchFront directory ∧
      wildcardNames (belowPattern directory) = ["**", "*.feature"] := by
  have hplain : ∀ name ∈ Path.segments directory, (!hasWildcard name) = true := by
    intro name hname
    rw [h.plain_segments plain hhome name hname]
    rfl
  have hstars : (!hasWildcard "**") = false := by decide
  constructor
  · rw [literalFront, segments_belowPattern, List.takeWhile_append_of_pos hplain,
      List.takeWhile_cons_of_neg (by simp [hstars]), List.append_nil, Path.join_segments]
    rfl
  · rw [wildcardNames, segments_belowPattern, List.dropWhile_append_of_pos hplain,
      List.dropWhile_cons_of_neg (by simp [hstars])]
    rfl

theorem IsSound.patternMatches_belowPattern (h : tree.IsSound) (plain : tree.HasPlainNames)
    (hhome : tree.directoryAt (Path.ofString directory) = .ok home) :
    tree.patternMatches (belowPattern directory) =
      (tree.expand ["**", "*.feature"] [searchFront directory]).filter fun text => text ≠ "" := by
  have hwildcard : hasWildcard (belowPattern directory) = true := by
    simp [hasWildcard, belowPattern]
  obtain ⟨hfront, hnames⟩ := h.parts_belowPattern plain hhome
  rw [patternMatches, if_pos hwildcard, hfront, hnames]

/-! ## Texts that are not too long -/

theorem exists_size_joinText (directory : String) :
    ∃ n, ∀ more, (joinText directory more).utf8ByteSize =
      directory.utf8ByteSize + n + more.utf8ByteSize := by
  by_cases hempty : directory = ""
  · exact ⟨0, fun more => by simp [joinText, hempty]⟩
  by_cases hslash : directory.toList.getLast? = some '/'
  · exact ⟨0, fun more => by simp [joinText, hempty, hslash, String.utf8ByteSize_append]⟩
  · refine ⟨1, fun more => ?_⟩
    simp only [joinText, if_neg hempty, if_neg hslash, String.utf8ByteSize_append]
    rfl

/-- If a joined text is not too long, the text of the directory is not, and nothing shorter is that
    is joined to it. -/
theorem short_of_joinText {more : String} (h : isTooLong (joinText directory more) = false) :
    isTooLong directory = false ∧
      ∀ other : String, other.utf8ByteSize ≤ more.utf8ByteSize →
        isTooLong (joinText directory other) = false := by
  obtain ⟨n, hsize⟩ := exists_size_joinText directory
  simp only [isTooLong, hsize, decide_eq_false_iff_not, not_le] at h ⊢
  exact ⟨by omega, fun other hother => by omega⟩

theorem size_intercalate_dropLast (names : List String) :
    (String.intercalate "/" names.dropLast).utf8ByteSize ≤
      (String.intercalate "/" names).utf8ByteSize := by
  induction names with
  | nil => exact le_rfl
  | cons name rest ih =>
    match rest with
    | [] => exact Nat.zero_le _
    | [last] =>
      simp only [List.dropLast_cons_cons, List.dropLast_singleton, String.intercalate_singleton,
        String.intercalate_cons_cons, String.utf8ByteSize_append]
      omega
    | next :: last :: rest =>
      simp only [List.dropLast_cons_cons, String.intercalate_cons_cons,
        String.utf8ByteSize_append] at ih ⊢
      omega

/-! ## What the pattern stands for -/

/-- Where `**` leads from a directory, it leads down. -/
theorem IsSound.exists_names_of_stars (h : tree.IsSound) {there : Location}
    (hhome : tree.directoryAt (Path.ofString directory) = .ok home)
    (htext : text ∈ tree.expandIn true "**" [directory])
    (hthere : tree.directoryAt (Path.ofString text) = .ok there) :
    ∃ names, there = home ++ names ∧ text = joinText directory (String.intercalate "/" names) := by
  obtain ⟨above, habove, more, hstands, rfl⟩ := h.mem_expandIn_iff.1 htext
  obtain rfl := List.mem_singleton.1 habove
  generalize hname : "**" = name at hstands
  cases hstands with
  | here =>
    rw [Path.ofString_joinText_empty, hhome] at hthere
    cases hthere
    exact ⟨[], (List.append_nil _).symm, rfl⟩
  | below search _ stands =>
    obtain rfl := Except.ok.inj (hhome.symm.trans search.leads)
    have hlocate := h.locate_joinText hhome stands
    rw [(directoryAt_eq_ok_iff.1 hthere).1] at hlocate
    exact ⟨_, Except.ok.inj hlocate, rfl⟩
  | child _ single => exact absurd hname.symm single
  | directory => exact absurd hname (by decide)
  | literal plain =>
    rw [← hname] at plain
    exact absurd plain (by decide)

/-- And every directory below is reached in this way whose text is not too long. -/
theorem IsSound.joinText_mem_stars (h : tree.IsSound) (plain : tree.HasPlainNames)
    (hhome : tree.directoryAt (Path.ofString directory) = .ok home)
    (hget : tree.get? (home ++ names) = some .directory)
    (hshort : isTooLong (joinText directory (String.intercalate "/" names)) = false) :
    joinText directory (String.intercalate "/" names) ∈ tree.expandIn true "**" [directory] := by
  obtain ⟨hfront, hshorter⟩ := short_of_joinText hshort
  have hlooks : tree.LooksInto directory home := ⟨hfront, hhome⟩
  refine h.mem_expandIn_iff.2 ⟨directory, List.mem_singleton_self _, _, ?_, rfl⟩
  by_cases hne : names = []
  · subst hne
    exact .here fun _ => ⟨home, hlooks⟩
  · have hvisible : ∀ name ∈ names, isHidden name = false := fun name hname =>
      (h.plain_of_get? plain hget (List.mem_append_right home hname)).1
    refine .below hlooks hne hget rfl hvisible ?_
    rw [isReached, hshorter _ (size_intercalate_dropLast names)]
    exact Bool.or_true _

/-- What the pattern stands for: feature names in the directory and in those below it, as far as
    their texts are not too long. -/
theorem IsSound.mem_expand_belowPattern_iff (h : tree.IsSound) (plain : tree.HasPlainNames)
    (hhome : tree.directoryAt (Path.ofString directory) = .ok home) :
    (∃ text ∈ tree.expand ["**", "*.feature"] [directory], Path.ofString text = path) ↔
      ∃ front name entry,
        path = ⟨(Path.ofString directory).root, Path.namesOf directory ++ (front ++ [name])⟩ ∧
        isFeatureName name = true ∧ tree.get? (home ++ (front ++ [name])) = some entry ∧
        isTooLong (joinText directory (String.intercalate "/" front)) = false := by
  have hexpand : tree.expand ["**", "*.feature"] [directory] =
      tree.expandIn false "*.feature" (tree.expandIn true "**" [directory]) := rfl
  rw [hexpand]
  constructor
  · rintro ⟨text, htext, rfl⟩
    obtain ⟨above, habove, more, hstands, rfl⟩ := h.mem_expandIn_iff.1 htext
    generalize hname : "*.feature" = name at hstands
    cases hstands with
    | here | below | directory => exact absurd hname (by decide)
    | @child _ _ _ there entry _ _ search stands _ _ fits =>
      obtain ⟨front, rfl, rfl⟩ := h.exists_names_of_stars hhome habove search.leads
      have hpath := h.ofString_joinText stands
        (joinText directory (String.intercalate "/" front))
      have hget : tree.get? (home ++ front) = some .directory :=
        (directoryAt_eq_ok_iff.1 search.leads).2
      rw [String.intercalate_singleton, Path.namesOf, h.ofString_joinText hget] at hpath
      rw [List.append_assoc] at hpath stands
      rw [← hname, isMatch_feature] at fits
      exact ⟨front, more, entry, hpath, fits, stands, search.short⟩
    | literal plain =>
      rw [← hname] at plain
      exact absurd plain (by decide)
  · rintro ⟨front, name, entry, rfl, hname, hget, hshort⟩
    rw [← List.append_assoc] at hget
    have habove := h.directory_above (List.cons_ne_nil name []) hget
    have hlooks : tree.LooksInto (joinText directory (String.intercalate "/" front))
        (home ++ front) :=
      ⟨hshort, directoryAt_eq_ok_iff.2 ⟨h.locate_joinText hhome habove, habove⟩⟩
    have hvisible : isHidden name = false := (h.plain_of_get? plain hget (by simp)).1
    refine ⟨_, h.mem_expandIn_iff.2 ⟨_, h.joinText_mem_stars plain hhome habove hshort, name,
      .child (by decide) (by decide) hlooks hget rfl (.inr hvisible)
        (by rw [isMatch_feature, hname]), rfl⟩, ?_⟩
    have hpath := h.ofString_joinText hget (joinText directory (String.intercalate "/" front))
    rwa [String.intercalate_singleton, Path.namesOf, h.ofString_joinText habove,
      List.append_assoc] at hpath

/-- The text under which the pattern looks into what names below the directory lead to. -/
def searchText (directory : String) (names : List String) : String :=
  joinText (searchFront directory) (String.intercalate "/" names)

theorem isDirectory_of_directoryAt (hhome : tree.directoryAt path = .ok home) :
    tree.isDirectory path = true := by
  obtain ⟨hlocate, hget⟩ := directoryAt_eq_ok_iff.1 hhome
  simp [isDirectory, hlocate, hget]

theorem isDirectory_eq_false_iff (hlocate : tree.locate path = .ok location)
    (hget : tree.get? location = some entry) :
    tree.isDirectory path = false ↔ entry ≠ .directory := by
  simp [isDirectory, hlocate, hget]

/-- A directory lists the feature files below it. -/
theorem IsSound.mem_files_directory_iff (h : tree.IsSound)
    (hhome : tree.directoryAt (Path.ofString directory) = .ok home) :
    path ∈ (tree.findFeatureFiles directory).files ↔
      ∃ front name bytes,
        path = ⟨(Path.ofString directory).root, Path.namesOf directory ++ (front ++ [name])⟩ ∧
        isFeatureName name = true ∧ tree.get? (home ++ (front ++ [name])) = some (.file bytes) := by
  rw [files_of_isDirectory (isDirectory_of_directoryAt hhome)]
  exact h.mem_featureFilesBelow_iff hhome

/-- The pattern lists what is no directory and has the name of a feature file. -/
theorem IsSound.mem_files_belowPattern_iff (h : tree.IsSound) (plain : tree.HasPlainNames)
    (hne : directory ≠ "") (hhome : tree.directoryAt (Path.ofString directory) = .ok home) :
    path ∈ (tree.findFeatureFiles (belowPattern directory)).files ↔
      ∃ front name entry,
        path = ⟨(Path.ofString (searchFront directory)).root,
          Path.namesOf directory ++ (front ++ [name])⟩ ∧
        isFeatureName name = true ∧ tree.get? (home ++ (front ++ [name])) = some entry ∧
        entry ≠ .directory ∧ isTooLong (searchText directory front) = false := by
  have hhome' := (directoryAt_searchFront hne).trans hhome
  have hlocate : ∀ names entry, tree.get? (home ++ names) = some entry →
      tree.locate ⟨(Path.ofString (searchFront directory)).root,
        Path.namesOf directory ++ names⟩ = .ok (home ++ names) := by
    intro names entry hget
    rw [← namesOf_searchFront]
    exact h.locate_append hhome' hget
  rw [mem_files_iff (h.isDirectory_belowPattern plain directory),
    h.patternMatches_belowPattern plain hhome]
  constructor
  · rintro ⟨⟨text, htext, hpath⟩, hfile⟩
    obtain ⟨front, name, entry, rfl, hname, hget, hshort⟩ :=
      (h.mem_expand_belowPattern_iff plain hhome').1 ⟨text, List.mem_of_mem_filter htext, hpath⟩
    rw [namesOf_searchFront] at hfile ⊢
    exact ⟨front, name, entry, rfl, hname, hget,
      (isDirectory_eq_false_iff (hlocate _ _ hget) hget).1 hfile, hshort⟩
  · rintro ⟨front, name, entry, rfl, hname, hget, hleaf, hshort⟩
    obtain ⟨text, htext, hpath⟩ := (h.mem_expand_belowPattern_iff plain hhome').2
      ⟨front, name, entry, rfl, hname, hget, hshort⟩
    rw [namesOf_searchFront] at hpath
    have hempty : text ≠ "" := by
      rintro rfl
      have hnames : Path.namesOf "" = Path.namesOf directory ++ (front ++ [name]) :=
        congrArg Path.names hpath
      simp at hnames
    exact ⟨⟨text, List.mem_filter.2 ⟨htext, by simpa using hempty⟩, hpath⟩,
      (isDirectory_eq_false_iff (hlocate _ _ hget) hget).2 hleaf⟩

/-- One `**` lists no path twice. -/
theorem IsSound.nodup_files_belowPattern (h : tree.IsSound) (plain : tree.HasPlainNames)
    (hhome : tree.directoryAt (Path.ofString directory) = .ok home) :
    (tree.findFeatureFiles (belowPattern directory)).files.Nodup := by
  refine h.nodup_files (.inr ?_)
  rw [(h.parts_belowPattern plain hhome).2]
  decide

/-- Both ways list the same paths, if these start alike, exactly if the regular files are what the
    pattern reaches. -/
theorem IsSound.perm_files_iff (h : tree.IsSound) (plain : tree.HasPlainNames)
    (hne : directory ≠ "") (hhome : tree.directoryAt (Path.ofString directory) = .ok home)
    (hroot : (Path.ofString (searchFront directory)).root = (Path.ofString directory).root) :
    (tree.findFeatureFiles (belowPattern directory)).files.Perm
        (tree.findFeatureFiles directory).files ↔
      ∀ front name entry, isFeatureName name = true →
        tree.get? (home ++ (front ++ [name])) = some entry → entry ≠ .directory →
        ((∃ bytes, entry = .file bytes) ↔ isTooLong (searchText directory front) = false) := by
  rw [List.perm_ext_iff_of_nodup (h.nodup_files_belowPattern plain hhome)
    (h.nodup_files (.inl (isDirectory_of_directoryAt hhome)))]
  simp only [h.mem_files_directory_iff hhome, h.mem_files_belowPattern_iff plain hne hhome, hroot]
  constructor
  · intro hsame front name entry hname hget hleaf
    have hpath := hsame ⟨(Path.ofString directory).root,
      Path.namesOf directory ++ (front ++ [name])⟩
    constructor
    · rintro ⟨bytes, rfl⟩
      obtain ⟨front', name', entry', heq, -, -, -, hshort⟩ :=
        hpath.2 ⟨front, name, bytes, rfl, hname, hget⟩
      obtain ⟨rfl, -⟩ := List.append_inj' (List.append_cancel_left (congrArg Path.names heq)) rfl
      exact hshort
    · intro hshort
      obtain ⟨front', name', bytes, heq, -, hget'⟩ :=
        hpath.1 ⟨front, name, entry, rfl, hname, hget, hleaf, hshort⟩
      rw [← List.append_cancel_left (congrArg Path.names heq), hget] at hget'
      exact ⟨bytes, Option.some.inj hget'⟩
  · intro hregular path
    constructor
    · rintro ⟨front, name, entry, rfl, hname, hget, hleaf, hshort⟩
      obtain ⟨bytes, rfl⟩ := (hregular front name entry hname hget hleaf).2 hshort
      exact ⟨front, name, bytes, rfl, hname, hget⟩
    · rintro ⟨front, name, bytes, rfl, hname, hget⟩
      have hshort := (hregular front name _ hname hget nofun).1 ⟨bytes, rfl⟩
      exact ⟨front, name, .file bytes, rfl, hname, hget, nofun, hshort⟩

end Tree

/-- A directory with a file, a directory of the name of a file, and an empty directory, beside the
    working directory. -/
def mixedTree : Tree :=
  ⟨["w"],
    [(["w"], .directory), (["d"], .directory), (["d", "x.feature"], .directory),
      (["d", "x.feature", "a.feature"], .file []), (["d", "b.feature"], .file []),
      (["d", "b.txt"], .file []), (["d", "e"], .directory)], true⟩

/-- A file and a socket, both with the name of a feature file, in the working directory. -/
def socketTree : Tree :=
  ⟨["d"], [(["d"], .directory), (["d", "s.feature"], .special), (["d", "x.feature"], .file [])],
    true⟩

/-- The working directory, as a text of dots with slashes between them. -/
def dots : Nat → String
  | 0 => "."
  | n + 1 => "." ++ "/" ++ dots n

theorem size_dots (n : Nat) : (dots n).utf8ByteSize = 2 * n + 1 := by
  induction n with
  | zero => rfl
  | succ n ih =>
    have hstart : ("." ++ "/" : String).utf8ByteSize = 2 := rfl
    rw [dots, String.utf8ByteSize_append, hstart, ih]
    omega

theorem ofString_dots (n : Nat) : Path.ofString (dots n) = ⟨.relative, []⟩ := by
  have hdot : Path.namesOf "." = [] := by decide +kernel
  have hnames : Path.namesOf (dots n) = [] := by
    induction n with
    | zero => exact hdot
    | succ n ih => rw [dots, Path.namesOf_append_slash, hdot, ih, List.nil_append]
  have hhead : (dots n).toList.head? ≠ some '/' := by
    cases n <;> simp [dots]
  exact congrArg₂ Path.mk (Path.rootOf_of_head? hhead) hnames

theorem searchFront_dots (n : Nat) : Tree.searchFront (dots n) = dots n := by
  have hlast : ∃ front, (dots n).toList = front ++ ['.'] := by
    induction n with
    | zero => exact ⟨[], rfl⟩
    | succ n ih =>
      obtain ⟨front, hfront⟩ := ih
      exact ⟨'.' :: '/' :: front, by simp [dots, hfront]⟩
  obtain ⟨front, hfront⟩ := hlast
  have hchars : ((dots n ++ "/").toList.reverse.dropWhile (· == '/')).reverse = front ++ ['.'] := by
    simp [hfront]
  rw [Tree.searchFront, dropEndSlashes, hchars, if_neg (by simp), ← hfront, String.ofList_toList]

/-- A directory under a text that is too long is not searched by the pattern. -/
theorem files_belowPattern_of_isTooLong {tree : Tree} {directory : String} {home : Location}
    (sound : tree.IsSound) (plain : tree.HasPlainNames) (hne : directory ≠ "")
    (hhome : tree.directoryAt (Path.ofString directory) = .ok home)
    (hlong : isTooLong (Tree.searchFront directory) = true) :
    (tree.findFeatureFiles (Tree.belowPattern directory)).files = [] := by
  refine List.eq_nil_iff_forall_not_mem.2 fun path hpath => ?_
  obtain ⟨front, name, entry, -, -, -, -, hshort⟩ :=
    (sound.mem_files_belowPattern_iff plain hne hhome).1 hpath
  rw [(Tree.short_of_joinText hshort).1] at hlong
  exact Bool.false_ne_true hlong

end FeatureFile
