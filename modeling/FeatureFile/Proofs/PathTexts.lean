import FeatureFile.Proofs.Shapes
import FeatureFile.Proofs.SoundTree

set_option autoImplicit false

/-! # Paths as texts

A search goes from text to text: it appends names to the text of a directory and asks where the
result leads. Texts that differ in slashes and dots are one path, so what a text stands for is told
by its normal form. Here the normal form of a joined text is that of the directory with more names
(`Path.ofString_joinText`), and a text that is not too long leads to a directory exactly if its
normal form does (`Tree.IsSound.searchDirectory?_eq_some_iff`). -/

namespace FeatureFile

open Text

namespace Path

/-! ## Cutting at slashes -/

theorem segments_append_slash (s t : String) :
    segments (s ++ "/" ++ t) = segments s ++ segments t := by
  have hchars : (s ++ "/" ++ t).toList = s.toList ++ '/' :: t.toList := by simp
  rw [segments, hchars, piecesAt_append_cons (by decide), List.map_append]
  rfl

theorem segments_of_no_slash {s : String} (h : '/' ∉ s.toList) : segments s = [s] := by
  rw [segments, piecesAt_eq_singleton h, List.map_singleton, String.ofList_toList]

/-- No segment has a slash. -/
theorem no_slash_of_mem_segments {s name : String} (h : name ∈ segments s) :
    '/' ∉ name.toList := by
  obtain ⟨piece, hpiece, rfl⟩ := List.mem_map.1 h
  rw [String.toList_ofList]
  intro hslash
  simpa using not_of_mem_piecesAt hpiece hslash

/-- Every other character than a slash is in a segment. -/
theorem exists_segment_of_mem {s : String} {c : Char} (hc : c ∈ s.toList) (hslash : c ≠ '/') :
    ∃ name ∈ segments s, c ∈ name.toList := by
  have hmem : c ∈ (piecesAt (· == '/') s.toList).flatMap ('/' :: ·) := by
    rw [flatMap_piecesAt]
    exact List.mem_cons_of_mem _ hc
  obtain ⟨piece, hpiece, hcpiece⟩ := List.mem_flatMap.1 hmem
  refine ⟨String.ofList piece, List.mem_map_of_mem hpiece, ?_⟩
  rw [String.toList_ofList]
  exact List.mem_of_ne_of_mem hslash hcpiece

/-- Names without slashes are cut where they were joined. -/
theorem segments_intercalate {names : List String} (hne : names ≠ [])
    (h : ∀ name ∈ names, '/' ∉ name.toList) :
    segments (String.intercalate "/" names) = names := by
  induction names with
  | nil => exact absurd rfl hne
  | cons name rest ih =>
    rw [List.forall_mem_cons] at h
    cases rest with
    | nil => exact segments_of_no_slash h.1
    | cons next rest =>
      rw [String.intercalate_cons_cons, segments_append_slash, segments_of_no_slash h.1,
        ih (by simp) h.2]
      rfl

/-- The segments with a slash behind each are the text with a slash behind it. -/
theorem join_segments (s : String) : String.join ((segments s).map (· ++ "/")) = s ++ "/" := by
  have hpieces : ∀ pieces : List (List Char),
      '/' :: (String.join ((pieces.map String.ofList).map (· ++ "/"))).toList =
        pieces.flatMap ('/' :: ·) ++ ['/'] := by
    intro pieces
    induction pieces with
    | nil => rfl
    | cons piece rest ih =>
      rw [List.flatMap_cons, List.append_assoc, ← ih]
      simp
  have hchars := hpieces (piecesAt (· == '/') s.toList)
  rw [flatMap_piecesAt, List.cons_append, List.cons.injEq] at hchars
  rw [← String.toList_inj, String.toList_append]
  exact hchars.2

/-! ## The names of a text -/

/-- The names that a text stands for. -/
def namesOf (text : String) : List String := (ofString text).names

theorem namesOf_eq (text : String) :
    namesOf text = (segments text).filter fun name => name ≠ "" ∧ name ≠ "." := rfl

theorem not_same_of_mem_namesOf {text name : String} (h : name ∈ namesOf text) :
    ¬(name = "" ∨ name = ".") ∧ '/' ∉ name.toList := by
  obtain ⟨hmem, hname⟩ := List.mem_filter.1 h
  rw [not_or]
  exact ⟨by simpa using hname, no_slash_of_mem_segments hmem⟩

@[simp] theorem namesOf_empty : namesOf "" = [] := by decide +kernel

theorem namesOf_append_slash (s t : String) : namesOf (s ++ "/" ++ t) = namesOf s ++ namesOf t := by
  rw [namesOf_eq, segments_append_slash, List.filter_append]
  rfl

theorem namesOf_intercalate {names : List String} (h : ∀ name ∈ names, IsEntryName name) :
    namesOf (String.intercalate "/" names) = names := by
  by_cases hne : names = []
  · subst hne
    exact namesOf_empty
  · rw [namesOf_eq, segments_intercalate hne fun name hname => (h name hname).no_slash,
      List.filter_eq_self]
    intro name hname
    have := (h name hname).not_same
    rw [not_or] at this
    simpa using this

theorem namesOf_of_isEntryName {name : String} (h : IsEntryName name) : namesOf name = [name] :=
  @namesOf_intercalate [name] (List.forall_mem_singleton.2 h)

/-- A joined text has the names of the directory, and then those of what was joined. -/
theorem namesOf_joinText (directory text : String) :
    namesOf (Tree.joinText directory text) = namesOf directory ++ namesOf text := by
  unfold Tree.joinText
  split_ifs with hempty hslash
  · rw [hempty, namesOf_empty, List.nil_append]
  · -- the slash that the directory ends with is the one between the two
    obtain ⟨front, hfront⟩ := List.getLast?_eq_some_iff.1 hslash
    have hdirectory : directory = String.ofList front ++ "/" := by
      rw [← String.toList_inj, hfront]
      simp
    have hcut : namesOf directory = namesOf (String.ofList front) := by
      have := namesOf_append_slash (String.ofList front) ""
      rwa [String.append_empty, ← hdirectory, namesOf_empty, List.append_nil] at this
    rw [hcut, hdirectory, namesOf_append_slash]
  · exact namesOf_append_slash directory text

/-! ## The root of a text -/

theorem rootOf_of_head? {cs : List Char} (h : cs.head? ≠ some '/') : rootOf cs = .relative := by
  cases cs with
  | nil => rfl
  | cons c cs =>
    have hc : c ≠ '/' := by simpa using h
    simp [rootOf, hc]

/-- What is appended without another slash leaves the root as it is. -/
theorem rootOf_append {cs ds : List Char} (hne : cs ≠ [])
    (h : cs.getLast? ≠ some '/' ∨ ds.head? ≠ some '/') : rootOf (cs ++ ds) = rootOf cs := by
  rcases cs with _ | ⟨a, _ | ⟨b, _ | ⟨c, cs⟩⟩⟩
  · exact absurd rfl hne
  · by_cases ha : a = '/'
    · cases ds <;> simp_all [rootOf]
    · simp [rootOf, ha]
  · by_cases ha : a = '/' <;> by_cases hb : b = '/'
    · cases ds <;> simp_all [rootOf]
    all_goals simp [rootOf, ha, hb]
  · by_cases ha : a = '/' <;> by_cases hb : b = '/' <;> by_cases hc : c = '/' <;>
      simp [rootOf, ha, hb, hc]

theorem rootOf_joinText {directory more : String} (h : more.toList.head? ≠ some '/') :
    rootOf (Tree.joinText directory more).toList = rootOf directory.toList := by
  unfold Tree.joinText
  split_ifs with hempty hslash
  · rw [hempty, rootOf_of_head? h]
    rfl
  · rw [String.toList_append, rootOf_append (by simpa using hempty) (.inr h)]
  · rw [String.append_assoc, String.toList_append,
      rootOf_append (by simpa using hempty) (.inl hslash)]

/-- A joined text is the path of the directory with more names. -/
theorem ofString_joinText {directory more : String} (h : more.toList.head? ≠ some '/') :
    ofString (Tree.joinText directory more) =
      ⟨(ofString directory).root, namesOf directory ++ namesOf more⟩ :=
  congrArg₂ Path.mk (rootOf_joinText h) (namesOf_joinText directory more)

/-- A slash at the end of a text is no name. -/
theorem ofString_joinText_empty (directory : String) :
    ofString (Tree.joinText directory "") = ofString directory := by
  rw [ofString_joinText (by simp), namesOf_empty, List.append_nil]
  rfl

end Path

namespace Tree

variable {tree : Tree} {location target : Location} {names : List String} {text : String}

/-! ## Where a text leads -/

/-- Empty names and dots may be left out. -/
theorem Leads.filter (h : Leads tree location names target) :
    Leads tree location (names.filter fun name => name ≠ "" ∧ name ≠ ".") target := by
  induction h with
  | here location => exact .here location
  | stay same _ ih =>
    rw [List.filter_cons_of_neg (by simpa [or_iff_not_imp_left] using same)]
    exact ih
  | up _ ih => exact .up ih
  | down other below entry _ ih =>
    rw [List.filter_cons_of_pos (by simpa [not_or] using other)]
    exact .down other below entry ih
  | last other below stands leaf =>
    rw [List.filter_cons_of_pos (by simpa [not_or] using other)]
    exact .last other below stands leaf

/-- They may stand anywhere on the way to a directory. -/
theorem Leads.of_filter
    (h : Leads tree location (names.filter fun name => name ≠ "" ∧ name ≠ ".") target)
    (hdirectory : tree.get? target = some .directory) : Leads tree location names target := by
  induction names generalizing location with
  | nil => exact h
  | cons name rest ih =>
    by_cases hsame : name = "" ∨ name = "."
    · rw [List.filter_cons_of_neg (by simpa [or_iff_not_imp_left] using hsame)] at h
      exact .stay hsame (ih h)
    · rw [List.filter_cons_of_pos (by simpa [not_or] using hsame)] at h
      generalize hfiltered : (rest.filter fun name => name ≠ "" ∧ name ≠ ".") = filtered at h
      cases h with
      | stay same _ => exact absurd same hsame
      | up more => exact .up (ih (hfiltered ▸ more))
      | down other below entry more => exact .down other below entry (ih (hfiltered ▸ more))
      | last _ _ stands leaf =>
        rw [stands] at hdirectory
        exact absurd (Option.some.inj hdirectory) leaf

theorem locateText_eq_ok_iff : tree.locateText text = .ok location ↔
    text ≠ "" ∧ isTooLong text = false ∧
      Leads tree (tree.start (Path.ofString text).root) (Path.segments text) location := by
  rw [locateText, ← walk_eq_ok_iff]
  split_ifs with h
  · refine iff_of_false nofun ?_
    rintro ⟨hne, hshort, -⟩
    exact h.elim hne (by simp [hshort])
  · rw [not_or, Bool.not_eq_true] at h
    simp only [h.1, h.2, ne_eq, not_false_eq_true, true_and]
    rfl

/-- A text that leads somewhere leads there in its normal form. -/
theorem locate_of_locateText (h : tree.locateText text = .ok location) :
    tree.locate (Path.ofString text) = .ok location :=
  locate_eq_ok_iff.2 (locateText_eq_ok_iff.1 h).2.2.filter

theorem exists_locate_of_existsText (h : tree.existsText text = true) :
    ∃ location, tree.locate (Path.ofString text) = .ok location := by
  unfold existsText at h
  cases hlocate : tree.locateText text with
  | error fault =>
    rw [hlocate] at h
    cases h
  | ok location => exact ⟨location, locate_of_locateText hlocate⟩

theorem locateText_of_directoryAt (hne : text ≠ "") (hshort : isTooLong text = false)
    (h : tree.directoryAt (Path.ofString text) = .ok location) :
    tree.locateText text = .ok location := by
  rw [directoryAt_eq_ok_iff, locate_eq_ok_iff] at h
  exact locateText_eq_ok_iff.2 ⟨hne, hshort, h.1.of_filter h.2⟩

theorem directoryText?_eq_some_iff : tree.directoryText? text = some location ↔
    text ≠ "" ∧ isTooLong text = false ∧
      tree.directoryAt (Path.ofString text) = .ok location := by
  constructor
  · intro h
    unfold directoryText? at h
    split at h
    · next found hfound =>
      split_ifs at h with hdirectory
      cases h
      obtain ⟨hne, hshort, -⟩ := locateText_eq_ok_iff.1 hfound
      exact ⟨hne, hshort, directoryAt_eq_ok_iff.2 ⟨locate_of_locateText hfound, hdirectory⟩⟩
    · cases h
  · rintro ⟨hne, hshort, hhome⟩
    rw [directoryText?, locateText_of_directoryAt hne hshort hhome]
    exact if_pos (directoryAt_eq_ok_iff.1 hhome).2

/-- A search under the text of a directory looks into the directory at the location. -/
structure LooksInto (tree : Tree) (text : String) (location : Location) : Prop where
  short : isTooLong text = false
  leads : tree.directoryAt (Path.ofString text) = .ok location

/-- Names are looked up in the directory that the normal form of the text leads to, unless the text
    is too long. -/
theorem IsSound.searchDirectory?_eq_some_iff (h : tree.IsSound) :
    tree.searchDirectory? text = some location ↔ tree.LooksInto text location := by
  have hlooks : isTooLong text = false ∧ tree.directoryAt (Path.ofString text) = .ok location ↔
      tree.LooksInto text location := ⟨fun h => ⟨h.1, h.2⟩, fun h => ⟨h.short, h.leads⟩⟩
  rw [searchDirectory?, ← hlooks]
  split_ifs with hempty
  · have hshort : isTooLong "" = false := by decide
    have hpath : Path.ofString "" = ⟨.relative, []⟩ := congrArg (Path.mk _) Path.namesOf_empty
    have hcwd : tree.directoryAt (Path.ofString "") = .ok tree.cwd := by
      rw [hpath]
      exact directoryAt_eq_ok_iff.2 ⟨rfl, h.cwd⟩
    rw [hempty, hcwd, Except.ok.injEq, Option.some.injEq]
    exact (and_iff_right hshort).symm
  · rw [directoryText?_eq_some_iff]
    exact and_iff_right hempty

/-! ## Joining what stands in a directory -/

theorem head?_intercalate (h : ∀ name ∈ names, IsEntryName name) :
    (String.intercalate "/" names).toList.head? ≠ some '/' := by
  cases names with
  | nil => simp
  | cons name rest =>
    have hname : IsEntryName name := h name List.mem_cons_self
    have hne : name.toList ≠ [] := by simpa using hname.ne_empty
    have hhead : (String.intercalate "/" (name :: rest)).toList.head? = name.toList.head? := by
      cases rest with
      | nil => simp
      | cons next rest =>
        rw [String.intercalate_cons_cons, String.append_assoc, String.toList_append,
          List.head?_append_of_ne_nil _ hne]
    rw [hhead]
    exact fun hslash => hname.no_slash (List.mem_of_head? hslash)

/-- The text of a directory and of names that stand below it is the path of what stands there. -/
theorem IsSound.ofString_joinText (h : tree.IsSound) {home : Location} {entry : Entry}
    (hget : tree.get? (home ++ names) = some entry) (directory : String) :
    Path.ofString (joinText directory (String.intercalate "/" names)) =
      ⟨(Path.ofString directory).root, Path.namesOf directory ++ names⟩ := by
  have hnames : ∀ name ∈ names, IsEntryName name := fun name hname =>
    h.isEntryName hget (List.mem_append_right home hname)
  rw [Path.ofString_joinText (head?_intercalate hnames), Path.namesOf_intercalate hnames]

theorem IsSound.locate_joinText (h : tree.IsSound) {directory : String} {home : Location}
    {entry : Entry} (hhome : tree.directoryAt (Path.ofString directory) = .ok home)
    (hget : tree.get? (home ++ names) = some entry) :
    tree.locate (Path.ofString (joinText directory (String.intercalate "/" names))) =
      .ok (home ++ names) := by
  rw [h.ofString_joinText hget]
  exact h.locate_append hhome hget

end Tree

end FeatureFile
