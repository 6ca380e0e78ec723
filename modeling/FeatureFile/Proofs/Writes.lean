import FeatureFile.Files.Tree
import Mathlib.Data.List.Basic

set_option autoImplicit false

/-! # Files written into a directory

Names are followed through directories, and writing a file removes none. So a path that leads
somewhere leads there still after any number of writes (`Tree.Grows.locate`), and what is written
into one directory is kept apart by the names of the files alone: in the end a file holds what was
written last under its name (`Tree.Written.readFile_last`). Whatever else a file holds it held
before (`Tree.Written.file_cases`).

Before the files, their directory is made, with the directories above it. What stood in the tree
stays, and what is new is on the way to that directory (`Tree.Makes`). -/

namespace FeatureFile.Tree

/-! ## Following names -/

/-- Names lead from a directory to a location: the moves of `Tree.walk`. -/
inductive Leads (tree : Tree) : Location → List String → Location → Prop where
  | here (location : Location) : Leads tree location [] location
  | stay {location target : Location} {name : String} {rest : List String}
      (same : name = "" ∨ name = ".") (more : Leads tree location rest target) :
      Leads tree location (name :: rest) target
  | up {location target : Location} {rest : List String}
      (more : Leads tree location.dropLast rest target) :
      Leads tree location (".." :: rest) target
  | down {location target : Location} {name : String} {rest : List String}
      (other : ¬(name = "" ∨ name = ".")) (below : name ≠ "..")
      (entry : tree.get? (location ++ [name]) = some .directory)
      (more : Leads tree (location ++ [name]) rest target) :
      Leads tree location (name :: rest) target
  | last {location : Location} {name : String} {entry : Entry}
      (other : ¬(name = "" ∨ name = ".")) (below : name ≠ "..")
      (stands : tree.get? (location ++ [name]) = some entry) (leaf : entry ≠ .directory) :
      Leads tree location [name] (location ++ [name])

theorem walk_eq_ok_iff {tree : Tree} {location target : Location} {names : List String} :
    tree.walk location names = .ok target ↔ Leads tree location names target := by
  constructor
  · intro h
    induction names generalizing location with
    | nil =>
      cases h
      exact .here _
    | cons name rest ih =>
      rw [walk] at h
      by_cases hsame : name = "" ∨ name = "."
      · rw [if_pos hsame] at h
        exact .stay hsame (ih h)
      rw [if_neg hsame] at h
      by_cases hup : name = ".."
      · rw [if_pos hup] at h
        subst hup
        exact .up (ih h)
      rw [if_neg hup] at h
      split at h
      · simp at h
      · next hentry => exact .down hsame hup hentry (ih h)
      · next entry hleaf hentry =>
        by_cases hrest : rest = []
        · subst hrest
          cases h
          exact .last hsame hup hentry fun hdirectory => hleaf (hdirectory ▸ rfl)
        · simp [hrest] at h
  · intro h
    induction h with
    | here location => rfl
    | stay same _ ih => rwa [walk, if_pos same]
    | up _ ih => rwa [walk, if_neg (by decide), if_pos rfl]
    | down other below entry _ ih =>
      rw [walk, if_neg other, if_neg below, entry]
      exact ih
    | @last _ _ entry other below stands leaf =>
      rw [walk, if_neg other, if_neg below, stands]
      cases entry with
      | directory => exact absurd rfl leaf
      | file bytes => rfl
      | special => rfl

/-! ## Trees that grow -/

/-- Paths of the later tree start in the same place, and everything in the tree is still there:
    directories, and other entries, whatever has become of them. -/
structure Grows (tree later : Tree) : Prop where
  cwd : later.cwd = tree.cwd
  directory : ∀ location, tree.get? location = some .directory →
    later.get? location = some .directory
  leaf : ∀ location entry, tree.get? location = some entry → entry ≠ .directory →
    ∃ other, later.get? location = some other ∧ other ≠ .directory

section Following

variable {tree later : Tree} {location target : Location} {names more : List String}
  {path : Path} {bytes : List UInt8} {entry : Entry}

theorem Grows.refl (tree : Tree) : Grows tree tree :=
  ⟨rfl, fun _ h => h, fun _ entry h hleaf => ⟨entry, h, hleaf⟩⟩

theorem Grows.trans {last : Tree} (h : Grows tree later) (h' : Grows later last) :
    Grows tree last := by
  refine ⟨h'.cwd.trans h.cwd,
    fun location hlocation => h'.directory location (h.directory location hlocation), ?_⟩
  intro location entry hentry hleaf
  obtain ⟨other, hother, hleaf'⟩ := h.leaf location entry hentry hleaf
  exact h'.leaf location other hother hleaf'

/-- A tree in which every entry is kept. -/
theorem grows_of_kept (hcwd : later.cwd = tree.cwd) (hkept : ∀ location entry,
    tree.get? location = some entry → later.get? location = some entry) : Grows tree later :=
  ⟨hcwd, fun location => hkept location _,
    fun location entry hentry hleaf => ⟨entry, hkept location entry hentry, hleaf⟩⟩

/-- Where a file can be written: nothing stands there but a file. -/
theorem barrier?_eq_none_iff : tree.barrier? location = none ↔
    ∀ entry, tree.get? location = some entry → ∃ bytes, entry = .file bytes := by
  unfold barrier?
  cases hget : tree.get? location with
  | none => simp
  | some entry => cases entry <;> simp

theorem ne_directory_of_barrier? (h : tree.barrier? location = none) :
    tree.get? location ≠ some .directory := by
  intro hdirectory
  obtain ⟨bytes, hfile⟩ := barrier?_eq_none_iff.1 h _ hdirectory
  cases hfile

theorem ne_nil_of_barrier? (h : tree.barrier? location = none) : location ≠ [] := by
  rintro rfl
  exact ne_directory_of_barrier? h rfl

theorem grows_put (h : tree.barrier? location = none) :
    Grows tree (tree.put location (.file bytes)) := by
  have hget := get?_put tree (ne_nil_of_barrier? h) (.file bytes)
  refine ⟨rfl, fun other hdirectory => ?_, fun other entry hentry hleaf => ?_⟩
  · rw [hget, if_neg, hdirectory]
    rintro rfl
    exact ne_directory_of_barrier? h hdirectory
  · rw [hget]
    by_cases hother : other = location
    · exact ⟨.file bytes, if_pos hother, nofun⟩
    · exact ⟨entry, by rw [if_neg hother, hentry], hleaf⟩

theorem directoryAt_eq_ok_iff : tree.directoryAt path = .ok location ↔
    tree.locate path = .ok location ∧ tree.get? location = some .directory := by
  unfold directoryAt
  cases tree.locate path with
  | error fault => simp [bind, Except.bind]
  | ok found =>
    simp only [bind, Except.bind, Except.ok.injEq]
    constructor
    · intro h
      split_ifs at h with hdirectory
      cases h
      exact ⟨rfl, hdirectory⟩
    · rintro ⟨rfl, hdirectory⟩
      rw [if_pos hdirectory]

theorem exists_directoryAt (h : tree.isDirectory path = true) :
    ∃ home, tree.directoryAt path = .ok home := by
  unfold isDirectory at h
  cases hlocate : tree.locate path with
  | error fault => simp [hlocate] at h
  | ok home =>
    rw [hlocate] at h
    exact ⟨home, directoryAt_eq_ok_iff.2 ⟨hlocate, by simpa using h⟩⟩

theorem locate_eq_ok_iff : tree.locate path = .ok location ↔
    Leads tree (tree.start path.root) path.names location := walk_eq_ok_iff

theorem Grows.start (h : Grows tree later) (root : PathRoot) :
    later.start root = tree.start root := by
  cases root with
  | relative => exact h.cwd
  | single | double => rfl

/-- A path leads where it led before if everything is still there. -/
theorem Grows.leads (h : Grows tree later) (hleads : Leads tree location names target) :
    Leads later location names target := by
  induction hleads with
  | here location => exact .here location
  | stay same _ ih => exact .stay same ih
  | up _ ih => exact .up ih
  | down other below entry _ ih => exact .down other below (h.directory _ entry) ih
  | last other below stands leaf =>
    obtain ⟨entry, hentry, hleaf⟩ := h.leaf _ _ stands leaf
    exact .last other below hentry hleaf

theorem Grows.locate (h : Grows tree later) (hpath : tree.locate path = .ok location) :
    later.locate path = .ok location := by
  rw [locate_eq_ok_iff] at hpath ⊢
  rw [h.start]
  exact h.leads hpath

theorem Grows.directoryAt (h : Grows tree later) (hpath : tree.directoryAt path = .ok location) :
    later.directoryAt path = .ok location := by
  rw [directoryAt_eq_ok_iff] at hpath ⊢
  exact ⟨h.locate hpath.1, h.directory _ hpath.2⟩

/-- Names after those that lead to a directory are followed from there. -/
theorem Leads.append {last : Location} (h : Leads tree location names target)
    (hdirectory : tree.get? target = some .directory) (hmore : Leads tree target more last) :
    Leads tree location (names ++ more) last := by
  induction h with
  | here location => exact hmore
  | stay same _ ih => exact .stay same (ih hdirectory hmore)
  | up _ ih => exact .up (ih hdirectory hmore)
  | down other below entry _ ih => exact .down other below entry (ih hdirectory hmore)
  | last other below stands leaf =>
    rw [stands] at hdirectory
    exact absurd (Option.some.inj hdirectory) leaf

/-- A path of an entry, and names behind it that lead on from there. -/
theorem locate_append (hhome : tree.directoryAt path = .ok location)
    (hmore : Leads tree location more target) :
    tree.locate ⟨path.root, path.names ++ more⟩ = .ok target := by
  obtain ⟨hlocate, hdirectory⟩ := directoryAt_eq_ok_iff.1 hhome
  exact locate_eq_ok_iff.2 ((locate_eq_ok_iff.1 hlocate).append hdirectory hmore)

end Following

/-! ## One write -/

section Writing

variable {tree after : Tree} {directory : Path} {home : Location} {name : String}
  {bytes : List UInt8}

theorem parentOf_child : tree.parentOf (directory.child name) =
    (tree.directoryAt directory).map fun home => some (home, name) := by
  simp [parentOf, Path.child]

/-- What a write into a directory depends on. -/
theorem writeFile_child (hhome : tree.directoryAt directory = .ok home) :
    tree.writeFile (directory.child name) bytes =
      if name = ".." then .error ⟨.isDirectory, directory.child name⟩
      else
        match tree.barrier? (home ++ [name]) with
        | some fault => .error ⟨fault, directory.child name⟩
        | none => .ok (tree.put (home ++ [name]) (.file bytes)) := by
  rw [writeFile, parentOf_child, hhome]
  rfl

/-- A file is written into a directory that is there, and not over anything else than a file. -/
theorem writeFile_child_eq_ok_iff : tree.writeFile (directory.child name) bytes = .ok after ↔
    ∃ home, tree.directoryAt directory = .ok home ∧ name ≠ ".." ∧
      tree.barrier? (home ++ [name]) = none ∧
      after = tree.put (home ++ [name]) (.file bytes) := by
  cases hhome : tree.directoryAt directory with
  | error fault => simp [writeFile, parentOf_child, hhome, Except.map]
  | ok home =>
    rw [writeFile_child hhome]
    simp only [Except.ok.injEq, exists_eq_left']
    by_cases hup : name = ".."
    · simp [hup]
    · rw [if_neg hup]
      cases tree.barrier? (home ++ [name]) with
      | some fault => simp
      | none => simp [hup, eq_comm]

/-- What a name leads to that is followed. -/
theorem locate_child_of_get? {entry : Entry} (hhome : tree.directoryAt directory = .ok home)
    (hname : ¬(name = "" ∨ name = ".")) (hup : name ≠ "..")
    (hentry : tree.get? (home ++ [name]) = some entry) :
    tree.locate (directory.child name) = .ok (home ++ [name]) := by
  refine locate_append hhome ?_
  by_cases hdirectory : entry = .directory
  · subst hdirectory
    exact .down hname hup hentry (.here _)
  · exact .last hname hup hentry hdirectory

/-- A name of more than two characters is followed, whatever it is. -/
theorem locate_child (hhome : tree.directoryAt directory = .ok home)
    (hname : 2 < name.toList.length)
    (hfile : tree.get? (home ++ [name]) = some (.file bytes)) :
    tree.locate (directory.child name) = .ok (home ++ [name]) := by
  have hshort : ∀ short : String, short.toList.length ≤ 2 → name ≠ short := by
    rintro short hle rfl
    omega
  refine locate_child_of_get? hhome ?_ (hshort ".." (by decide)) hfile
  rw [not_or]
  exact ⟨hshort "" (by decide), hshort "." (by decide)⟩

theorem readFile_child (hhome : tree.directoryAt directory = .ok home)
    (hname : 2 < name.toList.length)
    (hfile : tree.get? (home ++ [name]) = some (.file bytes)) :
    tree.readFile (directory.child name) = .ok bytes := by
  simp only [readFile, locate_child hhome hname hfile, hfile]

end Writing

/-! ## Several writes -/

/-- Files are written into a directory one after another. -/
inductive Written (directory : Path) : Tree → List (String × List UInt8) → Tree → Prop where
  | nil (tree : Tree) : Written directory tree [] tree
  | cons {tree mid after : Tree} {name : String} {bytes : List UInt8}
      {rest : List (String × List UInt8)}
      (write : tree.writeFile (directory.child name) bytes = .ok mid)
      (more : Written directory mid rest after) :
      Written directory tree ((name, bytes) :: rest) after

section Several

variable {tree mid after : Tree} {directory : Path} {home location : Location} {name : String}
  {bytes : List UInt8} {writes more rest : List (String × List UInt8)}

theorem Written.append (h : Written directory tree writes mid)
    (hmore : Written directory mid more after) : Written directory tree (writes ++ more) after := by
  induction h with
  | nil tree => exact hmore
  | cons write _ ih => exact .cons write (ih hmore)

theorem Written.exists_mid (h : Written directory tree (writes ++ more) after) :
    ∃ mid, Written directory tree writes mid ∧ Written directory mid more after := by
  induction writes generalizing tree with
  | nil => exact ⟨tree, .nil tree, h⟩
  | cons head rest ih =>
    cases h with
    | cons write hrest =>
      obtain ⟨mid, hbefore, hafter⟩ := ih hrest
      exact ⟨mid, .cons write hbefore, hafter⟩

theorem grows_of_writeFile (h : tree.writeFile (directory.child name) bytes = .ok after) :
    Grows tree after := by
  obtain ⟨home, -, -, hfree, rfl⟩ := writeFile_child_eq_ok_iff.1 h
  exact grows_put hfree

theorem Written.grows (h : Written directory tree writes after) : Grows tree after := by
  induction h with
  | nil tree => exact .refl tree
  | cons write _ ih => exact (grows_of_writeFile write).trans ih

/-- A file holds what it held before, or what was written. -/
theorem Written.file_cases (h : Written directory tree writes after)
    (hfile : after.get? location = some (.file bytes)) :
    tree.get? location = some (.file bytes) ∨ ∃ name, (name, bytes) ∈ writes := by
  induction h with
  | nil tree => exact .inl hfile
  | @cons tree mid after name contents rest write _ ih =>
    obtain ⟨home, -, -, hfree, rfl⟩ := writeFile_child_eq_ok_iff.1 write
    obtain hmid | ⟨other, hother⟩ := ih hfile
    · rw [get?_put tree (ne_nil_of_barrier? hfree)] at hmid
      split_ifs at hmid with hlocation
      · cases hmid
        exact .inr ⟨name, by simp⟩
      · exact .inl hmid
    · exact .inr ⟨other, List.mem_cons_of_mem _ hother⟩

/-- Nothing changes but what stands under the names that are written. -/
theorem Written.get?_of_ne (h : Written directory tree writes after)
    (hhome : tree.directoryAt directory = .ok home)
    (hother : ∀ write ∈ writes, location ≠ home ++ [write.1]) :
    after.get? location = tree.get? location := by
  induction h with
  | nil tree => rfl
  | @cons tree mid after written contents rest write _ ih =>
    rw [List.forall_mem_cons] at hother
    rw [ih ((grows_of_writeFile write).directoryAt hhome) hother.2]
    obtain ⟨other, hdirectory, -, hfree, rfl⟩ := writeFile_child_eq_ok_iff.1 write
    rw [hhome] at hdirectory
    cases hdirectory
    rw [get?_put tree (ne_nil_of_barrier? hfree), if_neg hother.1]

/-- A write under one name leaves what stands under another. -/
theorem Written.get?_other (h : Written directory tree writes after)
    (hhome : tree.directoryAt directory = .ok home) (hother : ∀ write ∈ writes, write.1 ≠ name) :
    after.get? (home ++ [name]) = tree.get? (home ++ [name]) := by
  refine h.get?_of_ne hhome fun write hwrite heq => hother write hwrite ?_
  simpa using heq.symm

/-- Where something changes, one of the files that were written stands in the end. -/
theorem Written.exists_of_ne (h : Written directory tree writes after)
    (hnames : ∀ write ∈ writes, 2 < write.1.toList.length)
    (hchanged : after.get? location ≠ tree.get? location) :
    ∃ write ∈ writes, after.locate (directory.child write.1) = .ok location ∧
      ∃ contents, after.get? location = some (.file contents) := by
  induction h with
  | nil tree => exact absurd rfl hchanged
  | @cons tree mid after name contents rest write more ih =>
    rw [List.forall_mem_cons] at hnames
    by_cases hlast : after.get? location = mid.get? location
    · have hhome := (grows_of_writeFile write).trans more.grows
      obtain ⟨home, hdirectory, -, hfree, rfl⟩ := writeFile_child_eq_ok_iff.1 write
      rw [get?_put tree (ne_nil_of_barrier? hfree)] at hlast
      split_ifs at hlast with hlocation
      · subst hlocation
        exact ⟨(name, contents), List.mem_cons_self,
          locate_child (hhome.directoryAt hdirectory) hnames.1 hlast, contents, hlast⟩
      · exact absurd hlast hchanged
    · obtain ⟨other, hother, hstands⟩ := ih hnames.2 hlast
      exact ⟨other, List.mem_cons_of_mem _ hother, hstands⟩

/-- What is written last under a name is what stands there in the end. -/
theorem Written.get?_last (h : Written directory tree (writes ++ (name, bytes) :: rest) after)
    (hhome : tree.directoryAt directory = .ok home) (hlast : ∀ write ∈ rest, write.1 ≠ name) :
    after.get? (home ++ [name]) = some (.file bytes) := by
  obtain ⟨before, habove, hbefore⟩ := h.exists_mid
  cases hbefore with
  | @cons _ written _ _ _ _ write more =>
    have hhome' := (grows_of_writeFile write).directoryAt (habove.grows.directoryAt hhome)
    rw [more.get?_other hhome' hlast]
    obtain ⟨other, hdirectory, -, hfree, rfl⟩ := writeFile_child_eq_ok_iff.1 write
    rw [habove.grows.directoryAt hhome] at hdirectory
    cases hdirectory
    rw [get?_put before (ne_nil_of_barrier? hfree), if_pos rfl]

/-- What is written last under a name is what the file holds in the end. -/
theorem Written.readFile_last (h : Written directory tree (writes ++ (name, bytes) :: rest) after)
    (hname : 2 < name.toList.length) (hlast : ∀ write ∈ rest, write.1 ≠ name) :
    after.readFile (directory.child name) = .ok bytes := by
  obtain ⟨before, -, hbefore⟩ := h.exists_mid
  have hhome : ∃ home, before.directoryAt directory = .ok home := by
    cases hbefore with
    | cons write more =>
      obtain ⟨home, hhome, -⟩ := writeFile_child_eq_ok_iff.1 write
      exact ⟨home, hhome⟩
  obtain ⟨home, hhome⟩ := hhome
  refine readFile_child (hbefore.grows.directoryAt hhome) hname ?_
  exact @Written.get?_last _ _ _ _ _ _ [] _ hbefore hhome hlast

end Several

/-! ## Directories that are made -/

/-- Directories are made on the way of a path, each where nothing stands. -/
structure Makes (path : Path) (tree made : Tree) : Prop where
  cwd : made.cwd = tree.cwd
  kept : ∀ location entry, tree.get? location = some entry → made.get? location = some entry
  new : ∀ location, made.get? location ≠ tree.get? location →
    made.get? location = some .directory ∧
      ∃ above name home, above ++ [name] <+: path.names ∧ name ≠ ".." ∧
        made.directoryAt ⟨path.root, above⟩ = .ok home ∧ location = home ++ [name]

section Making

variable {tree mid made : Tree} {path : Path} {location : Location} {bytes : List UInt8}

theorem Makes.refl (path : Path) (tree : Tree) : Makes path tree tree :=
  ⟨rfl, fun _ _ h => h, fun _ h => absurd rfl h⟩

theorem Makes.grows (h : Makes path tree made) : Grows tree made := grows_of_kept h.cwd h.kept

theorem Makes.trans (h : Makes path tree mid) (h' : Makes path mid made) :
    Makes path tree made := by
  refine ⟨h'.cwd.trans h.cwd,
    fun location entry hentry => h'.kept location entry (h.kept location entry hentry), ?_⟩
  intro location hchanged
  by_cases hlast : made.get? location = mid.get? location
  · obtain ⟨hdirectory, above, name, home, hprefix, hup, hhome, heq⟩ :=
      h.new location (hlast ▸ hchanged)
    exact ⟨hlast.trans hdirectory, above, name, home, hprefix, hup, h'.grows.directoryAt hhome,
      heq⟩
  · exact h'.new location hlast

/-- What is made on the way of a path is on the way of a longer one. -/
theorem Makes.longer {root : PathRoot} {names more : List String}
    (h : Makes ⟨root, names⟩ tree made) (hmore : names <+: more) :
    Makes ⟨root, more⟩ tree made := by
  refine ⟨h.cwd, h.kept, fun location hchanged => ?_⟩
  obtain ⟨hdirectory, above, name, home, hprefix, hrest⟩ := h.new location hchanged
  exact ⟨hdirectory, above, name, home, hprefix.trans hmore, hrest⟩

theorem exists_of_makeDirectory (h : tree.makeDirectory path = .ok made) :
    ∃ above name home, path.names = above ++ [name] ∧ name ≠ ".." ∧
      tree.directoryAt ⟨path.root, above⟩ = .ok home ∧ tree.get? (home ++ [name]) = none ∧
      made = tree.put (home ++ [name]) .directory := by
  unfold makeDirectory parentOf at h
  cases hlast : path.names.getLast? with
  | none =>
    rw [hlast] at h
    cases hlocate : tree.locate path <;> simp [hlocate, Except.map] at h
  | some name =>
    rw [hlast] at h
    simp only at h
    cases hhome : tree.directoryAt { path with names := path.names.dropLast } with
    | error fault => simp [hhome, Except.map] at h
    | ok home =>
      simp only [hhome, Except.map] at h
      split_ifs at h with hstands
      cases h
      rw [not_or, Option.not_isSome_iff_eq_none] at hstands
      exact ⟨path.names.dropLast, name, home, (List.dropLast_append_getLast? _ hlast).symm,
        hstands.1, hhome, hstands.2, rfl⟩

theorem makes_of_makeDirectory (h : tree.makeDirectory path = .ok made) : Makes path tree made := by
  obtain ⟨above, name, home, hnames, hup, hhome, hfree, rfl⟩ := exists_of_makeDirectory h
  have hget := get?_put tree (by simp : home ++ [name] ≠ []) .directory
  have hkept : ∀ location entry, tree.get? location = some entry →
      (tree.put (home ++ [name]) .directory).get? location = some entry := by
    intro location entry hentry
    rw [hget, if_neg, hentry]
    rintro rfl
    simp [hfree] at hentry
  have hgrows : Grows tree (tree.put (home ++ [name]) .directory) := grows_of_kept rfl hkept
  refine ⟨rfl, hkept, fun location hchanged => ?_⟩
  rw [hget] at hchanged ⊢
  split_ifs at hchanged ⊢ with hlocation
  · exact ⟨rfl, above, name, home, hnames ▸ List.prefix_rfl, hup, hgrows.directoryAt hhome,
      hlocation⟩
  · exact absurd rfl hchanged

theorem makes_of_ensureDirectory (h : tree.ensureDirectory path = .ok made) :
    Makes path tree made := by
  unfold ensureDirectory at h
  split at h
  · next hmade =>
    cases h
    exact makes_of_makeDirectory hmade
  · split_ifs at h
    cases h
    exact .refl path tree

theorem makes_makeReversed (tree : Tree) (root : PathRoot) (names : List String) :
    Makes ⟨root, names.reverse⟩ tree (tree.makeReversed root names).1 := by
  induction names with
  | nil =>
    rw [makeReversed]
    cases hensure : tree.ensureDirectory ⟨root, []⟩ with
    | ok made => exact makes_of_ensureDirectory hensure
    | error error => exact .refl _ tree
  | cons name above ih =>
    rw [makeReversed]
    cases hensure : tree.ensureDirectory ⟨root, (name :: above).reverse⟩ with
    | ok made => exact makes_of_ensureDirectory hensure
    | error error =>
      simp only
      split_ifs
      · have habove : Makes ⟨root, (name :: above).reverse⟩ tree (tree.makeReversed root above).1 :=
          ih.longer (by simp)
        generalize tree.makeReversed root above = result at habove ⊢
        obtain ⟨made, fault⟩ := result
        cases fault with
        | some error => exact habove
        | none =>
          simp only
          cases hagain : made.ensureDirectory ⟨root, (name :: above).reverse⟩ with
          | ok again => exact habove.trans (makes_of_ensureDirectory hagain)
          | error error => exact habove
      · exact .refl _ tree

theorem makes_makeDirectories (tree : Tree) (path : Path) :
    Makes path tree (tree.makeDirectories path).1 := by
  have h := makes_makeReversed tree path.root path.names.reverse
  rwa [List.reverse_reverse] at h

/-- The directories that are made for an output leave every file as it was. -/
theorem file_of_makeDirectories :
    (tree.makeDirectories path).1.get? location = some (.file bytes) ↔
      tree.get? location = some (.file bytes) := by
  have h := makes_makeDirectories tree path
  refine ⟨fun hfile => ?_, h.kept location _⟩
  by_contra hother
  have hdirectory := (h.new location (hfile ▸ Ne.symm hother)).1
  rw [hfile] at hdirectory
  cases hdirectory

end Making

end FeatureFile.Tree
