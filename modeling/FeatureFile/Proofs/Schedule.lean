import FeatureFile.Proofs.Batch

set_option autoImplicit false

/-! # The order of a batch does not matter

A conversion looks at its input and at the place of its output, and changes nothing but the latter.
If the files of a batch have different names and none of them is the output of another, no file sees
what became of the others: whatever was written before it, it is converted as if it were alone
(`Runs.alone`), and the tree in the end depends on which files were written, not on their order
(`Tree.Written.get?_perm`).

So every order of the files gives every file the same result and leaves the same tree
(`convertAll_of_perm`), and a pool of threads, which converts in some order and collects the results
in the order of the list, reports what is reported when one file is converted after another. -/

namespace FeatureFile

/-! ## Writes in another order -/

namespace Tree

variable {tree after other : Tree} {directory : Path} {home : Location} {name : String}
  {bytes : List UInt8} {writes more : List (String × List UInt8)}

/-- A file of its own name holds what was written into it. -/
theorem Written.get?_of_mem (h : Written directory tree writes after)
    (hhome : tree.directoryAt directory = .ok home) (hnames : (writes.map Prod.fst).Nodup)
    (hmem : (name, bytes) ∈ writes) : after.get? (home ++ [name]) = some (.file bytes) := by
  obtain ⟨before, rest, rfl⟩ := List.append_of_mem hmem
  refine h.get?_last hhome fun write hwrite heq => ?_
  rw [List.map_append, List.map_cons, List.nodup_append, List.nodup_cons] at hnames
  exact hnames.2.1.1 (List.mem_map.2 ⟨write, hwrite, heq⟩)

/-- Files of different names can be written in any order. -/
theorem Written.get?_perm (h : Written directory tree writes after)
    (h' : Written directory tree more other) (hhome : tree.directoryAt directory = .ok home)
    (hnames : (writes.map Prod.fst).Nodup) (hperm : more.Perm writes) :
    other.get? = after.get? := by
  funext location
  have hnames' : (more.map Prod.fst).Nodup := (hperm.map Prod.fst).nodup_iff.2 hnames
  by_cases hwritten : ∃ write ∈ writes, location = home ++ [write.1]
  · obtain ⟨⟨name, bytes⟩, hmem, rfl⟩ := hwritten
    rw [h.get?_of_mem hhome hnames hmem, h'.get?_of_mem hhome hnames' (hperm.mem_iff.2 hmem)]
  · have hother : ∀ write ∈ writes, location ≠ home ++ [write.1] :=
      fun write hwrite heq => hwritten ⟨write, hwrite, heq⟩
    rw [h.get?_of_ne hhome hother,
      h'.get?_of_ne hhome fun write hwrite => hother write (hperm.mem_iff.1 hwrite)]

/-! ## Trees with the same entries -/

/-- Two trees have the same working directory, and the same stands at each of their locations. -/
structure Alike (tree other : Tree) : Prop where
  cwd : tree.cwd = other.cwd
  get? : tree.get? = other.get?

theorem Alike.walk (h : Alike tree other) (location : Location) (names : List String) :
    tree.walk location names = other.walk location names := by
  induction names generalizing location with
  | nil => rfl
  | cons name rest ih => simp only [Tree.walk, h.get?, ih]

theorem Alike.directoryAt (h : Alike tree other) (path : Path) :
    tree.directoryAt path = other.directoryAt path := by
  have hstart : tree.start path.root = other.start path.root := by
    cases path.root <;> simp only [start, h.cwd]
  simp only [Tree.directoryAt, locate, hstart, h.walk, h.get?]

/-- In trees with the same entries a file is written with the same outcome. -/
theorem Alike.writeFile_child (h : Alike tree other) (directory : Path) (name : String)
    (bytes : List UInt8) :
    (∃ error, tree.writeFile (directory.child name) bytes = .error error ∧
      other.writeFile (directory.child name) bytes = .error error) ∨
    ∃ written written', tree.writeFile (directory.child name) bytes = .ok written ∧
      other.writeFile (directory.child name) bytes = .ok written' ∧ Alike written written' := by
  have hdirectory := h.directoryAt directory
  cases hhome : tree.directoryAt directory with
  | error fault =>
    left
    simp only [writeFile, parentOf_child, ← hdirectory, hhome, Except.map]
    exact ⟨_, rfl, rfl⟩
  | ok home =>
    rw [Tree.writeFile_child hhome, Tree.writeFile_child (hdirectory ▸ hhome)]
    by_cases hup : name = ".."
    · simp only [if_pos hup]
      exact .inl ⟨_, rfl, rfl⟩
    have hbarrier : tree.barrier? (home ++ [name]) = other.barrier? (home ++ [name]) := by
      simp only [barrier?, h.get?]
    simp only [if_neg hup, ← hbarrier]
    cases tree.barrier? (home ++ [name]) with
    | some fault => exact .inl ⟨_, rfl, rfl⟩
    | none =>
      refine .inr ⟨_, _, rfl, rfl, h.cwd, funext fun location => ?_⟩
      rw [get?_put tree (by simp), get?_put other (by simp), h.get?]

end Tree

/-! ## Files that do not see each other -/

namespace Conversion

variable {tree mid after : Tree} {path directory : Path} {format : Format} {result : Conversion}

theorem Runs.run_eq (h : Runs tree path directory format result after) :
    run tree path directory format = (result, after) := by
  cases h with
  | unread read => simp only [run, read]
  | overlong read render => simp only [run, read, render]
  | unwritten read render write => simp only [run, read, render, write]
  | converted read render write => simp only [run, read, render, write]

/-- A conversion in a tree in which its input and the place of its output are as they were. -/
theorem Runs.alone {home location : Location} (h : Runs mid path directory format result after)
    (hgrows : Tree.Grows tree mid) (hhome : tree.directoryAt directory = .ok home)
    (hlocation : tree.locate path = .ok location)
    (hinput : mid.get? location = tree.get? location)
    (houtput : mid.get? (home ++ [path.name ++ format.extension]) =
      tree.get? (home ++ [path.name ++ format.extension])) :
    result = (run tree path directory format).1 := by
  have hread : readFeature mid path = readFeature tree path := by
    simp only [readFeature, Tree.readFile, hgrows.locate hlocation, hlocation, Tree.barrier?,
      hinput]
  have hwrite : ∀ bytes, mid.writeFile (outputPath path directory format) bytes =
      (tree.writeFile (outputPath path directory format) bytes).map fun _ =>
        mid.put (home ++ [path.name ++ format.extension]) (.file bytes) := by
    intro bytes
    have hbarrier : mid.barrier? (home ++ [path.name ++ format.extension]) =
        tree.barrier? (home ++ [path.name ++ format.extension]) := by
      simp only [Tree.barrier?, houtput]
    rw [outputPath, Tree.writeFile_child hhome, Tree.writeFile_child (hgrows.directoryAt hhome),
      hbarrier]
    split_ifs
    · rfl
    · cases tree.barrier? (home ++ [path.name ++ format.extension]) <;> rfl
  cases h with
  | unread read => rw [(Runs.unread (hread ▸ read)).run_eq]
  | overlong read render => rw [(Runs.overlong (hread ▸ read) render).run_eq]
  | unwritten read render write =>
    rw [hwrite, except_map_eq_error_iff] at write
    rw [(Runs.unwritten (hread ▸ read) render write).run_eq]
  | converted read render write =>
    rw [hwrite, except_map_eq_ok_iff] at write
    obtain ⟨written, hwritten, -⟩ := write
    rw [(Runs.converted (hread ▸ read) render hwritten).run_eq]

end Conversion

namespace Run

/-- The files of a batch do not get in each other's way: the output directory and the files are
    there, the files have different names, and none of them is the output of one of them, however
    its path is spelled. -/
structure Independent (tree : Tree) (directory : Path) (format : Format) (paths : List Path) :
    Prop where
  made : tree.isDirectory directory = true
  files : ∀ path ∈ paths, ∃ location bytes, tree.locate path = .ok location ∧
    tree.get? location = some (.file bytes)
  names : (paths.map Path.name).Nodup
  outputs : ∀ path ∈ paths, ∀ other ∈ paths,
    tree.locate path ≠ tree.locate (Conversion.outputPath other directory format)

section Orders

variable {tree : Tree} {directory path : Path} {format : Format} {paths order : List Path}
  {all : Bool} {result : Conversion}

theorem Independent.perm (h : Independent tree directory format paths)
    (hperm : order.Perm paths) : Independent tree directory format order where
  made := h.made
  files path hpath := h.files path (hperm.mem_iff.1 hpath)
  names := (hperm.map Path.name).nodup_iff.2 h.names
  outputs path hpath other hother :=
    h.outputs path (hperm.mem_iff.1 hpath) other (hperm.mem_iff.1 hother)

/-- Each file of a batch is converted as if it were alone. -/
theorem Independent.result_eq (h : Independent tree directory format paths)
    (hmem : (path, result) ∈ (convertAll directory format all tree paths).results) :
    result = (Conversion.run tree path directory format).1 := by
  obtain ⟨home, hhome⟩ := Tree.exists_directoryAt h.made
  have hconverts := converts_convertAll directory format all tree paths
  have hpaths := isPrefix_map_fst_convertAll directory format all tree paths
  obtain ⟨before, after, hsplit⟩ := List.append_of_mem hmem
  rw [hsplit] at hconverts hpaths
  rw [List.map_append, List.map_cons] at hpaths
  obtain ⟨mid, hbefore, hrun⟩ := hconverts.exists_mid
  have hpath : path ∈ paths := hpaths.subset (by simp)
  obtain ⟨location, bytes, hlocation, hfile⟩ := h.files path hpath
  cases hrun with
  | cons run _ =>
    refine run.alone hbefore.written.grows hhome hlocation ?_ ?_
    · refine hbefore.written.get?_of_ne hhome fun write hwrite heq => ?_
      obtain ⟨other, feature, output, hother, hname⟩ := exists_of_exported hwrite
      have hother' : other ∈ paths :=
        hpaths.subset (List.mem_append_left _ (List.mem_map_of_mem hother))
      rw [heq, hname] at hlocation hfile
      refine h.outputs path hpath other hother' (hlocation.trans ?_)
      exact (Tree.locate_child hhome (length_output format other.name) hfile).symm
    · refine hbefore.written.get?_other hhome fun write hwrite => ?_
      obtain ⟨other, feature, output, hother, hname⟩ := exists_of_exported hwrite
      rw [hname]
      refine append_ne_append fun heq => ?_
      have hnames := h.names.sublist (hpaths.sublist.map Path.name)
      rw [List.map_append, List.map_cons, List.nodup_append] at hnames
      exact hnames.2.2 _ (List.mem_map_of_mem (List.mem_map_of_mem hother)) _ (by simp) heq

/-- If no file is over the digit limit, each file has the result that it has alone. -/
theorem Independent.results_eq (h : Independent tree directory format paths)
    (hreturns : (convertAll directory format all tree paths).overlong? = none) :
    (convertAll directory format all tree paths).results =
      paths.map fun path => (path, (Conversion.run tree path directory format).1) := by
  have hpaths := map_fst_convertAll hreturns
  have hresult : ∀ pair ∈ (convertAll directory format all tree paths).results,
      pair = (pair.1, (Conversion.run tree pair.1 directory format).1) :=
    fun pair hpair => Prod.ext rfl (h.result_eq hpair)
  generalize (convertAll directory format all tree paths).results = results at hpaths hresult ⊢
  calc results = results.map fun pair =>
        (pair.1, (Conversion.run tree pair.1 directory format).1) :=
          (List.map_id results).symm.trans (List.map_congr_left hresult)
    _ = paths.map fun path => (path, (Conversion.run tree path directory format).1) := by
        rw [← hpaths, List.map_map]
        rfl

/-- If no file is over the digit limit in one order, none is in another one. -/
theorem Independent.overlong?_of_perm {first : Bool} (h : Independent tree directory format paths)
    (hreturns : (convertAll directory format first tree paths).overlong? = none)
    (hperm : order.Perm paths) :
    (convertAll directory format all tree order).overlong? = none := by
  have hresults := h.results_eq hreturns
  rw [Batch.overlong?_eq_none_iff] at hreturns ⊢
  intro path feature limit hmem
  have hpath : path ∈ paths :=
    hperm.subset ((isPrefix_map_fst_convertAll _ _ _ _ _).subset (List.mem_map_of_mem hmem))
  have halone := (h.perm hperm).result_eq hmem
  refine hreturns path feature limit ?_
  rw [hresults, halone]
  exact List.mem_map_of_mem hpath

/-- Exports of files of different names have different names. -/
theorem nodup_exported {results : List (Path × Conversion)}
    (h : (results.map fun pair => pair.1.name).Nodup) :
    ((results.filterMap (exported? format)).map Prod.fst).Nodup := by
  refine List.pairwise_map.2 ((List.pairwise_map.1 h).filterMap _ ?_)
  intro pair other hne write hwrite later hlater
  rw [(converted_of_exported hwrite).2, (converted_of_exported hlater).2]
  exact append_ne_append hne

end Orders

/-! ## Pools -/

/-- A pool of threads converts files in the order in which the threads take them, and gives the
    results in the order of the list. -/
def pooled (directory : Path) (format : Format) (tree : Tree) (order paths : List Path) : Batch :=
  let batch := convertAll directory format true tree order
  { batch with results := paths.filterMap fun path => batch.results.find? (·.1 = path) }

/-- In trees with the same entries log files are written with the same outcome. -/
theorem alike_writeLogs {tree other : Tree} (h : Tree.Alike tree other) (directory : Path)
    (failures : List (Path × ConversionError)) :
    Tree.Alike (writeLogs directory tree failures).1 (writeLogs directory other failures).1 ∧
      (writeLogs directory tree failures).2 = (writeLogs directory other failures).2 := by
  induction failures generalizing tree other with
  | nil => exact ⟨h, rfl⟩
  | cons failure rest ih =>
    obtain ⟨path, error⟩ := failure
    simp only [writeLogs]
    obtain ⟨fault, hfails, hfails'⟩ | ⟨written, written', hwrite, hwrite', halike⟩ :=
      h.writeFile_child directory (path.name ++ ".log")
        (Utf8.encode (Report.log path error.problem))
    · rw [hfails, hfails']
      exact ⟨h, rfl⟩
    · rw [hwrite, hwrite']
      exact ih halike

/-- What a pool gives is in the order of the list. -/
theorem Independent.results_pooled {tree : Tree} {directory : Path} {format : Format}
    {paths order : List Path} (h : Independent tree directory format paths)
    (hreturns : (convertAll directory format true tree order).overlong? = none)
    (hperm : order.Perm paths) :
    (pooled directory format tree order paths).results =
      paths.map fun path => (path, (Conversion.run tree path directory format).1) := by
  have hfind : ∀ path ∈ paths, order.find? (fun other => other = path) = some path := by
    intro path hpath
    cases hfound : order.find? (fun other => other = path) with
    | none => simpa using List.find?_eq_none.1 hfound path (hperm.mem_iff.2 hpath)
    | some other => simpa using List.find?_some hfound
  simp only [pooled, (h.perm hperm).results_eq hreturns, List.find?_map]
  rw [← List.filterMap_eq_map]
  refine List.filterMap_congr fun path hpath => ?_
  exact congrArg (Option.map _) (hfind path hpath)

end Run

/-! ## Any order -/

/-- Files that do not see each other can be converted in any order, if none of them is over the
    digit limit: each has the result that it has in the order of the list, and the tree is the same
    in the end. So a pool of threads gives the results of one thread, and all its reports are the
    same: what is printed, and what becomes of the log files. -/
theorem convertAll_of_perm {tree : Tree} {directory : Path} {format : Format}
    {paths order : List Path} (all : Bool) (h : Run.Independent tree directory format paths)
    (hreturns : (Run.convertAll directory format false tree paths).overlong? = none)
    (hperm : order.Perm paths) :
    ((Run.convertAll directory format all tree order).results.map Prod.fst = order ∧
      (Run.convertAll directory format all tree order).results.Perm
        (Run.convertAll directory format false tree paths).results ∧
      Tree.Alike (Run.convertAll directory format all tree order).tree
        (Run.convertAll directory format false tree paths).tree) ∧
    (let pool := Run.pooled directory format tree order paths
      let batch := Run.convertAll directory format false tree paths
      pool.results = batch.results ∧
      Run.reportLines pool.failures = Run.reportLines batch.failures ∧
      Run.counts pool = Run.counts batch ∧
      Tree.Alike (Run.writeLogs directory pool.tree pool.failures).1
        (Run.writeLogs directory batch.tree batch.failures).1 ∧
      (Run.writeLogs directory pool.tree pool.failures).2 =
        (Run.writeLogs directory batch.tree batch.failures).2) := by
  have hreturns' : ∀ all, (Run.convertAll directory format all tree order).overlong? = none :=
    fun all => h.overlong?_of_perm hreturns hperm
  have hresults := h.results_eq hreturns
  have hresults' := fun all => (h.perm hperm).results_eq (hreturns' all)
  have hsame : ∀ all, (Run.convertAll directory format all tree order).results.Perm
      (Run.convertAll directory format false tree paths).results := by
    intro all
    rw [hresults, hresults' all]
    exact hperm.map _
  have htree : ∀ all, Tree.Alike (Run.convertAll directory format all tree order).tree
      (Run.convertAll directory format false tree paths).tree := by
    intro all
    obtain ⟨home, hhome⟩ := Tree.exists_directoryAt h.made
    have hwritten := (Run.converts_convertAll directory format false tree paths).written
    have hwritten' := (Run.converts_convertAll directory format all tree order).written
    refine ⟨hwritten'.grows.cwd.trans hwritten.grows.cwd.symm, ?_⟩
    refine hwritten.get?_perm hwritten' hhome (Run.nodup_exported ?_) ((hsame all).filterMap _)
    rw [hresults, List.map_map]
    exact h.names
  refine ⟨⟨Run.map_fst_convertAll (hreturns' all), hsame all, htree all⟩, ?_⟩
  intro pool batch
  have hpool : pool.results = batch.results :=
    (h.results_pooled (hreturns' true) hperm).trans hresults.symm
  have hfailures : pool.failures = batch.failures := by
    rw [Run.Batch.failures, hpool, Run.Batch.failures]
  have hcounts : Run.counts pool = Run.counts batch := by
    rw [Run.counts, Run.Batch.successes, hfailures, hpool, Run.counts, Run.Batch.successes]
  rw [hfailures]
  exact ⟨hpool, rfl, hcounts, Run.alike_writeLogs (htree true) directory batch.failures⟩

/-- Two feature files and a file without a feature; a directory stands in the place of the output of
    one of the feature files. -/
def blockedTree : Tree :=
  ⟨["out"],
    [(["in"], .directory), (["in", "x.feature"], .file (Utf8.encode "Feature: one\n")),
      (["in", "y.feature"], .file (Utf8.encode "Scenario: s\n")),
      (["in", "z.feature"], .file (Utf8.encode "Feature: two\n")), (["out"], .directory),
      (["out", "z.feature.json"], .directory)], true⟩

/-- A file of the tree, named from the root. -/
def blockedFile (name : String) : Path := ⟨.single, ["in", name]⟩

/-- The output of a file, named from the root. -/
def blockedOutput (name : String) : Path := ⟨.single, ["out", name]⟩

/-- The files of the tree. -/
def blockedFiles : List Path :=
  [blockedFile "x.feature", blockedFile "y.feature", blockedFile "z.feature"]

/-- The order in which a pool converts the files. -/
def blockedOrder : List Path :=
  [blockedFile "z.feature", blockedFile "x.feature", blockedFile "y.feature"]

/-- What comes of the files. -/
def blockedResults : List (Path × Conversion) :=
  [(blockedFile "x.feature", .converted (bareFeature "one") (blockedOutput "x.feature.json")),
    (blockedFile "y.feature", .failed none twinError),
    (blockedFile "z.feature", .failed (some (bareFeature "two"))
      (.file ⟨.isDirectory, blockedOutput "z.feature.json"⟩))]

theorem independent_blockedTree :
    Run.Independent blockedTree (Path.ofString "/out") .json blockedFiles where
  made := by decide +kernel
  files := by
    simp only [blockedFiles, List.forall_mem_cons]
    refine ⟨⟨["in", "x.feature"], _, ?_, rfl⟩, ⟨["in", "y.feature"], _, ?_, rfl⟩,
      ⟨["in", "z.feature"], _, ?_, rfl⟩, by simp⟩
    all_goals decide +kernel
  names := by decide +kernel
  outputs := by decide +kernel

/-- A file that is converted, one that cannot be read and one that cannot be written have the same
    results in another order. -/
theorem convertAll_blockedOrder :
    Run.Independent blockedTree (Path.ofString "/out") .json blockedFiles ∧
      blockedOrder.Perm blockedFiles ∧
      (Run.convertAll (Path.ofString "/out") .json true blockedTree blockedOrder).results.Perm
        blockedResults ∧
      (Run.pooled (Path.ofString "/out") .json blockedTree blockedOrder blockedFiles).results =
        blockedResults := by
  have hresults : (Run.convertAll (Path.ofString "/out") .json false blockedTree
      blockedFiles).results = blockedResults := by
    decide +kernel
  have hperm : blockedOrder.Perm blockedFiles := by decide +kernel
  have h := convertAll_of_perm true independent_blockedTree (by decide +kernel) hperm
  rw [hresults] at h
  exact ⟨independent_blockedTree, hperm, h.1.2.1, h.2.1⟩

end FeatureFile
