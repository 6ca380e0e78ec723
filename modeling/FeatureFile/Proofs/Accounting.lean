import FeatureFile.Proofs.Batch

set_option autoImplicit false

/-! # What a run accounts for

A run makes its output directory, converts what it finds, reports and counts, and each of these goes
through all files. If the run returns, every file that was found is converted or failed, so the two
numbers that are printed add up (`Run.Batch.successes_add_failures`), and the reports are those of
the failures, in the order in which the files were found.

What the run leaves in the tree is followed through its two parts: directories are made where
nothing stood, on the way of the output path (`Tree.Makes`), and files are written into the output
directory (`Tree.Written`). So nothing is touched but these directories, the outputs of converted
files and the log files of failures (`accounts_of_convert`). -/

namespace FeatureFile

/-! ## Numbers that are printed -/

namespace Escape

theorem readCommand?_eq_none {cs : List Char} (h : '\x1b' ∉ cs) : readCommand? cs = none := by
  unfold readCommand?
  split
  · simp at h
  · simp at h
  · rfl

theorem commands_eq_nil {cs : List Char} (h : '\x1b' ∉ cs) (place : Nat) :
    commands place 0 cs = [] := by
  induction cs generalizing place with
  | nil => rfl
  | cons c cs ih =>
    simp only [commands, readCommand?_eq_none h, ih (List.not_mem_of_not_mem_cons h)]

theorem sequenceLength?_eq_none {cs : List Char} (h : '\x1b' ∉ cs) : sequenceLength? cs = none := by
  unfold sequenceLength?
  split
  · simp at h
  · simp at h
  · rfl

theorem removeSequences_eq_self {cs : List Char} (h : '\x1b' ∉ cs) :
    removeSequences 0 cs = cs := by
  induction cs with
  | nil => rfl
  | cons c cs ih =>
    simp only [removeSequences, sequenceLength?_eq_none h, ih (List.not_mem_of_not_mem_cons h)]

/-- A text without escapes is printed as it is. -/
theorem strip?_eq_self {s : String} (h : '\x1b' ∉ s.toList) : strip? s = some s := by
  rw [strip?, removeCommands, commands_eq_nil h, List.foldl_nil, removeSequences_eq_self h,
    String.ofList_toList]
  rfl

end Escape

namespace Run

theorem strip?_number (label : String) (h : '\x1b' ∉ label.toList) (n : Nat) :
    Escape.strip? (label ++ toString n) = some (label ++ toString n) := by
  refine Escape.strip?_eq_self ?_
  rw [String.toList_append, List.mem_append, not_or]
  refine ⟨h, fun hdigit => ?_⟩
  simpa using Text.isDigit_of_mem_toString hdigit

theorem counts_eq (batch : Batch) :
    counts batch = "Successful parses: " ++ toString batch.successes ++ "\n" ++
      ("Failed parses: " ++ toString batch.failures.length ++ "\n") := by
  have hsuccesses := strip?_number "Successful parses: " (by decide) batch.successes
  have hfailures := strip?_number "Failed parses: " (by decide) batch.failures.length
  have hlines : counts batch = (printLines ["Successful parses: " ++ toString batch.successes,
      "Failed parses: " ++ toString batch.failures.length]).1 := rfl
  simp only [hlines, printLines, hsuccesses, hfailures, String.append_empty]

/-- Unless a file is over the digit limit, every file is converted or failed. -/
theorem Batch.successes_add_failures {batch : Batch} (h : batch.overlong? = none) :
    batch.successes + batch.failures.length = batch.results.length := by
  obtain ⟨results, tree⟩ := batch
  induction results with
  | nil => rfl
  | cons pair rest ih =>
    obtain ⟨path, result⟩ := pair
    cases result with
    | converted feature output =>
      have hrest := ih h
      simp only [successes, failures, List.filter_cons, List.filterMap_cons, if_true,
        List.length_cons] at hrest ⊢
      omega
    | failed feature error =>
      have hrest := ih h
      simp only [successes, failures, List.filter_cons, List.filterMap_cons, Bool.false_eq_true,
        if_false, List.length_cons] at hrest ⊢
      omega
    | overlong feature limit => simp [overlong?] at h

/-! ## Files that a run writes -/

section Writes

variable {options : Options} {time : String} {tree : Tree} {code : Nat} {location : Location}

/-- The files that a run writes: the outputs, and after them the log files. -/
def writes (options : Options) (tree : Tree) : List (String × List UInt8) :=
  (conversions options tree).results.filterMap (exported? options.format) ++
    (reported options tree .log).map logFile

theorem Returns.written (h : Returns options time tree code) :
    Tree.Written (Path.ofString options.output)
      (tree.makeDirectories (Path.ofString options.output)).1 (writes options tree)
      (convert options time tree).tree :=
  (converts_conversions options tree).written.append h.logs

/-- What is written has the name of an output, or that of a log file. -/
theorem writes_cases {write : String × List UInt8} (h : write ∈ writes options tree) :
    (∃ path feature output,
      (path, .converted feature output) ∈ (conversions options tree).results ∧
        write.1 = path.name ++ options.format.extension) ∨
    options.errorBehavior = .log ∧ ∃ path error,
      (path, error) ∈ (conversions options tree).failures ∧ write.1 = path.name ++ ".log" := by
  rcases List.mem_append.1 h with h | h
  · exact .inl (exists_of_exported h)
  · obtain ⟨⟨path, error⟩, hfailure, rfl⟩ := List.mem_map.1 h
    rw [reported] at hfailure
    split_ifs at hfailure with hbehavior
    · exact .inr ⟨hbehavior, path, error, hfailure, rfl⟩
    · simp at hfailure

theorem length_of_mem_writes {write : String × List UInt8} (h : write ∈ writes options tree) :
    2 < write.1.toList.length := by
  obtain ⟨path, feature, output, -, hname⟩ | ⟨-, path, error, -, hname⟩ := writes_cases h
  · rw [hname]
    exact length_output options.format path.name
  · rw [hname]
    exact length_log path.name

/-! ## Places that are touched -/

/-- The places that a run may touch: a directory on the way of the output path, where nothing stood;
    the output of a converted file; the log file of a failure, if failures have log files. -/
inductive Touched (options : Options) (tree final : Tree) (location : Location) : Prop where
  | directory {above : List String} (way : above <+: (Path.ofString options.output).names)
      (place : final.locate ⟨(Path.ofString options.output).root, above⟩ = .ok location)
      (free : tree.get? location = none) (made : final.get? location = some .directory)
  | output {path output : Path} {feature : Feature} {bytes : List UInt8}
      (converted : (path, .converted feature output) ∈ (conversions options tree).results)
      (place : final.locate (Conversion.outputPath path (Path.ofString options.output)
        options.format) = .ok location)
      (written : final.get? location = some (.file bytes))
  | log {path : Path} {error : ConversionError} {bytes : List UInt8}
      (behavior : options.errorBehavior = .log)
      (failed : (path, error) ∈ (conversions options tree).failures)
      (place : final.locate ((Path.ofString options.output).child (path.name ++ ".log")) =
        .ok location)
      (written : final.get? location = some (.file bytes))

theorem ne_of_mem_names_ofString {s name : String} (h : name ∈ (Path.ofString s).names) :
    ¬(name = "" ∨ name = ".") := by
  rw [not_or]
  simpa using (List.mem_filter.1 h).2

/-- A run changes nothing but the places that it may touch. -/
theorem Returns.touched_of_ne (h : Returns options time tree code)
    (hchanged : (convert options time tree).tree.get? location ≠ tree.get? location) :
    Touched options tree (convert options time tree).tree location := by
  have hmakes := tree.makes_makeDirectories (Path.ofString options.output)
  have hwritten := h.written
  generalize (convert options time tree).tree = final at hchanged hwritten ⊢
  by_cases hmade : final.get? location =
      (tree.makeDirectories (Path.ofString options.output)).1.get? location
  · -- nothing was written there, so a directory was made
    rw [hmade] at hchanged
    obtain ⟨hdirectory, above, name, home, hway, hup, hhome, rfl⟩ := hmakes.new location hchanged
    have hname : ¬(name = "" ∨ name = ".") := ne_of_mem_names_ofString (hway.subset (by simp))
    refine .directory hway ?_ ?_ (hmade.trans hdirectory)
    · exact Tree.locate_child_of_get? (hwritten.grows.directoryAt hhome) hname hup
        (hmade.trans hdirectory)
    · cases hentry : tree.get? (home ++ [name]) with
      | none => rfl
      | some entry => exact absurd ((hmakes.kept _ entry hentry).trans hentry.symm) hchanged
  · obtain ⟨write, hwrite, hplace, bytes, hfile⟩ :=
      hwritten.exists_of_ne (fun _ => length_of_mem_writes) hmade
    obtain ⟨path, feature, output, hmem, hname⟩ | ⟨hbehavior, path, error, hmem, hname⟩ :=
      writes_cases hwrite
    · rw [hname] at hplace
      exact .output hmem hplace hfile
    · rw [hname] at hplace
      exact .log hbehavior hmem hplace hfile

end Writes

end Run

/-! ## Runs that return -/

/-- A run that returns accounts for every file and touches nothing else. Every file that was found
    has its result, and the printed numbers of converted and failed files add up to the number of
    files found; the run returns 0 exactly if no file failed. The failures are reported in the order
    of the files, each by one line without its escape sequences, on the stream that is asked for and
    on no other one. The tree is changed only by directories on the way of the output path, outputs
    of converted files, and log files of failures if these are asked for. -/
theorem accounts_of_convert {options : Options} {time : String} {tree : Tree} {code : Nat}
    (h : (Run.convert options time tree).ending = .returned code) :
    let batch := Run.conversions options tree
    let files := (Run.found options tree).files
    (batch.results.map Prod.fst = files ∧
      batch.successes + batch.failures.length = files.length ∧
      code = if batch.failures.length = 0 then 0 else 1) ∧
    (∃ reports, Run.Prints (Run.reportLines (Run.reported options tree .stdout)) reports ∧
      (Run.convert options time tree).stdout =
        reports ++ ("Successful parses: " ++ toString batch.successes ++ "\n" ++
          ("Failed parses: " ++ toString batch.failures.length ++ "\n"))) ∧
    (∃ reports, Run.Prints (Run.reportLines (Run.reported options tree .stderr)) reports ∧
      (Run.convert options time tree).stderr = Run.told options time tree ++ reports) ∧
    ∀ location, (Run.convert options time tree).tree.get? location ≠ tree.get? location →
      Run.Touched options tree (Run.convert options time tree).tree location := by
  intro batch files
  have hreturns := Run.returns_of_convert h
  have hfiles : batch.results.map Prod.fst = files := Run.map_fst_convertAll hreturns.limit
  have hlength : batch.successes + batch.failures.length = files.length := by
    rw [Run.Batch.successes_add_failures hreturns.limit, ← hfiles, List.length_map]
  refine ⟨⟨hfiles, hlength, ?_⟩, ?_, hreturns.stderr, fun location => hreturns.touched_of_ne⟩
  · rw [hreturns.exit]
    exact if_congr List.length_eq_zero_iff.symm rfl rfl
  · rw [← Run.counts_eq]
    exact hreturns.stdout

/-- The lines that report the files of `twinTree` without a feature. -/
def twinReports : String :=
  "/in/a/y.feature:1\terror\texpected \"Feature:\", found \"Scenario: s\"\n" ++
    "/in/b/y.feature:1\terror\texpected \"Feature:\", found \"Scenario: s\"\n"

theorem printLines_twinTree :
    Run.printLines (Run.reportLines (Run.reported (twinOptions .stdout) twinTree .stdout)) =
      (twinReports, true) := by
  rw [reported_twinTree, failures_twinBatch]
  decide +kernel

theorem convert_reported_twinTree :
    (Run.convert (twinOptions .stdout) "" twinTree).ending = .returned 1 := by
  have hstderr : Run.reported (twinOptions .stdout) twinTree .stderr = [] := rfl
  have hlog : Run.reported (twinOptions .stdout) twinTree .log = [] := rfl
  rw [Run.convert_eq makeDirectories_twinTree (overlong_twinTree .stdout), hstderr, hlog,
    printLines_twinTree, conversions_twinTree, failures_twinBatch]
  rfl

/-- Two files are converted and two fail: the failures are reported in order, and all are
    counted. -/
theorem accounts_twinTree :
    (Run.convert (twinOptions .stdout) "" twinTree).ending = .returned 1 ∧
      (Run.convert (twinOptions .stdout) "" twinTree).stdout =
        twinReports ++ "Successful parses: 2\nFailed parses: 2\n" ∧
      ∀ location, (Run.convert (twinOptions .stdout) "" twinTree).tree.get? location ≠
        twinTree.get? location →
          Run.Touched (twinOptions .stdout) twinTree
            (Run.convert (twinOptions .stdout) "" twinTree).tree location := by
  obtain ⟨-, ⟨reports, hprints, hstdout⟩, -, htouched⟩ :=
    accounts_of_convert convert_reported_twinTree
  refine ⟨convert_reported_twinTree, ?_, htouched⟩
  have hreports : twinReports = reports :=
    congrArg Prod.fst (printLines_twinTree.symm.trans (Run.prints_iff.1 hprints))
  have hcounts : (("Successful parses: " ++ toString twinBatch.successes ++ "\n" ++
      ("Failed parses: " ++ toString twinBatch.failures.length ++ "\n")) =
        "Successful parses: 2\nFailed parses: 2\n") := by
    decide +kernel
  rw [hstdout, conversions_twinTree, hcounts, hreports]

end FeatureFile
