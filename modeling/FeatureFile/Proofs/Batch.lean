import FeatureFile.Cli.Run
import FeatureFile.Proofs.DigitLimit
import FeatureFile.Proofs.Margins
import FeatureFile.Proofs.Writes

set_option autoImplicit false

/-! # What is left of a batch

The files of a run are converted one after another, each in the tree that the conversions before it
left, and all of them write into one directory, under names made of the last names of their inputs.
So two things can come between a conversion and its output: a later file of the same name, which
takes the place of the output, and an earlier one that was written over the input. The second never
goes unnoticed, since an export is no feature file: what is converted is always a file as it was
when the run started.

`Run.returns_of_convert` says once what a run that returns has done: its conversions, what it
printed, and the log files. `outputs_kept_of_convert` says what this means for the outputs: an
output is in the end the export of its input unless a converted file of the same name came after it,
and likewise for the log files. -/

namespace FeatureFile

open Text

/-! ## Files that a run writes -/

/-- Bytes that a run writes: the export of a file that was read. -/
def IsExport (bytes : List UInt8) : Prop :=
  ∃ (source text : String) (feature : Feature) (format : Format), parse source = .ok feature ∧
    format.render feature = .ok text ∧ bytes = Utf8.encode text

/-- A file that was read is no export. -/
theorem not_isExport_of_parse {bytes : List UInt8} {source : String} {feature : Feature}
    (hsource : Utf8.decode bytes = .ok source)
    (hparse : parse (unifyBreaks source) = .ok feature) : ¬IsExport bytes := by
  rintro ⟨origin, text, exported, format, horigin, htext, rfl⟩
  rw [Utf8.decode_encode] at hsource
  cases hsource
  exact parse_render_ne_ok horigin htext feature hparse

namespace Run

section Batches

variable {directory : Path} {format : Format} {tree mid after : Tree}
  {results more : List (Path × Conversion)}

/-! ## Batches -/

/-- Files are converted one after another, each in the tree that those before it left. -/
inductive Converts (directory : Path) (format : Format) :
    Tree → List (Path × Conversion) → Tree → Prop where
  | nil (tree : Tree) : Converts directory format tree [] tree
  | cons {tree mid after : Tree} {path : Path} {result : Conversion}
      {rest : List (Path × Conversion)}
      (run : Conversion.Runs tree path directory format result mid)
      (more : Converts directory format mid rest after) :
      Converts directory format tree ((path, result) :: rest) after

theorem converts_convertAll (directory : Path) (format : Format) (all : Bool) (tree : Tree)
    (paths : List Path) :
    Converts directory format tree (convertAll directory format all tree paths).results
      (convertAll directory format all tree paths).tree := by
  induction paths generalizing tree with
  | nil => exact .nil tree
  | cons path rest ih =>
    have hruns := Conversion.runs_run tree path directory format
    rw [convertAll]
    generalize Conversion.run tree path directory format = result at hruns
    obtain ⟨result, mid⟩ := result
    cases result with
    | converted feature output => exact .cons hruns (ih mid)
    | failed feature error => exact .cons hruns (ih mid)
    | overlong feature limit =>
      cases all with
      | true => exact .cons hruns (ih mid)
      | false => exact .cons hruns (.nil mid)

/-- Files are converted in order, up to a file over the digit limit. -/
theorem isPrefix_map_fst_convertAll (directory : Path) (format : Format) (all : Bool) (tree : Tree)
    (paths : List Path) :
    (convertAll directory format all tree paths).results.map Prod.fst <+: paths := by
  induction paths generalizing tree with
  | nil => exact List.prefix_rfl
  | cons path rest ih =>
    rw [convertAll]
    rcases Conversion.run tree path directory format with ⟨result, mid⟩
    cases result with
    | converted feature output => exact List.cons_prefix_cons.2 ⟨rfl, ih mid⟩
    | failed feature error => exact List.cons_prefix_cons.2 ⟨rfl, ih mid⟩
    | overlong feature limit =>
      cases all with
      | true => exact List.cons_prefix_cons.2 ⟨rfl, ih mid⟩
      | false => exact List.cons_prefix_cons.2 ⟨rfl, List.nil_prefix⟩

/-- Unless a file is over the digit limit, every file has its result. -/
theorem map_fst_convertAll {all : Bool} {paths : List Path}
    (h : (convertAll directory format all tree paths).overlong? = none) :
    (convertAll directory format all tree paths).results.map Prod.fst = paths := by
  induction paths generalizing tree with
  | nil => rfl
  | cons path rest ih =>
    rw [convertAll] at h ⊢
    rcases hrun : Conversion.run tree path directory format with ⟨result, mid⟩
    rw [hrun] at h
    cases result with
    | converted feature output => exact congrArg (path :: ·) (ih h)
    | failed feature error => exact congrArg (path :: ·) (ih h)
    | overlong feature limit => cases all <;> simp [Batch.overlong?] at h

theorem Batch.overlong?_eq_none_iff {batch : Batch} : batch.overlong? = none ↔
    ∀ path feature limit, (path, .overlong feature limit) ∉ batch.results := by
  rw [Batch.overlong?, List.findSome?_eq_none_iff]
  constructor
  · intro h path feature limit hmem
    simpa using h _ hmem
  · rintro h ⟨path, result⟩ hmem
    cases result with
    | converted feature output => rfl
    | failed feature error => rfl
    | overlong feature limit => exact absurd hmem (h path feature limit)

theorem Converts.exists_mid (h : Converts directory format tree (results ++ more) after) :
    ∃ mid, Converts directory format tree results mid ∧
      Converts directory format mid more after := by
  induction results generalizing tree with
  | nil => exact ⟨tree, .nil tree, h⟩
  | cons head rest ih =>
    cases h with
    | cons run hrest =>
      obtain ⟨mid, hbefore, hafter⟩ := ih hrest
      exact ⟨mid, .cons run hbefore, hafter⟩

/-- The file that a conversion writes: its name and contents. -/
def exported? (format : Format) : Path × Conversion → Option (String × List UInt8)
  | (path, .converted feature _) =>
    match format.render feature with
    | .ok text => some (path.name ++ format.extension, Utf8.encode text)
    | .error _ => none
  | _ => none

/-- A batch writes the exports of its converted files, in their order. -/
theorem Converts.written (h : Converts directory format tree results after) :
    Tree.Written directory tree (results.filterMap (exported? format)) after := by
  induction h with
  | nil tree => exact .nil tree
  | cons run _ ih =>
    cases run with
    | unread read => exact ih
    | overlong read render => exact ih
    | unwritten read render write => exact ih
    | converted read render write =>
      simp only [List.filterMap_cons, exported?, render]
      exact .cons write ih

theorem Converts.isExport (h : Converts directory format tree results after) :
    ∀ write ∈ results.filterMap (exported? format), IsExport write.2 := by
  induction h with
  | nil tree => simp
  | cons run _ ih =>
    cases run with
    | unread read => exact ih
    | overlong read render => exact ih
    | unwritten read render write => exact ih
    | converted read render write =>
      obtain ⟨location, bytes, source, -, -, -, hparse⟩ := readFeature_eq_ok_iff.1 read
      simp only [List.filterMap_cons, exported?, render, List.forall_mem_cons]
      exact ⟨⟨_, _, _, format, hparse, render, rfl⟩, ih⟩

/-- What is converted is a file as it was before the batch. -/
theorem Converts.readFeature_cases {path : Path} {feature : Feature}
    (h : Converts directory format tree results mid)
    (hread : Conversion.readFeature mid path = .ok feature) :
    ∃ location bytes source, mid.locate path = .ok location ∧
      tree.get? location = some (.file bytes) ∧ Utf8.decode bytes = .ok source ∧
      parse (unifyBreaks source) = .ok feature := by
  obtain ⟨location, bytes, source, hlocation, hfile, hsource, hparse⟩ :=
    readFeature_eq_ok_iff.1 hread
  refine ⟨location, bytes, source, hlocation, ?_, hsource, hparse⟩
  obtain hfile | ⟨name, hwrite⟩ := h.written.file_cases hfile
  · exact hfile
  · exact absurd (h.isExport _ hwrite) (not_isExport_of_parse hsource hparse)

end Batches

/-! ## Log files -/

/-- The log file of a failure: its name and contents. -/
def logFile (failure : Path × ConversionError) : String × List UInt8 :=
  (failure.1.name ++ ".log", Utf8.encode (Report.log failure.1 failure.2.problem))

theorem written_writeLogs {directory : Path} {tree after : Tree}
    {failures : List (Path × ConversionError)}
    (h : writeLogs directory tree failures = (after, none)) :
    Tree.Written directory tree (failures.map logFile) after := by
  induction failures generalizing tree with
  | nil =>
    cases h
    exact .nil _
  | cons failure rest ih =>
    obtain ⟨path, error⟩ := failure
    rw [writeLogs] at h
    split at h
    · next written hwrite => exact .cons hwrite (ih h)
    · simp at h

/-! ## Printing -/

/-- Lines are printed, all of them, each without its escape sequences. -/
def Prints (lines : List String) (text : String) : Prop :=
  ∃ printed, lines.mapM Escape.strip? = some printed ∧
    text = String.join (printed.map (· ++ "\n"))

theorem prints_cons_iff {line text : String} {rest : List String} :
    Prints (line :: rest) text ↔
      ∃ printed more, Escape.strip? line = some printed ∧ Prints rest more ∧
        text = printed ++ "\n" ++ more := by
  simp only [Prints, List.mapM_cons, Option.bind_eq_bind, Option.pure_def, Option.bind_eq_some_iff,
    Option.some.injEq]
  constructor
  · rintro ⟨_, ⟨printed, hline, others, hrest, rfl⟩, rfl⟩
    exact ⟨printed, _, hline, ⟨others, hrest, rfl⟩, by simp⟩
  · rintro ⟨printed, _, hline, ⟨others, hrest, rfl⟩, rfl⟩
    exact ⟨printed :: others, ⟨printed, hline, others, hrest, rfl⟩, by simp⟩

/-- All lines are printed if none of them cannot be. -/
theorem prints_iff {lines : List String} {text : String} :
    Prints lines text ↔ printLines lines = (text, true) := by
  induction lines generalizing text with
  | nil => simp [Prints, printLines, eq_comm]
  | cons line rest ih =>
    rw [prints_cons_iff, printLines]
    cases Escape.strip? line with
    | none => simp
    | some printed =>
      simp only [Option.some.injEq, ih, Prod.ext_iff]
      constructor
      · rintro ⟨_, more, rfl, ⟨rfl, hall⟩, rfl⟩
        exact ⟨rfl, hall⟩
      · rintro ⟨rfl, hall⟩
        exact ⟨printed, _, rfl, ⟨rfl, hall⟩, rfl⟩

/-! ## Runs -/

section Returning

variable (options : Options) (time : String) (tree : Tree)

/-- What a run finds, in the tree with the output directory. -/
def found : Found :=
  (tree.makeDirectories (Path.ofString options.output)).1.findFeatureFiles options.pattern

/-- The conversions of a run, in the tree with the output directory. -/
def conversions : Batch :=
  convertAll (Path.ofString options.output) options.format (decide (1 < options.jobs))
    (tree.makeDirectories (Path.ofString options.output)).1 (found options tree).files

/-- What a run tells before it reports. -/
def told : String :=
  loggerNotices options.silenced ++ showRecords ⟨options.verbose, options.silenced⟩ time
    (searchRecords options (Path.ofString options.output) (found options tree) ++
      (conversions options tree).records)

/-- The failures that are reported in the given way. -/
def reported (behavior : ErrorBehavior) : List (Path × ConversionError) :=
  if options.errorBehavior = behavior then (conversions options tree).failures else []

/-- What a run that returns has done. -/
structure Returns (code : Nat) : Prop where
  limit : (conversions options tree).overlong? = none
  exit : code = if (conversions options tree).failures = [] then 0 else 1
  stdout : ∃ reports, Prints (reportLines (reported options tree .stdout)) reports ∧
    (convert options time tree).stdout = reports ++ counts (conversions options tree)
  stderr : ∃ reports, Prints (reportLines (reported options tree .stderr)) reports ∧
    (convert options time tree).stderr = told options time tree ++ reports
  logs : Tree.Written (Path.ofString options.output) (conversions options tree).tree
    ((reported options tree .log).map logFile) (convert options time tree).tree

end Returning

section Runs

variable {options : Options} {time : String} {tree made written : Tree} {code : Nat}

/-- How a run goes on that has its output directory and no file over the digit limit. -/
theorem convert_eq
    (hmade : tree.makeDirectories (Path.ofString options.output) = (made, none))
    (hlimit : (conversions options tree).overlong? = none) :
    convert options time tree =
      let out := printLines (reportLines (reported options tree .stdout))
      let err := printLines (reportLines (reported options tree .stderr))
      if out.2 ∧ err.2 then
        match writeLogs (Path.ofString options.output) (conversions options tree).tree
          (reported options tree .log) with
        | (written, some error) => ⟨.aborted (.file error), "", told options time tree, written⟩
        | (written, none) =>
          ⟨.returned (if (conversions options tree).failures = [] then 0 else 1),
            out.1 ++ counts (conversions options tree), told options time tree ++ err.1, written⟩
      else
        ⟨.noWindow, out.1, told options time tree ++ err.1, (conversions options tree).tree⟩ := by
  have hfound : found options tree = made.findFeatureFiles options.pattern := by
    simp only [found, hmade]
  have hconversions : conversions options tree = convertAll (Path.ofString options.output)
      options.format (decide (1 < options.jobs)) made (found options tree).files := by
    simp only [conversions, hmade]
  simp only [convert, hmade, ← hfound, ← hconversions, hlimit]
  have hnone : printLines (reportLines []) = ("", true) := rfl
  cases hbehavior : options.errorBehavior with
  | silent => simp [reported, hbehavior, told, writeLogs, hnone]
  | stdout => simp [reported, hbehavior, told, writeLogs, hnone]
  | stderr => simp [reported, hbehavior, told, writeLogs, hnone]
  | log =>
    cases hlogs : writeLogs (Path.ofString options.output) (conversions options tree).tree
        (conversions options tree).failures with
    | mk written fault => cases fault <;> simp [reported, hbehavior, told, hnone, hlogs]

/-- A run that returns has its output directory and no file over the digit limit. -/
theorem exists_made_of_convert (h : (convert options time tree).ending = .returned code) :
    ∃ made, tree.makeDirectories (Path.ofString options.output) = (made, none) ∧
      (conversions options tree).overlong? = none := by
  cases hmade : tree.makeDirectories (Path.ofString options.output) with
  | mk made fault =>
    cases fault with
    | some error => simp [convert, hmade] at h
    | none =>
      refine ⟨made, rfl, ?_⟩
      cases hlimit : (conversions options tree).overlong? with
      | none => rfl
      | some limit =>
        simp only [conversions, found, hmade] at hlimit
        simp [convert, hmade, hlimit] at h

/-- A run that returns is its conversions, and after that the reports. -/
theorem returns_of_convert (h : (convert options time tree).ending = .returned code) :
    Returns options time tree code := by
  obtain ⟨made, hmade, hlimit⟩ := exists_made_of_convert h
  have hconvert : convert options time tree = _ := convert_eq hmade hlimit
  by_cases hprinted : (printLines (reportLines (reported options tree .stdout))).2 ∧
      (printLines (reportLines (reported options tree .stderr))).2
  · simp only [if_pos hprinted] at hconvert
    have hstdout := prints_iff.2 (Prod.ext rfl hprinted.1)
    have hstderr := prints_iff.2 (Prod.ext rfl hprinted.2)
    cases hlogs : writeLogs (Path.ofString options.output) (conversions options tree).tree
        (reported options tree .log) with
    | mk written fault =>
      rw [hlogs] at hconvert
      cases fault with
      | some error => simp [hconvert] at h
      | none =>
        rw [hconvert] at h
        cases h
        refine ⟨hlimit, rfl, ⟨_, hstdout, ?_⟩, ⟨_, hstderr, ?_⟩, ?_⟩
        · rw [hconvert]
        · rw [hconvert]
        · rw [hconvert]
          exact written_writeLogs hlogs
  · simp only [if_neg hprinted] at hconvert
    simp [hconvert] at h

/-- A run converts its files in the tree with the output directory. -/
theorem converts_conversions (options : Options) (tree : Tree) :
    Converts (Path.ofString options.output) options.format
      (tree.makeDirectories (Path.ofString options.output)).1 (conversions options tree).results
      (conversions options tree).tree :=
  converts_convertAll _ _ _ _ _

end Runs

/-! ## Names of outputs -/

section Names

variable {format : Format} {name other : String}

theorem length_output (format : Format) (name : String) :
    2 < (name ++ format.extension).toList.length := by
  cases format <;> simp [Format.extension]

theorem length_log (name : String) : 2 < (name ++ ".log").toList.length := by
  simp

theorem append_ne_append {suffix : String} (h : name ≠ other) :
    name ++ suffix ≠ other ++ suffix := by
  intro heq
  have hchars := congrArg String.toList heq
  rw [String.toList_append, String.toList_append] at hchars
  exact h (String.toList_injective (List.append_cancel_right hchars))

/-- A log file takes the place of no output. -/
theorem log_ne_output (format : Format) (name other : String) :
    other ++ ".log" ≠ name ++ format.extension := by
  intro heq
  have hlast := congrArg (fun s => s.toList.getLast?) heq
  cases format <;> simp [Format.extension] at hlast

end Names

theorem converted_of_exported {format : Format} {path : Path} {result : Conversion}
    {write : String × List UInt8} (h : exported? format (path, result) = some write) :
    (∃ feature output, result = .converted feature output) ∧
      write.1 = path.name ++ format.extension := by
  cases result with
  | converted feature output =>
    simp only [exported?] at h
    split at h
    · cases h
      exact ⟨⟨feature, output, rfl⟩, rfl⟩
    · simp at h
  | failed feature error => simp [exported?] at h
  | overlong feature limit => simp [exported?] at h

/-- The names of exports are those of converted files. -/
theorem exists_of_exported {format : Format} {results : List (Path × Conversion)}
    {write : String × List UInt8} (h : write ∈ results.filterMap (exported? format)) :
    ∃ path feature output, (path, .converted feature output) ∈ results ∧
      write.1 = path.name ++ format.extension := by
  obtain ⟨⟨path, result⟩, hmem, hsome⟩ := List.mem_filterMap.1 h
  obtain ⟨⟨feature, output, rfl⟩, hname⟩ := converted_of_exported hsome
  exact ⟨path, feature, output, hmem, hname⟩

/-- The output of a converted file is the export of what the file held before the batch, unless a
    converted file of the same name came after it; other files may be written later on. -/
theorem Converts.exists_export {directory path output : Path} {format : Format}
    {tree after final : Tree} {before rest : List (Path × Conversion)} {feature : Feature}
    {writes : List (String × List UInt8)}
    (h : Converts directory format tree (before ++ (path, .converted feature output) :: rest) after)
    (hfinal : Tree.Written directory after writes final)
    (hrest : ∀ other found written, (other, .converted found written) ∈ rest →
      other.name ≠ path.name)
    (hwrites : ∀ write ∈ writes, write.1 ≠ path.name ++ format.extension) :
    ∃ location bytes source text, final.locate path = .ok location ∧
      tree.get? location = some (.file bytes) ∧ Utf8.decode bytes = .ok source ∧
      parse (unifyBreaks source) = .ok feature ∧ format.render feature = .ok text ∧
      final.readFile output = .ok (Utf8.encode text) := by
  obtain ⟨mid, hbefore, hrun⟩ := h.exists_mid
  cases hrun with
  | cons run hafter =>
    cases run with
    | @converted _ text _ read render write =>
      have hlater : Tree.Written directory mid _ final :=
        (Tree.Written.cons write hafter.written).append hfinal
      obtain ⟨location, bytes, source, hlocation, hfile, hsource, hparse⟩ :=
        hbefore.readFeature_cases read
      refine ⟨location, bytes, source, text, hlater.grows.locate hlocation, hfile, hsource, hparse,
        render, ?_⟩
      refine (hbefore.written.append hlater).readFile_last (length_output format path.name) ?_
      intro other hother
      rcases List.mem_append.1 hother with hother | hother
      · obtain ⟨path', found, written, hmem, hname⟩ := exists_of_exported hother
        rw [hname]
        exact append_ne_append (hrest path' found written hmem)
      · exact hwrites other hother

end Run

/-! ## Outputs -/

/-- In a run that returns, the output of a converted file is, in the end, the export of that file as
    it was when the run started, unless a converted file of the same name came after it; and the log
    file of a failed file holds the report of its own error, unless a failed file of the same name
    came after it. The files come in the order in which they were found, as they do with one job. -/
theorem outputs_kept_of_convert {options : Options} {time : String} {tree : Tree} {code : Nat}
    (h : (Run.convert options time tree).ending = .returned code) :
    (∀ before path feature output after,
      (Run.conversions options tree).results =
        before ++ (path, .converted feature output) :: after →
      (∀ other found written, (other, .converted found written) ∈ after →
        other.name ≠ path.name) →
      ∃ location bytes source text,
        (Run.convert options time tree).tree.locate path = .ok location ∧
        tree.get? location = some (.file bytes) ∧ Utf8.decode bytes = .ok source ∧
        parse (unifyBreaks source) = .ok feature ∧ options.format.render feature = .ok text ∧
        (Run.convert options time tree).tree.readFile output = .ok (Utf8.encode text)) ∧
    (options.errorBehavior = .log → ∀ before path error after,
      (Run.conversions options tree).failures = before ++ (path, error) :: after →
      (∀ other ∈ after, other.1.name ≠ path.name) →
      (Run.convert options time tree).tree.readFile
        ((Path.ofString options.output).child (path.name ++ ".log")) =
          .ok (Utf8.encode (Report.log path error.problem))) := by
  have hlogs := (Run.returns_of_convert h).logs
  generalize (Run.convert options time tree).tree = final at hlogs ⊢
  constructor
  · intro before path feature output after hresults hlast
    have hconverts := Run.converts_conversions options tree
    rw [hresults] at hconverts
    have hnames : ∀ write ∈ (Run.reported options tree .log).map Run.logFile,
        write.1 ≠ path.name ++ options.format.extension := by
      intro write hwrite
      obtain ⟨failure, -, rfl⟩ := List.mem_map.1 hwrite
      exact Run.log_ne_output _ _ _
    obtain ⟨location, bytes, source, text, hlocation, hfile, hrest⟩ :=
      hconverts.exists_export hlogs hlast hnames
    exact ⟨location, bytes, source, text, hlocation, Tree.file_of_makeDirectories.1 hfile, hrest⟩
  · intro hbehavior before path error after hfailures hlast
    rw [Run.reported, if_pos hbehavior, hfailures, List.map_append, List.map_cons] at hlogs
    refine hlogs.readFile_last (Run.length_log _) fun write hwrite => ?_
    obtain ⟨other, hother, rfl⟩ := List.mem_map.1 hwrite
    exact Run.append_ne_append (hlast other hother)

/-! ## Files of one name -/

/-- Two directories with files of the same names, a feature file and a file without a feature. They
    are beside the working directory. -/
def twinTree : Tree :=
  ⟨["work"], [(["work"], .directory), (["in"], .directory), (["in", "a"], .directory),
    (["in", "a", "x.feature"], .file (Utf8.encode "Feature: one\n")),
    (["in", "a", "y.feature"], .file (Utf8.encode "Scenario: s\n")), (["in", "b"], .directory),
    (["in", "b", "x.feature"], .file (Utf8.encode "Feature: two\n")),
    (["in", "b", "y.feature"], .file (Utf8.encode "Scenario: s\n"))], true⟩

/-- The input is named from the root, the output directory from the working directory. -/
def twinOptions (behavior : ErrorBehavior) : Options :=
  ⟨"/in", "out", .json, behavior, 1, false, []⟩

/-- The tree with the output directory. -/
def twinMade : Tree :=
  { twinTree with entries := twinTree.entries ++ [(["work", "out"], .directory)] }

/-- A file of one of the two directories. -/
def twinFile (directory name : String) : Path := ⟨.single, ["in", directory, name]⟩

/-- The files of the tree, in the order in which they are converted. -/
def twinFiles : List Path :=
  [twinFile "a" "x.feature", twinFile "a" "y.feature", twinFile "b" "x.feature",
    twinFile "b" "y.feature"]

/-- The output of both feature files. -/
def twinOutput : Path := ⟨.relative, ["out", "x.feature.json"]⟩

/-- The log file of both files without a feature. -/
def twinLog : Path := ⟨.relative, ["out", "y.feature.log"]⟩

/-- A feature of nothing but a name. -/
def bareFeature (name : String) : Feature := ⟨name, .empty, [], none, []⟩

/-- What is wrong with the files without a feature. -/
def twinError : ConversionError :=
  .document ⟨.expectedFeature (some "Scenario: s"), some 1, []⟩

/-- What comes of the files. -/
def twinResults : List (Path × Conversion) :=
  [(twinFile "a" "x.feature", .converted (bareFeature "one") twinOutput),
    (twinFile "a" "y.feature", .failed none twinError),
    (twinFile "b" "x.feature", .converted (bareFeature "two") twinOutput),
    (twinFile "b" "y.feature", .failed none twinError)]

/-- The conversion of the files. -/
def twinBatch : Run.Batch := Run.convertAll (Path.ofString "out") .json false twinMade twinFiles

theorem makeDirectories_twinTree :
    twinTree.makeDirectories (Path.ofString "out") = (twinMade, none) := by
  decide +kernel

theorem files_twinMade : (twinMade.findFeatureFiles "/in").files = twinFiles := by
  have hlocate : twinMade.locate (Path.ofString "/in") = .ok ["in"] := by decide +kernel
  unfold Tree.findFeatureFiles Tree.featureFilesBelow
  rw [if_pos (by decide +kernel)]
  simp only [hlocate]
  -- the sort does not compute, but the names are in order already
  rw [List.mergeSort_of_pairwise (by decide +kernel)]
  decide +kernel

theorem conversions_twinTree (behavior : ErrorBehavior) :
    Run.conversions (twinOptions behavior) twinTree = twinBatch := by
  show Run.convertAll (Path.ofString "out") .json false
    (twinTree.makeDirectories (Path.ofString "out")).1
    ((twinTree.makeDirectories (Path.ofString "out")).1.findFeatureFiles "/in").files = twinBatch
  rw [makeDirectories_twinTree, files_twinMade]
  rfl

theorem results_twinBatch : twinBatch.results = twinResults := by
  decide +kernel

theorem failures_twinBatch : twinBatch.failures =
    [(twinFile "a" "y.feature", twinError), (twinFile "b" "y.feature", twinError)] := by
  rw [Run.Batch.failures, results_twinBatch]
  rfl

theorem reported_twinTree (behavior : ErrorBehavior) :
    Run.reported (twinOptions behavior) twinTree behavior = twinBatch.failures := by
  rw [Run.reported, conversions_twinTree]
  exact if_pos rfl

theorem overlong_twinTree (behavior : ErrorBehavior) :
    (Run.conversions (twinOptions behavior) twinTree).overlong? = none := by
  rw [conversions_twinTree, Run.Batch.overlong?, results_twinBatch]
  rfl

theorem convert_twinTree :
    (Run.convert (twinOptions .log) "" twinTree).ending = .returned 1 ∧
      (Run.convert (twinOptions .log) "" twinTree).tree =
        (Run.writeLogs (Path.ofString "out") twinBatch.tree twinBatch.failures).1 := by
  have hlogs : Run.writeLogs (Path.ofString "out") twinBatch.tree twinBatch.failures =
      ((Run.writeLogs (Path.ofString "out") twinBatch.tree twinBatch.failures).1, none) :=
    Prod.ext rfl (by decide +kernel)
  have hnone : ∀ behavior, behavior ≠ .log →
      Run.reported (twinOptions .log) twinTree behavior = [] :=
    fun behavior hne => if_neg hne.symm
  rw [Run.convert_eq makeDirectories_twinTree (overlong_twinTree .log), reported_twinTree,
    hnone .stdout (by decide), hnone .stderr (by decide), conversions_twinTree]
  have hprinted : Run.printLines (Run.reportLines []) = ("", true) := rfl
  simp only [hprinted, and_self, if_true]
  have hdirectory : Path.ofString (twinOptions .log).output = Path.ofString "out" := rfl
  rw [hdirectory, hlogs, failures_twinBatch]
  exact ⟨rfl, rfl⟩

/-- What is kept are the output and the log file of the files that came last. -/
theorem outputs_kept_twinTree :
    (Run.convert (twinOptions .log) "" twinTree).ending = .returned 1 ∧
      (∃ location bytes source text,
        (Run.convert (twinOptions .log) "" twinTree).tree.locate (twinFile "b" "x.feature") =
          .ok location ∧
        twinTree.get? location = some (.file bytes) ∧ Utf8.decode bytes = .ok source ∧
        parse (unifyBreaks source) = .ok (bareFeature "two") ∧
        Format.json.render (bareFeature "two") = .ok text ∧
        (Run.convert (twinOptions .log) "" twinTree).tree.readFile twinOutput =
          .ok (Utf8.encode text)) ∧
      (Run.convert (twinOptions .log) "" twinTree).tree.readFile twinLog =
        .ok (Utf8.encode
          "Error parsing /in/b/y.feature:\nexpected \"Feature:\", found \"Scenario: s\"") := by
  have h := outputs_kept_of_convert convert_twinTree.1
  refine ⟨convert_twinTree.1, ?_, ?_⟩
  · have hresults : (Run.conversions (twinOptions .log) twinTree).results = twinResults := by
      rw [conversions_twinTree, results_twinBatch]
    exact h.1 [_, _] _ _ twinOutput [_] hresults (by simp)
  · have htext : Report.log (twinFile "b" "y.feature") twinError.problem =
        "Error parsing /in/b/y.feature:\nexpected \"Feature:\", found \"Scenario: s\"" := by
      decide +kernel
    rw [← htext]
    refine h.2 rfl [(twinFile "a" "y.feature", twinError)] (twinFile "b" "y.feature") twinError []
      ?_ (by simp)
    rw [conversions_twinTree, failures_twinBatch]
    rfl

/-- The output and the log file of the files that came first are lost. -/
theorem output_lost_twinTree :
    (Run.convert (twinOptions .log) "" twinTree).ending = .returned 1 ∧
      (¬∀ path feature output,
        (path, .converted feature output) ∈ (Run.conversions (twinOptions .log) twinTree).results →
        ∃ text, Format.json.render feature = .ok text ∧
          (Run.convert (twinOptions .log) "" twinTree).tree.readFile output =
            .ok (Utf8.encode text)) ∧
      ¬∀ path error, (path, error) ∈ (Run.conversions (twinOptions .log) twinTree).failures →
        (Run.convert (twinOptions .log) "" twinTree).tree.readFile
          ((Path.ofString "out").child (path.name ++ ".log")) =
            .ok (Utf8.encode (Report.log path error.problem)) := by
  rw [conversions_twinTree, results_twinBatch, failures_twinBatch]
  refine ⟨convert_twinTree.1, fun hall => ?_, fun hall => ?_⟩
  · obtain ⟨text, hrender, hread⟩ :=
      hall (twinFile "a" "x.feature") (bareFeature "one") twinOutput (by simp [twinResults])
    have hlost : (Format.json.render (bareFeature "one")).toOption.map Utf8.encode ≠
        ((Run.writeLogs (Path.ofString "out") twinBatch.tree twinBatch.failures).1.readFile
          twinOutput).toOption := by
      decide +kernel
    rw [convert_twinTree.2] at hread
    rw [hrender, hread] at hlost
    exact hlost rfl
  · have hread := hall (twinFile "a" "y.feature") twinError (by simp)
    have hlost : ((Run.writeLogs (Path.ofString "out") twinBatch.tree twinBatch.failures).1.readFile
        twinLog).toOption ≠
          some (Utf8.encode (Report.log (twinFile "a" "y.feature") twinError.problem)) := by
      decide +kernel
    rw [convert_twinTree.2] at hread
    exact hlost (congrArg Except.toOption hread)

end FeatureFile
