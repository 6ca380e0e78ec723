import FeatureFile.Proofs.Batch

set_option autoImplicit false

/-! # A conversion does everything or nothing

A conversion that comes to an output has read a file of UTF-8 text, parsed it, and put the whole
export into one file (`Conversion.Exported`). Whatever else comes of it, the tree is the one it
started from, with the output of an earlier run (`Conversion.exported_or_unchanged`). There is an
output exactly when the input can be read and exported and nothing blocks the place of the output
(`Conversion.Convertible`). -/

namespace FeatureFile

open Text

namespace Conversion

/-- What a conversion has done that came to an output. -/
structure Exported (tree : Tree) (path directory : Path) (format : Format) (feature : Feature)
    (output : Path) (after : Tree) : Prop where
  /-- The file at the path is UTF-8 text, and the text is that of the feature. -/
  input : ∃ source, tree.readFile path = .ok (Utf8.encode source) ∧
    parse (unifyBreaks source) = .ok feature
  place : output = directory.child (path.name ++ format.extension)
  /-- The output holds the export, all of it and nothing else. -/
  contents : ∃ text, format.render feature = .ok text ∧
    after.readFile output = .ok (Utf8.encode text)
  /-- Every location but that of the output is as before. -/
  others : ∃ target, after.locate output = .ok target ∧
    ∀ location, location ≠ target → after.get? location = tree.get? location

/-- When a conversion comes to an output. -/
structure Convertible (tree : Tree) (path directory : Path) (format : Format) : Prop where
  input : ∃ source feature, tree.readFile path = .ok (Utf8.encode source) ∧
    parse (unifyBreaks source) = .ok feature ∧ ¬feature.Overlong
  /-- The directory is there, and nothing but a file stands where the output goes. -/
  free : ∃ home, tree.directoryAt directory = .ok home ∧
    ∀ entry, tree.get? (home ++ [path.name ++ format.extension]) = some entry →
      ∃ bytes, entry = .file bytes

section Conversions

variable {tree after : Tree} {path directory output : Path} {format : Format} {feature : Feature}
  {result : Conversion}

/-- A feature is read from UTF-8 text, and from nothing else. -/
theorem readFeature_eq_ok_iff_encode : readFeature tree path = .ok feature ↔
    ∃ source, tree.readFile path = .ok (Utf8.encode source) ∧
      parse (unifyBreaks source) = .ok feature := by
  rw [readFeature_eq_ok_iff]
  constructor
  · rintro ⟨location, bytes, source, hlocation, hfile, hsource, hparse⟩
    obtain rfl := Utf8.decode_eq_ok_iff.1 hsource
    exact ⟨source, readFile_eq_ok_iff.2 ⟨location, hlocation, hfile⟩, hparse⟩
  · rintro ⟨source, hfile, hparse⟩
    obtain ⟨location, hlocation, hfile⟩ := readFile_eq_ok_iff.1 hfile
    exact ⟨location, _, source, hlocation, hfile, Utf8.decode_encode source, hparse⟩

/-- What is written can be read, and nothing else is touched. -/
theorem exported_of_runs (h : Runs tree path directory format (.converted feature output) after) :
    Exported tree path directory format feature output after := by
  cases h with
  | @converted _ text _ read render write =>
    have hlater := Tree.grows_of_writeFile write
    obtain ⟨home, hhome, -, -, rfl⟩ := Tree.writeFile_child_eq_ok_iff.1 write
    have hput := tree.get?_put (List.append_ne_nil_of_right_ne_nil home (List.cons_ne_nil
      (path.name ++ format.extension) [])) (.file (Utf8.encode text))
    have hhome' := hlater.directoryAt hhome
    have hname := Run.length_output format path.name
    have hfile := (hput _).trans (if_pos rfl)
    refine ⟨readFeature_eq_ok_iff_encode.1 read, rfl,
      ⟨text, render, Tree.readFile_child hhome' hname hfile⟩,
      ⟨_, Tree.locate_child hhome' hname hfile, fun location hne => ?_⟩⟩
    rw [hput location, if_neg hne]

theorem exists_writeFile_iff (bytes : List UInt8) :
    (∃ written, tree.writeFile (outputPath path directory format) bytes = .ok written) ↔
      ∃ home, tree.directoryAt directory = .ok home ∧
        ∀ entry, tree.get? (home ++ [path.name ++ format.extension]) = some entry →
          ∃ bytes, entry = .file bytes := by
  have hname : path.name ++ format.extension ≠ ".." := by
    intro h
    have hlength := Run.length_output format path.name
    rw [h] at hlength
    exact absurd hlength (by decide)
  constructor
  · rintro ⟨written, hwrite⟩
    obtain ⟨home, hhome, -, hfree, -⟩ := Tree.writeFile_child_eq_ok_iff.1 hwrite
    exact ⟨home, hhome, Tree.barrier?_eq_none_iff.1 hfree⟩
  · rintro ⟨home, hhome, hfree⟩
    have hwrite := Tree.barrier?_eq_none_iff.2 hfree
    exact ⟨_, Tree.writeFile_child_eq_ok_iff.2 ⟨home, hhome, hname, hwrite, rfl⟩⟩

theorem convertible_iff_exists_converted (h : Runs tree path directory format result after) :
    Convertible tree path directory format ↔
      ∃ feature output, result = .converted feature output := by
  constructor
  · rintro ⟨⟨source, feature, hfile, hparse, hfits⟩, hfree⟩
    have hfeature := readFeature_eq_ok_iff_encode.2 ⟨source, hfile, hparse⟩
    cases h with
    | unread read => simp [hfeature] at read
    | overlong read render =>
      obtain rfl := Except.ok.inj (hfeature.symm.trans read)
      exact absurd (overlong_of_render render) hfits
    | @unwritten _ text _ read render write =>
      obtain ⟨written, hwrite⟩ := (exists_writeFile_iff (Utf8.encode text)).2 hfree
      simp [hwrite] at write
    | converted read render write => exact ⟨_, _, rfl⟩
  · rintro ⟨feature, output, rfl⟩
    cases h with
    | converted read render write =>
      obtain ⟨source, hfile, hparse⟩ := readFeature_eq_ok_iff_encode.1 read
      exact ⟨⟨source, feature, hfile, hparse, not_overlong_of_render render⟩,
        (exists_writeFile_iff _).1 ⟨_, write⟩⟩

end Conversions

/-- A conversion puts the whole export of the feature in the file in its place, and this exactly
    when it can, or it comes to no output and changes nothing. -/
theorem exported_or_unchanged (tree : Tree) (path directory : Path) (format : Format) :
    ((∃ feature output, (run tree path directory format).1 = .converted feature output ∧
        Exported tree path directory format feature output (run tree path directory format).2) ∨
      (∀ feature output, (run tree path directory format).1 ≠ .converted feature output) ∧
        (run tree path directory format).2 = tree) ∧
    (Convertible tree path directory format ↔
      ∃ feature output, (run tree path directory format).1 = .converted feature output) := by
  have hruns := runs_run tree path directory format
  refine ⟨?_, convertible_iff_exists_converted hruns⟩
  generalize run tree path directory format = result at hruns
  obtain ⟨result, after⟩ := result
  cases result with
  | converted feature output => exact .inl ⟨feature, output, rfl, exported_of_runs hruns⟩
  | failed feature error =>
    right
    cases hruns <;> simp
  | overlong feature limit =>
    right
    cases hruns
    simp

/-- A feature file of lines that end with CR LF and a file that is no UTF-8 text, in the working
    directory, and the outputs of an earlier run in another directory. -/
def rerunTree : Tree :=
  ⟨["in"],
    [(["in"], .directory),
      (["in", "x.feature"], .file (Utf8.encode "Feature: one\r\nabout it\r\n")),
      (["in", "y.feature"], .file [0xED, 0xA0, 0x80]), (["out"], .directory),
      (["out", "x.feature.json"], .file (Utf8.encode "old")),
      (["out", "y.feature.json"], .file (Utf8.encode "old"))], true⟩

/-- A file of the tree, named from the working directory. -/
def rerunFile (name : String) : Path := ⟨.relative, [name]⟩

/-- One of the two is exported over the earlier output, the other leaves the tree as it was. -/
theorem exported_or_unchanged_rerunTree :
    (∃ feature output, (run rerunTree (rerunFile "x.feature") (Path.ofString "/out") .json).1 =
        .converted feature output ∧
      Exported rerunTree (rerunFile "x.feature") (Path.ofString "/out") .json feature output
        (run rerunTree (rerunFile "x.feature") (Path.ofString "/out") .json).2) ∧
    (run rerunTree (rerunFile "y.feature") (Path.ofString "/out") .json).2 = rerunTree := by
  constructor
  · have hresult : (run rerunTree (rerunFile "x.feature") (Path.ofString "/out") .json).1 =
        .converted ⟨"one", .empty, ["about it"], none, []⟩
          ⟨.single, ["out", "x.feature.json"]⟩ := by
      decide +kernel
    obtain h | ⟨hnone, -⟩ :=
      (exported_or_unchanged rerunTree (rerunFile "x.feature") (Path.ofString "/out") .json).1
    · exact h
    · exact absurd hresult (hnone _ _)
  · have hresult : (run rerunTree (rerunFile "y.feature") (Path.ofString "/out") .json).1 =
        .failed none (.encoding ⟨0, [0xED], .invalidContinuation⟩) := by
      decide +kernel
    obtain ⟨feature, output, hconverted, -⟩ | ⟨-, htree⟩ :=
      (exported_or_unchanged rerunTree (rerunFile "y.feature") (Path.ofString "/out") .json).1
    · rw [hresult] at hconverted
      exact absurd hconverted (by simp)
    · exact htree

end Conversion

end FeatureFile
