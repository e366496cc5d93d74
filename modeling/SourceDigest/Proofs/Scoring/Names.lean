/-
What the scorer makes of names in another case.

The patterns for important files, entry points and tests disregard case, so
none of them tells a file from another whose path differs from it in the
case of ASCII letters only, nor does a pattern from another such pattern
(`matchesAny_lowerAscii`). The other parts of a score that hang on a path
see as little of it: the directories that weigh more are looked for in
lower case, and extensions are compared up to case. So scorers and files
that are the same in lower case give the same for where a file lies and for
what type it is (`structural_lowered`, `fileType_lowered`).
-/
import SourceDigest.Scoring.Scorer
import SourceDigest.Proofs.Glob.LetterCase

namespace SourceDigest

namespace Scorer

open Text (lowerAscii HasNoCase Ascii)

variable {patterns patterns' : List Text} {file file' : Text}

/-- A scorer with its patterns in lower case. -/
def lowered (s : Scorer) : Scorer where
  __ := s
  settings :=
    { s.settings with
      importantFiles := s.settings.importantFiles.map lowerAscii
      entryPoints := s.settings.entryPoints.map lowerAscii
      testPatterns := s.settings.testPatterns.map lowerAscii }

-- ==================================================================== patterns

/-- Patterns match a path as they match it all in lower case. -/
theorem matchesAny_lowerAscii (patterns : List Text) (file : Text) :
    matchesAny (patterns.map lowerAscii) (lowerAscii file)
      = matchesAny patterns file := by
  unfold matchesAny globs
  rw [List.map_map, List.any_map, List.any_map]
  congr 1
  funext glob
  exact Glob.isMatch_ignoringCase_lowerAscii glob file

/-- Patterns and paths of ASCII characters are matched in lower case. -/
theorem matchesAny_of_ascii (hpatterns : ∀ glob ∈ patterns, Ascii glob)
    (hfile : Ascii file) :
    matchesAny patterns file
      = (patterns.map fun glob => Glob.compile (Text.lower glob)).any
        (·.isMatch (Text.lower file)) := by
  unfold matchesAny globs
  rw [List.any_map, List.any_map, Bool.eq_iff_iff, List.any_eq_true, List.any_eq_true]
  refine exists_congr fun glob => and_congr_right fun hglob => ?_
  rw [Function.comp_apply, Function.comp_apply,
    Glob.isMatch_ignoringCase_of_ascii (hpatterns glob hglob) hfile]

-- ================================================================== components

/-- Where a name stands weighs the same whatever its case. -/
theorem structural_lowered (s : Scorer) (file : Text) :
    s.lowered.structural (lowerAscii file) = s.structural file := by
  have hslash : HasNoCase '/' := by decide
  unfold structural lowered
  simp only [matchesAny_lowerAscii, Text.contains_lowerAscii hslash,
    Text.lower_lowerAscii]

/-- The ending of a name in lower case is its ending in lower case. -/
theorem nameExtension_lowerAscii (file : Text) :
    nameExtension (lowerAscii file) = lowerAscii (nameExtension file) := by
  unfold nameExtension
  rw [Text.afterLast_lowerAscii (by decide), Text.splitLast?_lowerAscii (by decide)]
  cases Text.splitLast? '.' (Text.afterLast '/' file) with
  | none => rfl
  | some parts => rfl

/-- An ending is listed or not whatever its case. -/
theorem isListed_lowerAscii (extensions : List Text) (ext : Text) :
    isListed extensions (lowerAscii ext) = isListed extensions ext := by
  have hnil : lowerAscii ext = [] ↔ ext = [] := List.map_eq_nil_iff
  unfold isListed Text.sameAscii
  simp only [Text.lowerAscii_lowerAscii, ne_eq, hnil]

theorem typeWeight?_lowered (s : Scorer) (file : Text) :
    s.lowered.typeWeight? (lowerAscii file) = s.typeWeight? file := by
  unfold typeWeight?
  simp only [nameExtension_lowerAscii, isListed_lowerAscii]
  rfl

/-- So a file is of the same type in lower case. -/
theorem fileType_lowered (s : Scorer) (file : Text) :
    s.lowered.fileType (lowerAscii file) = s.fileType file := by
  unfold fileType
  rw [typeWeight?_lowered]
  cases s.typeWeight? file with
  | none => rfl
  | some weight =>
      simp only [lowered, matchesAny_lowerAscii]

/-- A glob that disregards case makes of a path, both of ASCII characters,
what the glob in lower case makes of the path in lower case, and both go by
endings or neither does; so do the patterns of a scorer. Whether they match
does not hang on the case of ASCII letters, in the patterns and in the path,
whatever else these hold; and neither does what a scorer gives for where a
file lies and for its type. -/
theorem patterns_disregard_case :
    (∀ glob path : Text, Ascii glob → Ascii path →
      (Glob.compileIgnoringCase glob).isSuffix
          = (Glob.compile (Text.lower glob)).isSuffix
        ∧ (Glob.compileIgnoringCase glob).isMatch path
          = (Glob.compile (Text.lower glob)).isMatch (Text.lower path))
    ∧ (∀ (patterns : List Text) (file : Text), (∀ glob ∈ patterns, Ascii glob) →
      Ascii file →
        matchesAny patterns file
          = (patterns.map fun glob => Glob.compile (Text.lower glob)).any
            (·.isMatch (Text.lower file)))
    ∧ (∀ (patterns patterns' : List Text) (file file' : Text),
      patterns.map lowerAscii = patterns'.map lowerAscii →
      lowerAscii file = lowerAscii file' →
        matchesAny patterns file = matchesAny patterns' file')
    ∧ ∀ (s s' : Scorer) (file file' : Text), s.lowered = s'.lowered →
      lowerAscii file = lowerAscii file' →
        s.structural file = s'.structural file'
          ∧ s.fileType file = s'.fileType file' := by
  refine ⟨fun glob path hglob hpath => ⟨?_, ?_⟩, fun patterns file => matchesAny_of_ascii,
    fun patterns patterns' file file' hpatterns hfile => ?_,
    fun s s' file file' hs hfile => ⟨?_, ?_⟩⟩
  · rw [Text.lower_of_ascii hglob]
    exact Glob.isSuffix_ignoringCase glob
  · exact Glob.isMatch_ignoringCase_of_ascii hglob hpath
  · rw [← matchesAny_lowerAscii, hpatterns, hfile, matchesAny_lowerAscii]
  · rw [← structural_lowered, hs, hfile, structural_lowered]
  · rw [← fileType_lowered, hs, hfile, fileType_lowered]

/-- The scorer that takes read-me files for tests. -/
def testingReadmes (pattern : Text) : Scorer where
  settings := { importantFiles := [pattern], testPatterns := [pattern] }
  selection := .empty
  now := ⟨0, 0⟩

/-- A glob with wildcards and one that goes by endings, a path in two cases, and
two scorers with one pattern in two cases. -/
theorem patterns_disregard_case_of_readmes :
    (Glob.compileIgnoringCase "Doc?/**/READ*".toList).isMatch "docs/a/ReadMe.MD".toList
        = true
      ∧ (Glob.compileIgnoringCase "*.MD".toList).isSuffix = true
      ∧ (Glob.compileIgnoringCase "*.MD".toList).isMatch "ReadMe.Md".toList = true
      ∧ matchesAny ["READ*".toList] "ReadMe.Md".toList = true
      ∧ matchesAny ["read*".toList] "README.md".toList = true
      ∧ (testingReadmes "READ*".toList).structural "ReadMe.Md".toList
        = (testingReadmes "Read*".toList).structural "README.md".toList
      ∧ (testingReadmes "READ*".toList).fileType "ReadMe.Md".toList
        = (testingReadmes "Read*".toList).fileType "README.md".toList := by
  obtain ⟨hglob, hmany, hsame, hscores⟩ := patterns_disregard_case
  have hascii : Ascii "ReadMe.Md".toList := by decide
  have hending := hglob "*.MD".toList _ (by decide) hascii
  have hfile : lowerAscii "ReadMe.Md".toList = lowerAscii "README.md".toList := by decide
  have hmatch : matchesAny ["READ*".toList] "ReadMe.Md".toList = true := by
    rw [hmany _ _ (by decide) hascii]
    decide
  refine ⟨?_, ?_, ?_, hmatch, ?_, hscores _ _ _ _ ?_ hfile⟩
  · rw [(hglob _ _ (by decide) (by decide)).2]
    decide
  · rw [hending.1]
    decide
  · rw [hending.2]
    decide
  · rw [← hsame ["READ*".toList] ["read*".toList] _ _ (by decide) hfile, hmatch]
  · rfl

end Scorer

end SourceDigest
