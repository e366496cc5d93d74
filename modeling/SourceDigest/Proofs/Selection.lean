/-
What a selection holds after it was filled, and what it then decides.

A selection is filled in steps: one glob or several to ignore or to
include, or what an ignore file lists (`Step`). A step puts globs behind
those that are there, and which globs it puts there does not hang on them
(`apply_eq`). So after any steps a selection holds what each of them gave,
in order (`after_eq`), and what it decides is told from the steps alone: by
which globs they ignore and which they include (`Step.Ignores`,
`Step.Includes`, `takes_after_iff`).
-/
import SourceDigest.Settings.Load
import SourceDigest.Proofs.Text.Blanks
import SourceDigest.Proofs.Text.Utf8

namespace SourceDigest

namespace Selection

variable {s : Selection} {glob content path : Text}

-- ======================================================================== rules

/-- A text of blanks alone. -/
def AllBlank (t : Text) : Prop := ∀ c ∈ t, Text.isBlank c = true

/-- A glob that an ignore file lists: what a line reads when trimmed, unless
it is blank, a remark, or takes something back. -/
def Lists (content glob : Text) : Prop :=
  ∃ line ∈ Text.lines content, Text.trim line = glob ∧ ¬ AllBlank line
    ∧ glob.head? ≠ some '#' ∧ glob.head? ≠ some '!'

/-- A step of filling a selection. -/
inductive Step where
  | ignoring (glob : Text)
  | ignoringAll (globs : List Text)
  | including (glob : Text)
  | includingAll (globs : List Text)
  | loading (fs : FileSystem) (path : Path)
  | loadingGitignore (fs : FileSystem) (root : Path)

/-- What a step gives to ignore. -/
inductive Step.Ignores : Step → Text → Prop
  | one {glob : Text} : ¬ AllBlank glob → Ignores (ignoring glob) glob
  | many {globs : List Text} {glob : Text} : glob ∈ globs → ¬ AllBlank glob →
    Ignores (ignoringAll globs) glob
  | listed {fs : FileSystem} {path : Path} {content glob : Text} :
    fs.readText? path = some content → Lists content glob →
    Ignores (loading fs path) glob
  | listedInRoot {fs : FileSystem} {root : Path} {content glob : Text} :
    fs.readText? (Path.join root gitignoreFile) = some content →
    Lists content glob → Ignores (loadingGitignore fs root) glob

/-- What a step gives to include. -/
inductive Step.Includes : Step → Text → Prop
  | one {glob : Text} : ¬ AllBlank glob → Includes (including glob) glob
  | many {globs : List Text} {glob : Text} : glob ∈ globs → ¬ AllBlank glob →
    Includes (includingAll globs) glob

/-- The selection after a step. -/
def Step.apply (s : Selection) : Step → Selection
  | ignoring glob => s.addIgnore glob
  | ignoringAll globs => s.addIgnores globs
  | including glob => s.addInclude glob
  | includingAll globs => s.addIncludes globs
  | loading fs path => (s.loadFile fs path).1
  | loadingGitignore fs root => (s.loadGitignore fs root).1

/-- The selection that is filled in some steps. -/
def after (steps : List Step) : Selection := steps.foldl Step.apply empty

-- ======================================================================= adding

/-- A glob counts if it is not all blank. -/
theorem isGiven_iff : isGiven glob = true ↔ ¬ AllBlank glob := by
  unfold isGiven AllBlank
  rw [Bool.not_eq_true', List.isEmpty_eq_false_iff, ne_eq, Text.trim_eq_nil_iff]

/-- A selection with more globs behind its own. -/
def extend (s : Selection) (ignored included : List Text) : Selection where
  ignore := s.ignore ++ ignored.map Glob.compile
  includes := s.includes ++ included.map Glob.compile

theorem extend_nil (s : Selection) : s.extend [] [] = s := by
  simp [extend]

/-- Globs are put in one list after the other, or at once. -/
theorem extend_extend (s : Selection) (gs hs gs' hs' : List Text) :
    (s.extend gs hs).extend gs' hs' = s.extend (gs ++ gs') (hs ++ hs') := by
  simp [extend]

/-- What extends a selection one by one extends it by all there is, in
order. -/
theorem foldl_eq_extend {α : Type} {add : Selection → α → Selection}
    {ignored included : α → List Text}
    (h : ∀ s a, add s a = s.extend (ignored a) (included a)) (s : Selection)
    (xs : List α) :
    xs.foldl add s = s.extend (xs.flatMap ignored) (xs.flatMap included) := by
  induction xs generalizing s with
  | nil => exact s.extend_nil.symm
  | cons a xs ih =>
      rw [List.foldl_cons, ih, h, extend_extend, List.flatMap_cons,
        List.flatMap_cons]

/-- A glob, unless it is blank. -/
def given (glob : Text) : List Text := if isGiven glob then [glob] else []

/-- What a text gives is itself, unless it is all blank. -/
theorem mem_given_iff {g : Text} :
    glob ∈ given g ↔ glob = g ∧ ¬ AllBlank glob := by
  unfold given
  by_cases hg : isGiven g = true
  · rw [if_pos hg, List.mem_singleton]
    exact ⟨fun h => ⟨h, h ▸ isGiven_iff.1 hg⟩, And.left⟩
  · rw [if_neg hg]
    refine ⟨fun h => absurd h List.not_mem_nil, fun h => absurd ?_ hg⟩
    exact isGiven_iff.2 (h.1 ▸ h.2)

/-- What some texts give are those that are not. -/
theorem mem_flatMap_given_iff {globs : List Text} :
    glob ∈ globs.flatMap given ↔ glob ∈ globs ∧ ¬ AllBlank glob := by
  rw [List.mem_flatMap]
  constructor
  · intro h
    obtain ⟨g, hg, hmem⟩ := h
    obtain ⟨rfl, hblank⟩ := mem_given_iff.1 hmem
    exact ⟨hg, hblank⟩
  · intro h
    exact ⟨glob, h.1, mem_given_iff.2 ⟨rfl, h.2⟩⟩

theorem flatMap_given {globs : List Text} (h : ∀ g ∈ globs, isGiven g = true) :
    globs.flatMap given = globs := by
  calc globs.flatMap given = globs.flatMap (fun g => [g]) :=
        List.flatMap_congr fun g hg => if_pos (h g hg)
    _ = globs := List.flatMap_singleton' globs

/-- Every way to fill a selection puts what it is given behind what is
there. -/
theorem addIgnore_eq (s : Selection) (glob : Text) :
    s.addIgnore glob = s.extend (given glob) [] := by
  unfold addIgnore given
  split <;> simp [extend]

theorem addInclude_eq (s : Selection) (glob : Text) :
    s.addInclude glob = s.extend [] (given glob) := by
  unfold addInclude given
  split <;> simp [extend]

theorem addIgnores_eq (s : Selection) (globs : List Text) :
    s.addIgnores globs = s.extend (globs.flatMap given) [] := by
  have hnone : globs.flatMap (fun _ => ([] : List Text)) = [] :=
    List.flatMap_eq_nil_iff.2 fun _ _ => rfl
  have h := foldl_eq_extend addIgnore_eq s globs
  rwa [hnone] at h

theorem addIncludes_eq (s : Selection) (globs : List Text) :
    s.addIncludes globs = s.extend [] (globs.flatMap given) := by
  have hnone : globs.flatMap (fun _ => ([] : List Text)) = [] :=
    List.flatMap_eq_nil_iff.2 fun _ _ => rfl
  have h := foldl_eq_extend addInclude_eq s globs
  rwa [hnone] at h

theorem ofGlobs_eq (ignored included : List Text) :
    ofGlobs ignored included
      = empty.extend (ignored.flatMap given) (included.flatMap given) := by
  unfold ofGlobs
  rw [addIncludes_eq, addIgnores_eq, extend_extend, List.append_nil,
    List.nil_append]

-- ================================================================= ignore files

/-- What an ignore file lists is taken from it. -/
theorem mem_ignoreGlobs_iff : glob ∈ ignoreGlobs content ↔ Lists content glob := by
  unfold ignoreGlobs ignoreLines
  simp only [List.mem_filter, List.mem_map, Bool.and_eq_true, Bool.not_eq_true',
    List.isEmpty_eq_false_iff, bne_iff_ne]
  constructor
  · intro h
    obtain ⟨⟨⟨line, hline, rfl⟩, hne, hremark⟩, hback⟩ := h
    exact ⟨line, hline, rfl, fun hblank => hne (Text.trim_eq_nil hblank), hremark,
      hback⟩
  · intro h
    obtain ⟨line, hline, rfl, hblank, hremark, hback⟩ := h
    exact ⟨⟨⟨line, hline, rfl⟩, fun hnil => hblank (Text.trim_eq_nil_iff.1 hnil),
      hremark⟩, hback⟩

theorem isGiven_of_lists (h : Lists content glob) : isGiven glob = true := by
  obtain ⟨line, -, rfl, hblank, -⟩ := h
  rw [isGiven_iff]
  intro htrim
  exact hblank (Text.trim_eq_nil_iff.1
    (Text.trim_trim_eq_nil_iff.1 (Text.trim_eq_nil htrim)))

/-- The globs that the ignore file at a path lists, if it can be read. -/
def listed (fs : FileSystem) (path : Path) : List Text :=
  (fs.readText? path).elim [] ignoreGlobs

/-- What a file lists is what its text lists, if it can be read. -/
theorem mem_listed_iff {fs : FileSystem} {path : Path} :
    glob ∈ listed fs path
      ↔ ∃ content, fs.readText? path = some content ∧ Lists content glob := by
  unfold listed
  cases fs.readText? path with
  | none => simp
  | some content => simp [mem_ignoreGlobs_iff]

/-- Loading adds what is listed and tells how much that is. -/
theorem loadFile_eq (s : Selection) (fs : FileSystem) (path : Path) :
    s.loadFile fs path
      = (s.extend (listed fs path) [], (listed fs path).length) := by
  unfold loadFile listed
  cases fs.readText? path with
  | none => exact congrArg (·, 0) s.extend_nil.symm
  | some content =>
      have hgiven : ∀ g ∈ ignoreGlobs content, isGiven g = true := fun g hg =>
        isGiven_of_lists (mem_ignoreGlobs_iff.1 hg)
      show s.loadIgnoreFile content = _
      unfold loadIgnoreFile
      rw [addIgnores_eq, flatMap_given hgiven]
      rfl

-- ======================================================================== steps

/-- The globs that a step gives to ignore, in order. -/
def Step.ignored : Step → List Text
  | ignoring glob => given glob
  | ignoringAll globs => globs.flatMap given
  | loading fs path => listed fs path
  | loadingGitignore fs root => listed fs (Path.join root gitignoreFile)
  | including _ | includingAll _ => []

/-- The globs that a step gives to include, in order. -/
def Step.included : Step → List Text
  | including glob => given glob
  | includingAll globs => globs.flatMap given
  | _ => []

/-- A step puts in what it ignores and what it includes. -/
theorem Step.apply_eq (s : Selection) (step : Step) :
    step.apply s = s.extend step.ignored step.included := by
  cases step with
  | ignoring glob => exact addIgnore_eq s glob
  | ignoringAll globs => exact addIgnores_eq s globs
  | including glob => exact addInclude_eq s glob
  | includingAll globs => exact addIncludes_eq s globs
  | loading fs path => exact congrArg Prod.fst (loadFile_eq s fs path)
  | loadingGitignore fs root => exact congrArg Prod.fst (loadFile_eq s fs _)

/-- What a step puts with the ignored globs is what it gives to ignore. -/
theorem Step.mem_ignored_iff {step : Step} :
    glob ∈ step.ignored ↔ step.Ignores glob := by
  constructor
  · intro h
    cases step with
    | ignoring g =>
        obtain ⟨rfl, hblank⟩ := mem_given_iff.1 h
        exact .one hblank
    | ignoringAll globs =>
        obtain ⟨hmem, hblank⟩ := mem_flatMap_given_iff.1 h
        exact .many hmem hblank
    | including g => cases h
    | includingAll globs => cases h
    | loading fs path =>
        obtain ⟨content, hread, hlists⟩ := mem_listed_iff.1 h
        exact .listed hread hlists
    | loadingGitignore fs root =>
        obtain ⟨content, hread, hlists⟩ := mem_listed_iff.1 h
        exact .listedInRoot hread hlists
  · intro h
    cases h with
    | one hblank => exact mem_given_iff.2 ⟨rfl, hblank⟩
    | many hmem hblank => exact mem_flatMap_given_iff.2 ⟨hmem, hblank⟩
    | listed hread hlists => exact mem_listed_iff.2 ⟨_, hread, hlists⟩
    | listedInRoot hread hlists => exact mem_listed_iff.2 ⟨_, hread, hlists⟩

/-- What a step puts with the included globs is what it gives to include. -/
theorem Step.mem_included_iff {step : Step} :
    glob ∈ step.included ↔ step.Includes glob := by
  constructor
  · intro h
    cases step with
    | including g =>
        obtain ⟨rfl, hblank⟩ := mem_given_iff.1 h
        exact .one hblank
    | includingAll globs =>
        obtain ⟨hmem, hblank⟩ := mem_flatMap_given_iff.1 h
        exact .many hmem hblank
    | ignoring g => cases h
    | ignoringAll globs => cases h
    | loading fs path => cases h
    | loadingGitignore fs root => cases h
  · intro h
    cases h with
    | one hblank => exact mem_given_iff.2 ⟨rfl, hblank⟩
    | many hmem hblank => exact mem_flatMap_given_iff.2 ⟨hmem, hblank⟩

/-- After some steps a selection holds what each of them gave. -/
theorem after_eq (steps : List Step) :
    after steps = empty.extend (steps.flatMap Step.ignored)
      (steps.flatMap Step.included) :=
  foldl_eq_extend Step.apply_eq empty steps

-- ==================================================================== decisions

variable {steps steps' : List Step}

/-- The globs that are compiled from what steps give. -/
theorem mem_compiled_iff {texts : Step → List Text} {Gives : Step → Text → Prop}
    (h : ∀ {step : Step} {glob : Text}, glob ∈ texts step ↔ Gives step glob)
    {g : Glob} :
    g ∈ (steps.flatMap texts).map Glob.compile
      ↔ ∃ step ∈ steps, ∃ glob, Gives step glob ∧ Glob.compile glob = g := by
  simp only [List.mem_map, List.mem_flatMap, h]
  constructor
  · intro hg
    obtain ⟨glob, ⟨step, hstep, hgives⟩, hg⟩ := hg
    exact ⟨step, hstep, glob, hgives, hg⟩
  · intro hg
    obtain ⟨step, hstep, glob, hgives, hg⟩ := hg
    exact ⟨glob, ⟨step, hstep, hgives⟩, hg⟩

/-- The ignored globs are those that some step gives to ignore. -/
theorem mem_ignore_after_iff {g : Glob} :
    g ∈ (after steps).ignore
      ↔ ∃ step ∈ steps, ∃ glob, step.Ignores glob ∧ Glob.compile glob = g := by
  rw [after_eq]
  exact mem_compiled_iff Step.mem_ignored_iff

/-- The included globs are those that some step gives to include. -/
theorem mem_includes_after_iff {g : Glob} :
    g ∈ (after steps).includes
      ↔ ∃ step ∈ steps, ∃ glob, step.Includes glob ∧ Glob.compile glob = g := by
  rw [after_eq]
  exact mem_compiled_iff Step.mem_included_iff

/-- One of the globs that steps give matches a path. -/
theorem any_isMatch_iff {globs : List Glob} {Gives : Step → Text → Prop}
    (h : ∀ {g : Glob}, g ∈ globs
      ↔ ∃ step ∈ steps, ∃ glob, Gives step glob ∧ Glob.compile glob = g) :
    globs.any (·.isMatch path) = true ↔ ∃ step ∈ steps, ∃ glob,
      Gives step glob ∧ (Glob.compile glob).isMatch path = true := by
  rw [List.any_eq_true]
  constructor
  · intro hmatch
    obtain ⟨g, hg, hmatch⟩ := hmatch
    obtain ⟨step, hstep, glob, hgives, rfl⟩ := h.1 hg
    exact ⟨step, hstep, glob, hgives, hmatch⟩
  · intro hmatch
    obtain ⟨step, hstep, glob, hgives, hmatch⟩ := hmatch
    exact ⟨_, h.2 ⟨step, hstep, glob, hgives, rfl⟩, hmatch⟩

/-- A path is ignored when a glob that some step ignores matches it. -/
theorem isIgnored_after_iff :
    (after steps).isIgnored path = true ↔ ∃ step ∈ steps, ∃ glob,
      step.Ignores glob ∧ (Glob.compile glob).isMatch path = true :=
  any_isMatch_iff mem_ignore_after_iff

/-- A path is included when no step includes anything, or a glob that some
step includes matches it. -/
theorem isIncluded_after_iff :
    (after steps).isIncluded path = true
      ↔ (∀ step ∈ steps, ∀ glob, ¬ step.Includes glob)
        ∨ ∃ step ∈ steps, ∃ glob,
          step.Includes glob ∧ (Glob.compile glob).isMatch path = true := by
  have hnone : (after steps).includes.isEmpty = true
      ↔ ∀ step ∈ steps, ∀ glob, ¬ step.Includes glob := by
    rw [List.isEmpty_iff, List.eq_nil_iff_forall_not_mem]
    constructor
    · intro h step hstep glob hgives
      exact h _ (mem_includes_after_iff.2 ⟨step, hstep, glob, hgives, rfl⟩)
    · intro h g hg
      obtain ⟨step, hstep, glob, hgives, -⟩ := mem_includes_after_iff.1 hg
      exact h step hstep glob hgives
  unfold isIncluded
  rw [Bool.or_eq_true, hnone, any_isMatch_iff mem_includes_after_iff]

/-- A path is taken when no step ignores it and, if there are steps that
include anything, one of them includes it. -/
theorem takes_after_iff :
    (after steps).takes path = true
      ↔ (¬ ∃ step ∈ steps, ∃ glob,
          step.Ignores glob ∧ (Glob.compile glob).isMatch path = true)
        ∧ ((∀ step ∈ steps, ∀ glob, ¬ step.Includes glob)
          ∨ ∃ step ∈ steps, ∃ glob,
            step.Includes glob ∧ (Glob.compile glob).isMatch path = true) := by
  unfold takes
  rw [Bool.and_eq_true, Bool.not_eq_true', ← Bool.not_eq_true, isIgnored_after_iff,
    isIncluded_after_iff]

/-- Steps that are the same but for their order and number decide alike. -/
theorem after_congr (h : ∀ step, step ∈ steps ↔ step ∈ steps') (path : Text) :
    (after steps).takes path = (after steps').takes path
      ∧ (after steps).enters path = (after steps').enters path := by
  have hignored : (after steps).isIgnored path = (after steps').isIgnored path := by
    rw [Bool.eq_iff_iff, isIgnored_after_iff, isIgnored_after_iff]
    simp only [h]
  have hincluded :
      (after steps).isIncluded path = (after steps').isIncluded path := by
    rw [Bool.eq_iff_iff, isIncluded_after_iff, isIncluded_after_iff]
    simp only [h]
  unfold takes enters
  rw [hignored, hincluded]
  exact ⟨rfl, rfl⟩

/-- What is taken with a step that includes nothing is taken without it. -/
theorem takes_of_takes_insert {front back : List Step} {step : Step}
    (hstep : ∀ glob, ¬ step.Includes glob)
    (h : (after (front ++ step :: back)).takes path = true) :
    (after (front ++ back)).takes path = true := by
  have hmem : ∀ {x}, x ∈ front ++ back → x ∈ front ++ step :: back := by
    intro x hx
    rw [List.mem_append, List.mem_cons]
    exact (List.mem_append.1 hx).imp_right Or.inr
  obtain ⟨hignored, hincluded⟩ := takes_after_iff.1 h
  refine takes_after_iff.2 ⟨fun hmatch => hignored ?_, ?_⟩
  · obtain ⟨x, hx, hmatch⟩ := hmatch
    exact ⟨x, hmem hx, hmatch⟩
  · refine hincluded.imp (fun hnone x hx => hnone x (hmem hx)) fun hmatch => ?_
    obtain ⟨x, hx, glob, hgives, hmatch⟩ := hmatch
    rw [List.mem_append, List.mem_cons] at hx
    rcases hx with hx | rfl | hx
    · exact ⟨x, List.mem_append_left _ hx, glob, hgives, hmatch⟩
    · exact absurd hgives (hstep glob)
    · exact ⟨x, List.mem_append_right _ hx, glob, hgives, hmatch⟩

/-- Loading makes the ignored globs more by the number it tells, and leaves
the included ones. -/
theorem loadFile_grows (s : Selection) (fs : FileSystem) (path : Path) :
    (s.loadFile fs path).1.ignore.length
        = s.ignore.length + (s.loadFile fs path).2
      ∧ (s.loadFile fs path).1.includes = s.includes := by
  rw [loadFile_eq]
  simp [extend]

/-- What a selection that is filled in any steps ignores and includes is
what the steps give, and it takes a path when no glob that they ignore
matches it and, if they include any, one of those does. So it decides alike
whatever the order of the steps and however often each was taken; a step
that includes nothing, whenever it is taken, lets nothing in; and loading
tells by how much the ignored globs grow. -/
theorem filling_decides :
    (∀ (steps : List Step) (g : Glob),
      (g ∈ (after steps).ignore
        ↔ ∃ step ∈ steps, ∃ glob, step.Ignores glob ∧ Glob.compile glob = g)
      ∧ (g ∈ (after steps).includes
        ↔ ∃ step ∈ steps, ∃ glob, step.Includes glob ∧ Glob.compile glob = g))
    ∧ (∀ (steps : List Step) (path : Text),
      (after steps).takes path = true
        ↔ (¬ ∃ step ∈ steps, ∃ glob,
            step.Ignores glob ∧ (Glob.compile glob).isMatch path = true)
          ∧ ((∀ step ∈ steps, ∀ glob, ¬ step.Includes glob)
            ∨ ∃ step ∈ steps, ∃ glob,
              step.Includes glob ∧ (Glob.compile glob).isMatch path = true))
    ∧ (∀ steps steps' : List Step, (∀ step, step ∈ steps ↔ step ∈ steps') →
      ∀ path : Text,
        (after steps).takes path = (after steps').takes path
          ∧ (after steps).enters path = (after steps').enters path)
    ∧ (∀ (front back : List Step) (step : Step) (path : Text),
      (∀ glob, ¬ step.Includes glob) →
      (after (front ++ back)).takes path = false →
        (after (front ++ step :: back)).takes path = false)
    ∧ ∀ (s : Selection) (fs : FileSystem) (path : Path),
      (s.loadFile fs path).1.ignore.length
          = s.ignore.length + (s.loadFile fs path).2
        ∧ (s.loadFile fs path).1.includes = s.includes
        ∧ (s.loadGitignore fs path).1.ignore.length
          = s.ignore.length + (s.loadGitignore fs path).2
        ∧ (s.loadGitignore fs path).1.includes = s.includes := by
  refine ⟨fun steps g => ⟨mem_ignore_after_iff, mem_includes_after_iff⟩,
    fun steps path => takes_after_iff, fun steps steps' h => after_congr h,
    fun front back step path hstep h => ?_, fun s fs path => ?_⟩
  · rw [← Bool.not_eq_true] at h ⊢
    exact fun htakes => h (takes_of_takes_insert hstep htakes)
  · exact and_assoc.1 ⟨loadFile_grows s fs path, loadFile_grows s fs _⟩

/-- A file system with an ignore file in its root. -/
def withGitignore (content : Text) : FileSystem where
  top := [(gitignoreFile, .file (Text.toBytes content) 0)]
  here := []

theorem readText?_withGitignore (content : Text) :
    (withGitignore content).readText? (Path.join ['/'] gitignoreFile)
      = some content := by
  have hpath : Path.join ['/'] gitignoreFile = '/' :: gitignoreFile := by decide
  have hsplit : Text.splitOn '/' ('/' :: gitignoreFile) = [[], gitignoreFile] := by
    decide
  have hshort : ¬ nameLimit < Text.byteSize gitignoreFile := by decide
  have hname : gitignoreFile ≠ [] ∧ gitignoreFile ≠ ['.']
      ∧ gitignoreFile ≠ ['.', '.'] := by decide
  have hread : (withGitignore content).read ('/' :: gitignoreFile)
      = .ok (Text.toBytes content) := by
    unfold FileSystem.read FileSystem.find FileSystem.follow
    simp [Path.isAbsolute, hsplit, Trail.follow, Trail.entries, hshort, hname,
      withGitignore]
  unfold FileSystem.readText?
  rw [hpath, hread]
  exact Text.ofBytes?_toBytes content

/-- The step that loads an ignore file of two lines, the first a remark. -/
def ignoringBuilt : Step :=
  .loadingGitignore (withGitignore "# built\n target/ \n".toList) ['/']

/-- The steps of the example ignore what is in the file and no more. -/
theorem ignores_ignoringBuilt_iff :
    ignoringBuilt.Ignores glob ↔ glob = "target/".toList := by
  have hlists : ∀ glob, Lists "# built\n target/ \n" glob
      ↔ glob = "target/".toList := by
    intro glob
    rw [← mem_ignoreGlobs_iff,
      show ignoreGlobs "# built\n target/ \n" = ["target/".toList] by decide]
    exact List.mem_singleton
  constructor
  · rintro (_ | _ | _ | ⟨hread, hlisted⟩)
    rw [readText?_withGitignore] at hread
    obtain rfl := Option.some.inj hread
    exact (hlists glob).1 hlisted
  · exact fun h => .listedInRoot (readText?_withGitignore _) ((hlists glob).2 h)

/-- Code is taken when it is included, and what is built is left out, also when
the steps are turned round and one is repeated, and when more is ignored. -/
theorem filling_decides_of_gitignore :
    let steps := [ignoringBuilt, .including "*.rs".toList]
    let turned := [.including "*.rs".toList, ignoringBuilt,
      .including "*.rs".toList]
    let more := [ignoringBuilt, .ignoring "doc".toList, .including "*.rs".toList]
    ((after steps).takes "src/a.rs".toList = true
        ∧ (after steps).takes "src/a.md".toList = false
        ∧ (after steps).takes "target/a.rs".toList = false)
      ∧ ((after turned).takes "src/a.rs".toList = true
        ∧ (after turned).takes "target/a.rs".toList = false)
      ∧ (after more).takes "target/a.rs".toList = false := by
  intro steps turned more
  obtain ⟨-, hrule, hsame, hmore, -⟩ := filling_decides
  have hcode : ∀ glob, (Step.including "*.rs".toList).Includes glob
      ↔ glob = "*.rs".toList := by
    have hgiven : ¬ AllBlank "*.rs".toList := fun hblank =>
      absurd (hblank '*' (by decide)) (by decide)
    refine fun glob => ⟨fun h => ?_, fun h => ?_⟩
    · cases h
      rfl
    · rw [h]
      exact .one hgiven
  have hbuilt : ∀ glob, ¬ ignoringBuilt.Includes glob := fun _ h => by cases h
  have hnone : ∀ glob, ¬ (Step.including "*.rs".toList).Ignores glob :=
    fun _ h => by cases h
  have htakes : ∀ path, (after steps).takes path = true
      ↔ (Glob.compile "target/".toList).isMatch path = false
        ∧ (Glob.compile "*.rs".toList).isMatch path = true := by
    intro path
    rw [hrule]
    simp only [steps, List.mem_cons, List.not_mem_nil, or_false,
      exists_eq_or_imp, exists_eq_left, forall_eq_or_imp, hcode, hbuilt,
      hnone, ignores_ignoringBuilt_iff, false_and, exists_false, false_or,
      not_false_eq_true, implies_true, true_and, Bool.not_eq_true, forall_eq]
  have htaken : (after steps).takes "src/a.rs".toList = true :=
    (htakes _).2 (by decide)
  have hout : (after steps).takes "target/a.rs".toList = false := by
    rw [← Bool.not_eq_true, htakes]
    decide
  have hturned : ∀ path, (after turned).takes path = (after steps).takes path :=
    fun path => (hsame _ _ (by simp [steps, turned]) path).1
  refine ⟨⟨htaken, ?_, hout⟩, ⟨?_, ?_⟩, ?_⟩
  · rw [← Bool.not_eq_true, htakes]
    decide
  · rw [hturned, htaken]
  · rw [hturned, hout]
  · exact hmore [ignoringBuilt] [.including "*.rs".toList] (.ignoring "doc".toList) _
      (fun _ h => by cases h) hout

end Selection

end SourceDigest
