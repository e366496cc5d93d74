/-
What a walk misses by not entering a directory.

A directory is not entered when an ignore glob matches it, and then nothing
below it is looked at, whatever the selection would make of it. When every
ignore glob reaches below what it matches, nothing is missed: the walk
takes the files that a walk through all directories finds and the selection
takes (`pruning_drops_nothing`).

# Names

The argument follows one file: what ignores a directory on the way to it
ignores the file, because the path of the file is that of the directory
with more behind it (`isIgnored_below`). That has to stay so when paths are
made normal, and it does exactly when something of the directory stays in
front (`KeepsFront`), as it does with names. But a backslash in a name is
read as a slash, and a name like `\` or `.\.` is lost in front of what lies
below it; a file in a directory of such a name may be matched by no glob
that matches the directory (`pruning_drops_file_below_backslash`).
-/
import SourceDigest.Proofs.Files.Walk
import SourceDigest.Proofs.Glob.Below
import SourceDigest.Proofs.Selection

namespace SourceDigest

-- ====================================================================== names

/-- At every depth the names of entries pass a test. -/
inductive FileNode.Named (ok : Text → Prop) : FileNode → Prop
  | file {content : Bytes} {modified : Int} :
    Named ok (.file content modified)
  | link {target : Path} : Named ok (.link target)
  | directory {entries : Entries} :
    (∀ e ∈ entries, ok e.1) →
    (∀ e ∈ entries, Named ok e.2) →
    Named ok (.directory entries)

/-- The names that lead to a node pass the test. -/
theorem FileNode.Named.of_at? {ok : Text → Prop} {n m : FileNode}
    {names : List Text} (hn : n.Named ok) (h : n.at? names = some m) :
    ∀ x ∈ names, ok x := by
  induction names generalizing n with
  | nil => exact fun x hx => absurd hx List.not_mem_nil
  | cons name names ih =>
      obtain ⟨es, rfl⟩ := exists_directory_of_at?_cons h
      rw [at?_directory, Option.bind_eq_some_iff] at h
      obtain ⟨k, hlookup, hk⟩ := h
      have hmem := mem_of_lookup_eq hlookup
      cases hn with
      | directory hnames hnodes =>
          exact List.forall_mem_cons.2 ⟨hnames _ hmem, ih (hnodes _ hmem) hk⟩

/-- Names behind a name that keeps its front keep it. -/
theorem Glob.keepsFront_join {name : Text} (h : KeepsFront name)
    (names : List Text) : KeepsFront (Text.join ['/'] (name :: names)) := by
  by_cases hnames : names = []
  · subst hnames
    exact h
  · rw [Text.join_cons _ _ hnames, List.append_assoc, List.singleton_append]
    exact h.append _

-- ================================================================== selections

/-- Every ignore glob reaches below what it matches. -/
def Selection.IgnoresDeeply (s : Selection) : Prop :=
  ∀ g ∈ s.ignore, ∃ glob, g = Glob.compile glob ∧ Glob.IsDeep glob

/-- What ignores a path ignores every path below it. -/
theorem Selection.IgnoresDeeply.isIgnored_below {s : Selection}
    (h : s.IgnoresDeeply) {path more : Text} (hfront : Glob.KeepsFront path)
    (hpath : '\n' ∉ path) (hmore : '\n' ∉ more)
    (hignored : s.isIgnored path = true) :
    s.isIgnored (path ++ '/' :: more) = true := by
  obtain ⟨g, hg, hmatch⟩ := List.any_eq_true.1 hignored
  obtain ⟨glob, rfl, hdeep⟩ := h g hg
  exact List.any_eq_true.2
    ⟨_, hg, hdeep.isMatch_below hfront hpath hmore hmatch⟩

namespace Walk

variable {w : Walk} {names : List Text}

/-- The walk that enters every directory and takes every file. -/
def unpruned (w : Walk) : Walk := { w with selection := .empty }

/-- Names are plain: of one line at every depth, and those of directories in
the root keep their front. -/
structure PlainlyNamed (w : Walk) : Prop where
  lines : (FileNode.directory (w.listing w.root)).Named ('\n' ∉ ·)
  directories : ∀ name es, (name, .directory es) ∈ w.listing w.root →
    Glob.KeepsFront name

/-- A path of names of one line each is one line. -/
theorem feed_notMem_join (h : ∀ x ∈ names, '\n' ∉ x) :
    '\n' ∉ Text.join ['/'] names := by
  intro hmem
  rcases Text.mem_join hmem with hmem | ⟨x, hx, hmem⟩
  · simp at hmem
  · exact h x hx hmem

/-- A directory on the way to a file that is taken is entered. -/
theorem enters_of_takes (hroot : (FileNode.directory (w.listing w.root)).WellFormed)
    (hnamed : w.PlainlyNamed) (hdeep : w.selection.IgnoresDeeply)
    {front rest : List Text} {n : FileNode}
    (hnode : (FileNode.directory (w.listing w.root)).at? (front ++ rest) = some n)
    (hfront : front ≠ []) (hrest : rest ≠ [])
    (htaken : w.selection.takes (Text.join ['/'] (front ++ rest)) = true) :
    w.selection.enters (Text.join ['/'] front) = true := by
  have hlines := hnamed.lines.of_at? hnode
  obtain ⟨name, front, rfl⟩ := List.exists_cons_of_ne_nil hfront
  have hname : Glob.KeepsFront name := by
    rw [List.cons_append] at hnode
    obtain ⟨m, hmem, hm⟩ := (FileNode.at?_cons_eq_some hroot).1 hnode
    obtain ⟨next, more, hnext⟩ :=
      List.exists_cons_of_ne_nil (List.append_ne_nil_of_right_ne_nil front hrest)
    rw [hnext] at hm
    obtain ⟨es, rfl⟩ := FileNode.exists_directory_of_at?_cons hm
    exact hnamed.directories name es hmem
  have hsplit : Text.join ['/'] (name :: front ++ rest)
      = Text.join ['/'] (name :: front) ++ '/' :: Text.join ['/'] rest := by
    rw [Text.join_append _ hfront hrest, List.append_assoc]
    rfl
  by_contra hpruned
  have hignored : w.selection.isIgnored (Text.join ['/'] (name :: front))
      = true := by
    simpa [Selection.enters] using hpruned
  have hbelow := hdeep.isIgnored_below (Glob.keepsFront_join hname front)
    (feed_notMem_join fun x hx => hlines x (List.mem_append_left _ hx))
    (feed_notMem_join fun x hx => hlines x (List.mem_append_right _ hx)) hignored
  rw [← hsplit] at hbelow
  rw [Selection.takes, hbelow] at htaken
  cases htaken

/-- What is eligible is what is there and taken. -/
theorem eligible_iff_unpruned
    (hroot : (FileNode.directory (w.listing w.root)).WellFormed)
    (hnamed : w.PlainlyNamed) (hdeep : w.selection.IgnoresDeeply) :
    w.Eligible names ↔ w.unpruned.Eligible names
      ∧ w.selection.takes (Text.join ['/'] names) = true := by
  constructor
  · intro h
    exact ⟨⟨h.node, fun _ _ _ _ _ => rfl, rfl⟩, h.taken⟩
  · intro h
    obtain ⟨⟨hnode, -, -⟩, htaken⟩ := h
    refine ⟨hnode, fun front rest he hfront hrest => ?_, htaken⟩
    obtain ⟨n, hn, -⟩ := hnode
    subst he
    exact enters_of_takes hroot hnamed hdeep hn hfront hrest htaken

/-- The files that a walk takes below the root are those that are there and
taken. -/
theorem filesBelow_perm_unpruned
    (hroot : (FileNode.directory (w.listing w.root)).WellFormed)
    (hnamed : w.PlainlyNamed) (hdeep : w.selection.IgnoresDeeply) :
    (w.filesBelow w.root (w.listing w.root)).Perm
      ((w.unpruned.filesBelow w.root (w.listing w.root)).filter w.takes) := by
  have hnodup : (w.filesBelow w.root (w.listing w.root)).Nodup :=
    (nodup_filesBelow hroot).of_map _
  have hnodup' : (w.unpruned.filesBelow w.root (w.listing w.root)).Nodup :=
    (nodup_filesBelow hroot).of_map _
  have hall : ∀ f, f ∈ w.unpruned.filesBelow w.root (w.listing w.root)
      ↔ ∃ names, f = Path.below w.root names ∧ w.unpruned.Eligible names :=
    fun f => mem_filesBelow_root (w := w.unpruned) hroot
  have htakes : ∀ names, w.unpruned.Eligible names →
      w.takes (Path.below w.root names)
        = w.selection.takes (Text.join ['/'] names) := by
    intro names h
    obtain ⟨n, hn, -⟩ := h.node
    unfold takes
    rw [Path.relativeTo_below fun x hx =>
      (hroot.isEntryName_of_at? hn x hx).toIsName]
  refine (List.perm_ext_iff_of_nodup hnodup (hnodup'.filter _)).2 fun f => ?_
  rw [List.mem_filter, mem_filesBelow_root hroot, hall]
  constructor
  · intro h
    obtain ⟨names, rfl, h⟩ := h
    obtain ⟨hthere, htaken⟩ := (eligible_iff_unpruned hroot hnamed hdeep).1 h
    exact ⟨⟨names, rfl, hthere⟩, (htakes names hthere).trans htaken⟩
  · intro h
    obtain ⟨⟨names, rfl, hthere⟩, htaken⟩ := h
    rw [htakes names hthere] at htaken
    exact ⟨names, rfl, (eligible_iff_unpruned hroot hnamed hdeep).2
      ⟨hthere, htaken⟩⟩

/-- With a path of one line, without a backslash and with a name in front, a
deep glob matches everything on one line below it. Hence, when all ignore
globs are deep and names of entries are plain, a walk takes what is there
and taken by the selection, whatever directories it does not enter. -/
theorem pruning_drops_nothing :
    (∀ glob path more : Text, Glob.IsDeep glob →
      path ≠ [] → '\n' ∉ path → '\\' ∉ path →
      Text.before '/' path ≠ [] → Text.before '/' path ≠ ['.'] →
      '\n' ∉ more →
      (Glob.compile glob).isMatch path = true →
        (Glob.compile glob).isMatch (path ++ '/' :: more) = true)
    ∧ ∀ w : Walk, w.fs.WellFormed → w.PlainlyNamed →
      w.selection.IgnoresDeeply →
        w.collect = w.unpruned.collect.filter w.takes := by
  constructor
  · intro glob path more hdeep _ hpath hback hfirst hhere hmore hmatch
    exact hdeep.isMatch_below (Glob.keepsFront_of_before hback hfirst hhere) hpath
      hmore hmatch
  · intro w hfs hnamed hdeep
    have hroot := listing_wellFormed hfs w.root
    have hperm := filesBelow_perm_unpruned hroot hnamed hdeep
    calc w.collect
        = ((w.unpruned.filesBelow w.root (w.listing w.root)).filter
            w.takes).mergeSort Path.le :=
          Path.mergeSort_eq_of_perm hperm (nodup_filesBelow hroot)
      _ = w.unpruned.collect.filter w.takes :=
          Path.mergeSort_filter w.takes (nodup_filesBelow hroot)

theorem plainlyNamed_linkedFiles : linkedFiles.PlainlyNamed := by
  refine ⟨?_, fun name es hmem => ?_⟩
  · rw [listing_linkedFiles]
    refine .directory (by decide) ?_
    simp only [linkedEntries, List.forall_mem_cons]
    refine ⟨.file, .directory (by decide) ?_, .link, .link, by simp⟩
    simp only [List.forall_mem_cons]
    exact ⟨.file, by simp⟩
  · rw [listing_linkedFiles] at hmem
    simp only [linkedEntries, List.mem_cons, Prod.mk.injEq, reduceCtorEq,
      and_false, List.not_mem_nil, or_false, false_or] at hmem
    rw [hmem.1]
    decide

/-- Deep globs ignore deeply, whatever the includes. -/
theorem ignoresDeeply_ofGlobs {globs : List Text} (includes : List Text)
    (h : ∀ glob ∈ globs, Glob.IsDeep glob) :
    (Selection.ofGlobs globs includes).IgnoresDeeply := by
  intro g hg
  rw [Selection.ofGlobs_eq] at hg
  obtain ⟨glob, hmem, rfl⟩ := List.mem_map.1 hg
  exact ⟨glob, rfl, h glob (Selection.mem_flatMap_given_iff.1 hmem).1⟩

/-- What is built is matched with its directory, and the directory that the
walk does not enter holds nothing to take. -/
theorem pruning_drops_nothing_of_linkedFiles :
    Glob.IsDeep "src/**/build/".toList
      ∧ (Glob.compile "src/**/build/".toList).isMatch
        "src/a/build/x.o".toList = true
      ∧ linkedFiles.fs.WellFormed ∧ linkedFiles.PlainlyNamed
      ∧ linkedFiles.selection.IgnoresDeeply
      ∧ linkedFiles.collect
        = linkedFiles.unpruned.collect.filter linkedFiles.takes := by
  have hdeep : Glob.IsDeep "src/**/build/".toList :=
    ⟨Or.inl (by decide), by decide⟩
  have hselection : linkedFiles.selection.IgnoresDeeply :=
    ignoresDeeply_ofGlobs _ fun glob hglob => by
      rw [List.mem_singleton.1 hglob]
      exact ⟨Or.inl (by decide), by decide⟩
  refine ⟨hdeep, ?_, wellFormed_linkedFiles, plainlyNamed_linkedFiles,
    hselection, ?_⟩
  · exact pruning_drops_nothing.1 "src/**/build/".toList "src/a/build".toList
      "x.o".toList hdeep (by decide) (by decide) (by decide) (by decide)
      (by decide) (by decide) (by decide)
  · exact pruning_drops_nothing.2 linkedFiles wellFormed_linkedFiles
      plainlyNamed_linkedFiles hselection

/-- A directory that is called by a backslash, with a file in it. -/
def backslashEntries : Entries := [
  ("\\".toList, .directory [("f".toList, .file [] 0)])]

/-- The walk that ignores the root. -/
def backslashFiles : Walk where
  fs := { top := [("r".toList, .directory backslashEntries)], here := [] }
  root := "/r"
  selection := .ofGlobs ["/"] []
  followLinks := false

theorem wellFormed_backslashFiles : backslashFiles.fs.WellFormed := by
  have hentries : (FileNode.directory backslashEntries).WellFormed := by
    refine .directory (by decide) (by decide) ?_
    simp only [backslashEntries, List.forall_mem_cons]
    refine ⟨.directory (by decide) (by decide) ?_, by simp⟩
    simp only [List.forall_mem_cons]
    exact ⟨.file, by simp⟩
  refine .directory (by decide) (by decide) ?_
  simp only [backslashFiles, List.forall_mem_cons]
  exact ⟨hentries, by simp⟩

theorem listing_backslashFiles :
    backslashFiles.listing backslashFiles.root = backslashEntries := by
  simp [listing, backslashFiles, isStandardInput, FileSystem.entries,
    FileSystem.find, FileSystem.follow, Path.isAbsolute, Text.splitOn,
    Trail.follow, Trail.entries, Trail.enter, Text.byteSize, nameLimit,
    show 'r'.utf8Size = 1 from rfl]

/-- The directory is seen as the root, which is ignored, and so is not entered;
the file in it is taken, but not found. -/
theorem pruning_drops_file_below_backslash :
    backslashFiles.fs.WellFormed
      ∧ (FileNode.directory
          (backslashFiles.listing backslashFiles.root)).Named ('\n' ∉ ·)
      ∧ backslashFiles.selection.IgnoresDeeply
      ∧ "/r/\\/f".toList
        ∈ backslashFiles.unpruned.collect.filter backslashFiles.takes
      ∧ "/r/\\/f".toList ∉ backslashFiles.collect := by
  refine ⟨wellFormed_backslashFiles, ?_, ?_, ?_, ?_⟩
  · rw [listing_backslashFiles]
    refine .directory (by decide) ?_
    simp only [backslashEntries, List.forall_mem_cons]
    refine ⟨.directory (by decide) ?_, by simp⟩
    simp only [List.forall_mem_cons]
    exact ⟨.file, by simp⟩
  · refine ignoresDeeply_ofGlobs _ fun glob hglob => ?_
    rw [List.mem_singleton.1 hglob]
    exact ⟨Or.inl (by decide), by decide⟩
  · have hroot := listing_wellFormed wellFormed_backslashFiles "/r".toList
    have hthere : backslashFiles.unpruned.Eligible ["\\".toList, "f".toList] := by
      refine ⟨⟨.file [] 0, ?_, Or.inl ⟨_, _, rfl⟩⟩, fun _ _ _ _ _ => rfl, rfl⟩
      show (FileNode.directory (backslashFiles.listing backslashFiles.root)).at? _ = _
      rw [listing_backslashFiles]
      rfl
    have hfile : "/r/\\/f".toList = Path.below backslashFiles.unpruned.root
        ["\\".toList, "f".toList] := by decide
    have hfound := (mem_filesBelow_root (w := backslashFiles.unpruned) hroot).2
      ⟨_, hfile, hthere⟩
    rw [List.mem_filter, collect, List.mem_mergeSort]
    exact ⟨hfound, by decide⟩
  · have hpruned : backslashFiles.filesBelow backslashFiles.root backslashEntries
        = [] := by
      have henters : backslashFiles.enters
          (Path.join backslashFiles.root "\\".toList) = false := by decide
      rw [filesBelow_eq_flatMap, backslashEntries, List.flatMap_singleton,
        filesAt_directory, henters]
      rfl
    rw [collect, List.mem_mergeSort, listing_backslashFiles, hpruned]
    exact List.not_mem_nil

end Walk

end SourceDigest
