/-
What a walk takes.

The walk is a recursion over a tree of nodes, whereas what it should take
is said of one file at a time: the file is a file or counts as one, every
directory between the root and the file is a real directory that the
selection enters, and the selection takes the file (`Walk.Eligible`). The
two are the same on every well-formed file system
(`collect_gives_eligible`).

# How

`Walk.Found` says the same of a path below any node, so that going from a
directory to one of its entries takes one name off the front
(`found_cons`). The walk from a node then takes the paths that are found
below it (`mem_filesAt`), by induction on the tree. No two of them have
the same parts (`nodup_filesAt`), because entries of one directory differ
in their names, so sorting the list leaves nothing open.
-/
import Mathlib
import SourceDigest.Proofs.Files.Trees
import SourceDigest.Proofs.Path.Order

namespace SourceDigest

/-- The node that some names lead to, each the name of an entry of a real
directory. -/
def FileNode.at? (n : FileNode) : List Text → Option FileNode
  | [] => some n
  | name :: names =>
    match n with
    | .directory es => (es.lookup name).bind fun m => m.at? names
    | _ => none

namespace FileNode

variable {n m : FileNode} {es : Entries} {name : Text} {names : List Text}

theorem at?_nil (n : FileNode) : n.at? [] = some n := by
  unfold at?
  rfl

/-- In a directory the first name is looked up, and the others below it. -/
theorem at?_directory (es : Entries) (name : Text) (names : List Text) :
    (directory es).at? (name :: names)
      = (es.lookup name).bind fun m => m.at? names := by
  rw [at?]

/-- Only below a directory is there a node. -/
theorem exists_directory_of_at?_cons (h : n.at? (name :: names) = some m) :
    ∃ es, n = directory es := by
  cases n with
  | directory es => exact ⟨es, rfl⟩
  | file _ _ =>
      unfold at? at h
      cases h
  | link _ =>
      unfold at? at h
      cases h

/-- An entry is reached through the one entry that has the first name. -/
theorem at?_cons_eq_some (hn : (directory es).WellFormed) :
    (directory es).at? (name :: names) = some m
      ↔ ∃ n, (name, n) ∈ es ∧ n.at? names = some m := by
  rw [at?_directory, Option.bind_eq_some_iff]
  refine exists_congr fun n => and_congr_left fun _ => ?_
  exact ⟨mem_of_lookup_eq, hn.lookup_eq⟩

/-- A node below a well-formed one is well-formed, and the names that lead to
it are names of entries. -/
private theorem WellFormed.at?_and_isEntryName (hn : n.WellFormed)
    (h : n.at? names = some m) :
    m.WellFormed ∧ ∀ x ∈ names, IsEntryName x := by
  induction names generalizing n with
  | nil =>
      rw [at?_nil, Option.some.injEq] at h
      exact ⟨h ▸ hn, by simp⟩
  | cons name names ih =>
      obtain ⟨es, rfl⟩ := exists_directory_of_at?_cons h
      obtain ⟨k, hmem, hk⟩ := (at?_cons_eq_some hn).1 h
      obtain ⟨hm, hnames⟩ := ih (hn.of_mem hmem) hk
      exact ⟨hm, List.forall_mem_cons.2 ⟨hn.isEntryName hmem, hnames⟩⟩

/-- What is reached from a well-formed entry is well-formed. -/
theorem WellFormed.at? (hn : n.WellFormed) (h : n.at? names = some m) :
    m.WellFormed :=
  (hn.at?_and_isEntryName h).1

/-- Along the way there are names of entries only. -/
theorem WellFormed.isEntryName_of_at? (hn : n.WellFormed)
    (h : n.at? names = some m) :
    ∀ x ∈ names, IsEntryName x := (hn.at?_and_isEntryName h).2

end FileNode

namespace Walk

variable {w : Walk} {path f : Path} {n : FileNode} {es : Entries} {name : Text}
  {names : List Text}

-- ================================================================ found paths

/-- What the walk from a node at a path is to take: some names lead to what
counts as a file and is taken, and the directory at each place on the way
is entered. -/
structure Found (w : Walk) (path : Path) (n : FileNode)
    (names : List Text) : Prop where
  node : ∃ m, n.at? names = some m ∧ w.isFile (Path.below path names) m = true
  entered : ∀ front rest, names = front ++ rest → rest ≠ [] →
    w.enters (Path.below path front) = true
  taken : w.takes (Path.below path names) = true

/-- At its own path an entry is found if it is a file that is taken. -/
theorem found_nil :
    w.Found path n [] ↔ w.isFile path n = true ∧ w.takes path = true := by
  constructor
  · intro h
    obtain ⟨⟨m, hm, hfile⟩, -, htaken⟩ := h
    rw [FileNode.at?_nil, Option.some.injEq] at hm
    subst hm
    exact ⟨hfile, htaken⟩
  · intro h
    refine ⟨⟨n, FileNode.at?_nil n, h.1⟩, fun front rest he hrest => ?_, h.2⟩
    exact absurd (List.append_eq_nil_iff.1 he.symm).2 hrest

/-- What is found below a directory is found below one of its entries, and
the directory is entered. -/
theorem found_cons (hn : (FileNode.directory es).WellFormed) :
    w.Found path (.directory es) (name :: names)
      ↔ w.enters path = true
        ∧ ∃ n, (name, n) ∈ es ∧ w.Found (Path.join path name) n names := by
  constructor
  · intro h
    obtain ⟨⟨m, hm, hfile⟩, hentered, htaken⟩ := h
    obtain ⟨n, hmem, hn'⟩ := (FileNode.at?_cons_eq_some hn).1 hm
    refine ⟨hentered [] _ rfl (by simp), n, hmem, ⟨m, hn', hfile⟩, ?_, htaken⟩
    intro front rest he hrest
    exact hentered (name :: front) rest (by rw [he, List.cons_append]) hrest
  · intro h
    obtain ⟨henter, n, hmem, ⟨m, hm, hfile⟩, hentered, htaken⟩ := h
    refine ⟨⟨m, (FileNode.at?_cons_eq_some hn).2 ⟨n, hmem, hm⟩, hfile⟩,
      ?_, htaken⟩
    intro front rest he hrest
    cases front with
    | nil => exact henter
    | cons name' front =>
        obtain ⟨rfl, hrest'⟩ := List.cons.inj he
        exact hentered front rest hrest' hrest

/-- Nothing is found below what is no directory. -/
theorem exists_directory_of_found_cons (h : w.Found path n (name :: names)) :
    ∃ es, n = .directory es := by
  obtain ⟨m, hm, -⟩ := h.node
  exact FileNode.exists_directory_of_at?_cons hm

/-- What is found is reached by names. -/
theorem Found.isName (hn : n.WellFormed) (h : w.Found path n names) :
    ∀ x ∈ names, Path.IsName x := by
  obtain ⟨m, hm, -⟩ := h.node
  exact fun x hx => (hn.isEntryName_of_at? hm x hx).toIsName

-- =============================================================== taken paths

/-- The files of a directory are those of its entries, one after the other. -/
theorem filesBelow_eq_flatMap (w : Walk) (dir : Path) (es : Entries) :
    w.filesBelow dir es
      = es.flatMap fun e => w.filesAt (Path.join dir e.1) e.2 := by
  induction es with
  | nil => rw [filesBelow, List.flatMap_nil]
  | cons e es ih => rw [filesBelow, ih, List.flatMap_cons]

/-- Below a directory there is nothing unless it is entered. -/
theorem filesAt_directory (w : Walk) (path : Path) (es : Entries) :
    w.filesAt path (.directory es)
      = if w.enters path then w.filesBelow path es else [] := by
  rw [filesAt]

/-- What is no directory is taken or not. -/
theorem filesAt_of_ne_directory (w : Walk) (path : Path)
    (hn : ∀ es, n ≠ .directory es) :
    w.filesAt path n
      = if w.isFile path n && w.takes path then [path] else [] := by
  cases n with
  | directory es => exact absurd rfl (hn es)
  | file _ _ => rw [filesAt]
  | link _ => rw [filesAt]

/-- The walk from what is no directory takes at most the path it is at. -/
private theorem mem_filesAt_of_ne_directory (hn : ∀ es, n ≠ .directory es) :
    f ∈ w.filesAt path n
      ↔ ∃ names, f = Path.below path names ∧ w.Found path n names := by
  rw [filesAt_of_ne_directory w path hn]
  constructor
  · intro h
    by_cases htaken : (w.isFile path n && w.takes path) = true
    · rw [if_pos htaken, List.mem_singleton] at h
      exact ⟨[], h, found_nil.2 (Bool.and_eq_true_iff.1 htaken)⟩
    · rw [if_neg htaken] at h
      cases h
  · intro h
    obtain ⟨names, rfl, hfound⟩ := h
    cases names with
    | nil =>
        rw [if_pos (Bool.and_eq_true_iff.2 (found_nil.1 hfound))]
        exact List.mem_singleton.2 rfl
    | cons name names =>
        obtain ⟨es, hes⟩ := exists_directory_of_found_cons hfound
        exact absurd hes (hn es)

/-- The walk from a node takes the paths that are found below it. -/
theorem mem_filesAt (hn : n.WellFormed) :
    f ∈ w.filesAt path n
      ↔ ∃ names, f = Path.below path names ∧ w.Found path n names := by
  induction hn generalizing path with
  | directory hnodup hnames hnodes ih =>
      rename_i es
      have hn : (FileNode.directory es).WellFormed :=
        .directory hnodup hnames hnodes
      rw [filesAt_directory]
      constructor
      · intro h
        by_cases henter : w.enters path = true
        · rw [if_pos henter, filesBelow_eq_flatMap, List.mem_flatMap] at h
          obtain ⟨e, he, hf⟩ := h
          obtain ⟨names, rfl, hfound⟩ := (ih e he).1 hf
          exact ⟨e.1 :: names, rfl, (found_cons hn).2 ⟨henter, e.2, he, hfound⟩⟩
        · rw [if_neg henter] at h
          cases h
      · intro h
        obtain ⟨names, rfl, hfound⟩ := h
        cases names with
        | nil => exact absurd (found_nil.1 hfound).1 Bool.false_ne_true
        | cons name names =>
            obtain ⟨henter, m, hmem, hm⟩ := (found_cons hn).1 hfound
            rw [if_pos henter, filesBelow_eq_flatMap, List.mem_flatMap]
            exact ⟨(name, m), hmem, (ih _ hmem).2 ⟨names, rfl, hm⟩⟩
  | file => exact mem_filesAt_of_ne_directory fun es he => by cases he
  | link => exact mem_filesAt_of_ne_directory fun es he => by cases he

/-- A path that is taken at an entry of a directory has the name of the entry
after the parts of the directory. -/
theorem parts_of_mem_filesAt_join (hname : Path.IsName name) (hn : n.WellFormed)
    (h : f ∈ w.filesAt (Path.join path name) n) :
    ∃ more, Path.parts f = Path.parts path ++ .name name :: more := by
  obtain ⟨names, rfl, hfound⟩ := (mem_filesAt hn).1 h
  refine ⟨names.map .name, ?_⟩
  rw [Path.parts_below (hfound.isName hn), Path.parts_join path hname,
    List.append_assoc, List.singleton_append]

/-- No two paths that are taken below a directory have the same parts, when
this holds at each of its entries. -/
private theorem nodup_filesBelow_of_entries
    (hn : (FileNode.directory es).WellFormed)
    (h : ∀ e ∈ es,
      ((w.filesAt (Path.join path e.1) e.2).map Path.parts).Nodup) :
    ((w.filesBelow path es).map Path.parts).Nodup := by
  rw [filesBelow_eq_flatMap, List.map_flatMap, List.nodup_flatMap]
  refine ⟨h, ?_⟩
  -- entries differ in their names, which stand at one place in the parts
  have hne := List.pairwise_map.1 hn.nodup
  refine hne.imp_of_mem fun {a b} ha hb hab => ?_
  rw [Function.onFun, List.disjoint_left]
  intro ps hpa hpb
  obtain ⟨p, hp, rfl⟩ := List.mem_map.1 hpa
  obtain ⟨q, hq, hqp⟩ := List.mem_map.1 hpb
  obtain ⟨ma, hma⟩ :=
    parts_of_mem_filesAt_join (hn.isEntryName ha).toIsName (hn.of_mem ha) hp
  obtain ⟨mb, hmb⟩ :=
    parts_of_mem_filesAt_join (hn.isEntryName hb).toIsName (hn.of_mem hb) hq
  rw [hma, hmb] at hqp
  have hname := (List.cons.inj (List.append_cancel_left hqp)).1
  exact hab (Path.Part.name.inj hname).symm

/-- No two paths that the walk takes have the same parts. -/
theorem nodup_filesAt (hn : n.WellFormed) :
    ((w.filesAt path n).map Path.parts).Nodup := by
  induction hn generalizing path with
  | directory hnodup hnames hnodes ih =>
      rw [filesAt_directory]
      split
      · exact nodup_filesBelow_of_entries (.directory hnodup hnames hnodes)
          fun e he => ih e he
      · simp
  | file =>
      rw [filesAt]
      split <;> simp
  | link =>
      rw [filesAt]
      split <;> simp

/-- No two paths that are taken below a directory have the same parts. -/
theorem nodup_filesBelow (hn : (FileNode.directory es).WellFormed) :
    ((w.filesBelow path es).map Path.parts).Nodup :=
  nodup_filesBelow_of_entries hn fun _ he => nodup_filesAt (hn.of_mem he)

-- ============================================================ eligible files

/-- What names below the root lead to a path that is to be taken. -/
structure Eligible (w : Walk) (names : List Text) : Prop where
  /-- They lead through real directories to a file, or to a link that leads to
  one when links are followed. -/
  node : ∃ n, (FileNode.directory (w.listing w.root)).at? names = some n
    ∧ ((∃ content modified, n = .file content modified)
      ∨ w.followLinks = true ∧ (∃ target, n = .link target)
        ∧ w.fs.isFile (Path.below w.root names) = true)
  /-- Every directory on the way is entered. -/
  entered : ∀ front rest, names = front ++ rest → front ≠ [] → rest ≠ [] →
    w.selection.enters (Text.join ['/'] front) = true
  taken : w.selection.takes (Text.join ['/'] names) = true

/-- A file is a file, or a link to one if links are followed. -/
theorem isFile_eq_true : w.isFile path n = true
    ↔ (∃ content modified, n = .file content modified)
      ∨ w.followLinks = true ∧ (∃ target, n = .link target)
        ∧ w.fs.isFile path = true := by
  cases n <;> simp [isFile]

/-- A file is eligible when it is found below an entry of the root. -/
theorem eligible_cons
    (hroot : (FileNode.directory (w.listing w.root)).WellFormed) :
    w.Eligible (name :: names)
      ↔ ∃ n, (name, n) ∈ w.listing w.root
        ∧ w.Found (Path.join w.root name) n names := by
  have hsame : ∀ {n}, (name, n) ∈ w.listing w.root →
      (∀ x ∈ names, Path.IsName x) → ∀ front rest, names = front ++ rest →
        Path.relativeTo w.root (Path.below (Path.join w.root name) front)
          = Text.join ['/'] (name :: front) := by
    intro n hmem hnames front rest he
    rw [← Path.below_cons, Path.relativeTo_below]
    intro x hx
    rcases List.mem_cons.1 hx with rfl | hx
    · exact (hroot.isEntryName hmem).toIsName
    · exact hnames x (he ▸ List.mem_append_left rest hx)
  constructor
  · intro h
    obtain ⟨⟨m, hm, hfile⟩, hentered, htaken⟩ := h
    have hnames := hroot.isEntryName_of_at? hm
    obtain ⟨n, hmem, hn⟩ := (FileNode.at?_cons_eq_some hroot).1 hm
    have hrel := hsame hmem fun x hx =>
      (hnames x (List.mem_cons_of_mem _ hx)).toIsName
    refine ⟨n, hmem, ⟨m, hn, isFile_eq_true.2 hfile⟩, ?_, ?_⟩
    · intro front rest he hrest
      unfold enters
      rw [hrel front rest he]
      exact hentered (name :: front) rest (by rw [he, List.cons_append])
        (by simp) hrest
    · unfold takes
      rw [hrel names [] (List.append_nil _).symm]
      exact htaken
  · intro h
    obtain ⟨n, hmem, hfound⟩ := h
    have hrel := hsame hmem (hfound.isName (hroot.of_mem hmem))
    obtain ⟨⟨m, hm, hfile⟩, hentered, htaken⟩ := hfound
    refine ⟨⟨m, (FileNode.at?_cons_eq_some hroot).2 ⟨n, hmem, hm⟩,
      isFile_eq_true.1 hfile⟩, ?_, ?_⟩
    · intro front rest he hfront hrest
      cases front with
      | nil => exact absurd rfl hfront
      | cons name' front =>
          obtain ⟨rfl, he'⟩ := List.cons.inj he
          have h := hentered front rest he' hrest
          unfold enters at h
          rwa [hrel front rest he'] at h
    · unfold takes at htaken
      rwa [hrel names [] (List.append_nil _).symm] at htaken

/-- The root itself is not eligible. -/
theorem not_eligible_nil : ¬ w.Eligible [] := by
  intro h
  obtain ⟨n, hn, hfile⟩ := h.node
  rw [FileNode.at?_nil, Option.some.injEq] at hn
  subst hn
  rcases hfile with ⟨_, _, h⟩ | ⟨-, ⟨_, h⟩, -⟩ <;> cases h

/-- The walk from the root takes the eligible files. -/
theorem mem_filesBelow_root
    (hroot : (FileNode.directory (w.listing w.root)).WellFormed) :
    f ∈ w.filesBelow w.root (w.listing w.root)
      ↔ ∃ names, f = Path.below w.root names ∧ w.Eligible names := by
  rw [filesBelow_eq_flatMap, List.mem_flatMap]
  constructor
  · intro h
    obtain ⟨e, he, hf⟩ := h
    obtain ⟨names, rfl, hfound⟩ := (mem_filesAt (hroot.of_mem he)).1 hf
    exact ⟨e.1 :: names, rfl, (eligible_cons hroot).2 ⟨e.2, he, hfound⟩⟩
  · intro h
    obtain ⟨names, rfl, h⟩ := h
    cases names with
    | nil => exact absurd h not_eligible_nil
    | cons name names =>
        obtain ⟨n, hmem, hfound⟩ := (eligible_cons hroot).1 h
        exact ⟨(name, n), hmem,
          (mem_filesAt (hroot.of_mem hmem)).2 ⟨names, rfl, hfound⟩⟩

-- ============================================================= include globs

/-- The walk with no include globs. -/
def withoutIncludes (w : Walk) : Walk :=
  { w with selection := { w.selection with includes := [] } }

/-- Whether the include globs admit a path, as seen from the root. -/
def includes (w : Walk) (path : Path) : Bool :=
  w.selection.isIncluded (Path.relativeTo w.root path)

/-- A walk takes what it would take without includes, if they include it. -/
theorem takes_eq (w : Walk) (path : Path) :
    w.takes path = (w.withoutIncludes.takes path && w.includes path) := by
  unfold takes includes withoutIncludes Selection.takes Selection.isIgnored
  simp [Selection.isIncluded]

theorem isFile_withoutIncludes (w : Walk) (path : Path) (n : FileNode) :
    w.withoutIncludes.isFile path n = w.isFile path n := by
  cases n <;> rfl

/-- What is no directory is taken or left by its own path. -/
private theorem filesAt_eq_filter_of_ne_directory
    (hn : ∀ es, n ≠ .directory es) :
    w.filesAt path n
      = (w.withoutIncludes.filesAt path n).filter w.includes := by
  rw [filesAt_of_ne_directory w path hn, filesAt_of_ne_directory _ path hn,
    takes_eq, isFile_withoutIncludes]
  by_cases h : w.includes path = true
  · rw [h, Bool.and_true]
    split <;> simp [h]
  · rw [Bool.eq_false_iff.2 h, Bool.and_false, Bool.and_false,
      if_neg Bool.false_ne_true]
    split <;> simp [h]

/-- Include globs take files out and leave directories alone. -/
theorem filesAt_eq_filter (hn : n.WellFormed) :
    w.filesAt path n
      = (w.withoutIncludes.filesAt path n).filter w.includes := by
  induction hn generalizing path with
  | directory _ _ _ ih =>
      rw [filesAt_directory, filesAt_directory]
      show _ = List.filter _ (if w.enters path = true then _ else _)
      split
      · rw [filesBelow_eq_flatMap, filesBelow_eq_flatMap, List.filter_flatMap]
        exact List.flatMap_congr fun e he => ih e he
      · rfl
  | file => exact filesAt_eq_filter_of_ne_directory fun es he => by cases he
  | link => exact filesAt_eq_filter_of_ne_directory fun es he => by cases he

/-- Includes pick from what a directory gives without them. -/
theorem filesBelow_eq_filter (hn : (FileNode.directory es).WellFormed) :
    w.filesBelow path es
      = (w.withoutIncludes.filesBelow path es).filter w.includes := by
  rw [filesBelow_eq_flatMap, filesBelow_eq_flatMap, List.filter_flatMap]
  exact List.flatMap_congr fun e he => filesAt_eq_filter (hn.of_mem he)

-- ================================================================= collection

/-- A walk over a well-formed file system gives the eligible files, in the
order of paths and each once. Include globs take files out of what the
walk without them gives, and so keep no directory from being entered. -/
theorem collect_gives_eligible (w : Walk) (hfs : w.fs.WellFormed) :
    w.collect.Pairwise Path.Lt
      ∧ (∀ f, f ∈ w.collect
        ↔ ∃ names, f = Path.below w.root names ∧ w.Eligible names)
      ∧ w.collect = w.withoutIncludes.collect.filter w.includes := by
  have hroot := listing_wellFormed hfs w.root
  refine ⟨Path.pairwise_lt_mergeSort (nodup_filesBelow hroot), fun f => ?_, ?_⟩
  · unfold collect
    rw [List.mem_mergeSort]
    exact mem_filesBelow_root hroot
  · unfold collect
    rw [filesBelow_eq_filter hroot, Path.mergeSort_filter]
    · rfl
    · exact nodup_filesBelow hroot

/-- A file, a link to it, a directory, and a link to that. -/
def linkedEntries : Entries := [
  ("a.rs".toList, .file [] 0),
  ("d".toList, .directory [("b.rs".toList, .file [] 0)]),
  ("l.rs".toList, .link "a.rs"),
  ("m".toList, .link "d")]

/-- The walk that follows links and passes over the directory. -/
def linkedFiles : Walk where
  fs := { top := [("r".toList, .directory linkedEntries)], here := [] }
  root := "/r"
  selection := .ofGlobs ["d"] ["*.rs"]
  followLinks := true

theorem wellFormed_linkedFiles : linkedFiles.fs.WellFormed := by
  have hentries : (FileNode.directory linkedEntries).WellFormed := by
    refine .directory (by decide) (by decide) ?_
    simp only [linkedEntries, List.forall_mem_cons]
    refine ⟨.file, .directory (by decide) (by decide) ?_, .link, .link, by simp⟩
    simp only [List.forall_mem_cons]
    exact ⟨.file, by simp⟩
  refine .directory (by decide) (by decide) ?_
  simp only [linkedFiles, List.forall_mem_cons]
  exact ⟨hentries, by simp⟩

theorem listing_linkedFiles :
    linkedFiles.listing linkedFiles.root = linkedEntries := by
  simp [listing, linkedFiles, isStandardInput, FileSystem.entries,
    FileSystem.find, FileSystem.follow, Path.isAbsolute, Text.splitOn,
    Trail.follow, Trail.entries, Trail.enter, Text.byteSize, nameLimit,
    show 'r'.utf8Size = 1 from rfl]

/-- The link to the file is taken. -/
theorem collect_gives_linked_file :
    linkedFiles.fs.WellFormed ∧ "/r/l.rs".toList ∈ linkedFiles.collect := by
  have hlink : linkedFiles.fs.isFile
      (Path.below linkedFiles.root ["l.rs".toList]) = true := by
    rw [show Path.below linkedFiles.root ["l.rs".toList]
        = "/r/l.rs".toList by decide]
    simp [linkedFiles, linkedEntries, FileSystem.isFile, FileSystem.find,
      FileSystem.follow, Path.isAbsolute, Text.splitOn, Trail.follow,
      Trail.entries, Trail.enter, List.lookup, Text.byteSize, nameLimit,
      linkLimit, show 'r'.utf8Size = 1 from rfl, show 'l'.utf8Size = 1 from rfl,
      show '.'.utf8Size = 1 from rfl, show 's'.utf8Size = 1 from rfl,
      show 'a'.utf8Size = 1 from rfl]
  refine ⟨wellFormed_linkedFiles, ?_⟩
  refine ((collect_gives_eligible linkedFiles wellFormed_linkedFiles).2.1 _).2
    ⟨["l.rs".toList], by decide, ?_, ?_, by decide⟩
  · rw [listing_linkedFiles]
    exact ⟨.link "a.rs", rfl, Or.inr ⟨rfl, ⟨_, rfl⟩, hlink⟩⟩
  · intro front rest he hfront hrest
    have hlen := congrArg List.length he
    rw [List.length_singleton, List.length_append] at hlen
    have := List.length_pos_iff.2 hfront
    have := List.length_pos_iff.2 hrest
    omega

/-- A file, and a directory with a file in it. -/
def nestedEntries : Entries := [
  ("a.py".toList, .file [] 0),
  ("d".toList, .directory [("b.py".toList, .file [] 0)])]

/-- The walk that takes both files. -/
def nestedFiles : Walk where
  fs := { top := [("r".toList, .directory nestedEntries)], here := [] }
  root := "/r"
  selection := .empty
  followLinks := true

theorem wellFormed_nestedFiles : nestedFiles.fs.WellFormed := by
  have hentries : (FileNode.directory nestedEntries).WellFormed := by
    refine .directory (by decide) (by decide) ?_
    simp only [nestedEntries, List.forall_mem_cons]
    refine ⟨.file, .directory (by decide) (by decide) ?_, by simp⟩
    simp only [List.forall_mem_cons]
    exact ⟨.file, by simp⟩
  refine .directory (by decide) (by decide) ?_
  simp only [nestedFiles, List.forall_mem_cons]
  exact ⟨hentries, by simp⟩

/-- Each entry is found under its path. -/
theorem find_nestedFiles :
    nestedFiles.fs.find "/r" = .ok (.directory nestedEntries)
      ∧ nestedFiles.fs.find "/r/d"
        = .ok (.directory [("b.py".toList, .file [] 0)])
      ∧ nestedFiles.fs.find "/r/a.py" = .ok (.file [] 0)
      ∧ nestedFiles.fs.find "/r/d/b.py" = .ok (.file [] 0) := by
  simp [nestedFiles, nestedEntries, FileSystem.find, FileSystem.follow,
    Path.isAbsolute, Text.splitOn, Trail.follow, Trail.entries, Trail.enter,
    List.lookup, Text.byteSize, nameLimit, show 'r'.utf8Size = 1 from rfl,
    show 'a'.utf8Size = 1 from rfl, show '.'.utf8Size = 1 from rfl,
    show 'p'.utf8Size = 1 from rfl, show 'y'.utf8Size = 1 from rfl,
    show 'd'.utf8Size = 1 from rfl, show 'b'.utf8Size = 1 from rfl]

theorem listing_nestedFiles :
    nestedFiles.listing "/r" = nestedEntries
      ∧ nestedFiles.listing "/r/d" = [("b.py".toList, .file [] 0)] := by
  unfold listing FileSystem.entries
  rw [find_nestedFiles.1, find_nestedFiles.2.1]
  exact ⟨rfl, rfl⟩

/-- Both files are collected, the one in the root and the one below. -/
theorem collect_nestedFiles :
    nestedFiles.collect = ["/r/a.py".toList, "/r/d/b.py".toList] := by
  unfold collect
  rw [show nestedFiles.listing nestedFiles.root = nestedEntries from
    listing_nestedFiles.1]
  exact List.mergeSort_of_pairwise (by decide)

end Walk

end SourceDigest
