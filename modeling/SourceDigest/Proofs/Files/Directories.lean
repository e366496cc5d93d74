/-
The directories that a walk enters, and the walk one directory at a time.

Which directories are entered is said of names below the root, as it is
for files (`Walk.Enterable`). Listing an enterable directory gives the
enterable directories right below it, each once (`mem_dirsIn_below`,
`nodup_dirsIn`), so a directory is found by listing the one above it and
by no other listing (`count_flatMap_dirsIn`).

What the walk takes below a directory is what a listing of it takes and
what the walk takes below the directories that the listing gives
(`filesUnder_perm`). One recursion and many listings thus find the same
files, in whatever order the listings are made.
-/
import Mathlib
import SourceDigest.Files.Collectors
import SourceDigest.Proofs.Files.Walk

namespace SourceDigest

namespace FileNode

variable {n m : FileNode} {es : Entries} {name : Text} {names : List Text}

/-- Names one after the other lead on from where the first of them lead. -/
theorem at?_append (n : FileNode) (front back : List Text) :
    n.at? (front ++ back) = (n.at? front).bind fun m => m.at? back := by
  induction front generalizing n with
  | nil => rfl
  | cons name front ih =>
      cases n with
      | directory es =>
          rw [List.cons_append, at?_directory, at?_directory, Option.bind_assoc]
          exact congrArg _ (funext ih)
      | file _ _ => rfl
      | link _ => rfl

/-- The last name is that of an entry of the directory before it. -/
theorem at?_concat_eq_some (hn : n.WellFormed) :
    n.at? (names ++ [name]) = some m
      ↔ ∃ es, n.at? names = some (.directory es) ∧ (name, m) ∈ es := by
  rw [at?_append, Option.bind_eq_some_iff]
  constructor
  · intro h
    obtain ⟨k, hk, hm⟩ := h
    obtain ⟨es, rfl⟩ := exists_directory_of_at?_cons hm
    obtain ⟨m', hmem, hm'⟩ := (at?_cons_eq_some (hn.at? hk)).1 hm
    rw [at?_nil, Option.some.injEq] at hm'
    exact ⟨es, hk, hm' ▸ hmem⟩
  · intro h
    obtain ⟨es, hes, hmem⟩ := h
    exact ⟨_, hes, (at?_cons_eq_some (hn.at? hes)).2 ⟨m, hmem, at?_nil m⟩⟩

end FileNode

namespace Walk

variable {w : Walk} {dir d : Path} {es : Entries} {name : Text}
  {names : List Text}

-- ===================================================== enterable directories

/-- What names below the root lead to a directory that is to be entered. -/
structure Enterable (w : Walk) (names : List Text) : Prop where
  /-- They lead through real directories to a real directory. -/
  node : ∃ es, (FileNode.directory (w.listing w.root)).at? names
    = some (.directory es)
  /-- The directory itself and every one on the way is entered. -/
  entered : ∀ front rest, names = front ++ rest → front ≠ [] →
    w.selection.enters (Text.join ['/'] front) = true

/-- The root is entered whatever it is. -/
theorem enterable_nil (w : Walk) : w.Enterable [] := by
  refine ⟨⟨_, FileNode.at?_nil _⟩, fun front rest he hfront => ?_⟩
  exact absurd (List.append_eq_nil_iff.1 he.symm).1 hfront

/-- A directory that names lead to is listed as its entries. -/
theorem listing_below (hfs : w.fs.WellFormed)
    (h : (FileNode.directory (w.listing w.root)).at? names
      = some (.directory es)) :
    w.listing (Path.below w.root names) = es := by
  induction names using List.reverseRecOn generalizing es with
  | nil =>
      rw [FileNode.at?_nil, Option.some.injEq, FileNode.directory.injEq] at h
      exact h
  | append_singleton names name ih =>
      obtain ⟨outer, houter, hmem⟩ :=
        (FileNode.at?_concat_eq_some (listing_wellFormed hfs w.root)).1 h
      rw [Path.below_concat]
      exact listing_join hfs (ih houter) hmem

theorem Enterable.isEntryName (hfs : w.fs.WellFormed) (h : w.Enterable names) :
    ∀ x ∈ names, IsEntryName x := by
  obtain ⟨es, hes⟩ := h.node
  exact (listing_wellFormed hfs w.root).isEntryName_of_at? hes

/-- Directories that can be entered are reached by names. -/
theorem Enterable.isName (hfs : w.fs.WellFormed) (h : w.Enterable names) :
    ∀ x ∈ names, Path.IsName x := fun x hx => (h.isEntryName hfs x hx).toIsName

/-- A directory is entered from the one above it. -/
theorem enterable_concat (hfs : w.fs.WellFormed) :
    w.Enterable (names ++ [name])
      ↔ w.Enterable names
        ∧ (∃ inner,
          (name, .directory inner) ∈ w.listing (Path.below w.root names))
        ∧ w.enters (Path.join (Path.below w.root names) name) = true := by
  have hroot := listing_wellFormed hfs w.root
  have hrel : (∀ x ∈ names ++ [name], Path.IsName x) →
      w.enters (Path.join (Path.below w.root names) name)
        = w.selection.enters (Text.join ['/'] (names ++ [name])) := by
    intro hnames
    unfold enters
    rw [← Path.below_concat, Path.relativeTo_below hnames]
  constructor
  · intro h
    obtain ⟨inner, hinner⟩ := h.node
    obtain ⟨es, hes, hmem⟩ := (FileNode.at?_concat_eq_some hroot).1 hinner
    refine ⟨⟨⟨es, hes⟩, fun front rest he => ?_⟩, ⟨inner, ?_⟩, ?_⟩
    · exact h.entered front (rest ++ [name]) (by rw [he, List.append_assoc])
    · rw [listing_below hfs hes]
      exact hmem
    · rw [hrel (h.isName hfs)]
      exact h.entered _ [] (List.append_nil _).symm (by simp)
  · intro h
    obtain ⟨hnames, ⟨inner, hmem⟩, henter⟩ := h
    obtain ⟨es, hes⟩ := hnames.node
    rw [listing_below hfs hes] at hmem
    have hinner := (FileNode.at?_concat_eq_some hroot).2 ⟨es, hes, hmem⟩
    have hentries := hroot.isEntryName_of_at? hinner
    rw [hrel fun x hx => (hentries x hx).toIsName] at henter
    refine ⟨⟨inner, hinner⟩, fun front rest he hfront => ?_⟩
    -- the whole of the names, or a front of all but the last
    rcases List.eq_nil_or_concat' rest with rfl | ⟨rest, last, rfl⟩
    · rw [List.append_nil] at he
      rwa [← he]
    · rw [← List.append_assoc] at he
      exact hnames.entered front rest (List.append_inj_left' he rfl) hfront

-- =================================================================== listings

/-- The directories to enter in a directory. -/
def dirsIn (w : Walk) (dir : Path) : List Path := (w.listDirectory dir).1

/-- The files to take in a directory. -/
def filesIn (w : Walk) (dir : Path) : List Path := (w.listDirectory dir).2

/-- The files to take in a directory and below it. -/
def filesUnder (w : Walk) (dir : Path) : List Path :=
  w.filesBelow dir (w.listing dir)

/-- The directory to enter at an entry, if there is one. -/
def dirAt? (w : Walk) (dir : Path) (e : Text × FileNode) : Option Path :=
  match e.2 with
  | .directory _ =>
    if w.enters (Path.join dir e.1) then some (Path.join dir e.1) else none
  | _ => none

/-- The file to take at an entry, if there is one. -/
def fileAt? (w : Walk) (dir : Path) (e : Text × FileNode) : Option Path :=
  match e.2 with
  | .directory _ => none
  | n =>
    if w.isFile (Path.join dir e.1) n && w.takes (Path.join dir e.1) then
      some (Path.join dir e.1)
    else none

/-- A listing goes through the entries one by one. -/
theorem listDirectory_eq (w : Walk) (dir : Path) :
    w.listDirectory dir
      = ((w.listing dir).filterMap (w.dirAt? dir),
        (w.listing dir).filterMap (w.fileAt? dir)) := by
  unfold listDirectory
  induction w.listing dir with
  | nil => rfl
  | cons e es ih =>
      obtain ⟨name, n⟩ := e
      rw [List.foldr_cons, ih]
      cases n with
      | directory inner =>
          by_cases h : w.enters (Path.join dir name) = true <;>
            simp [List.filterMap_cons, dirAt?, fileAt?, h]
      | file content modified =>
          by_cases h : (w.isFile (Path.join dir name) (.file content modified)
              && w.takes (Path.join dir name)) = true <;>
            simp [List.filterMap_cons, dirAt?, fileAt?, h]
      | link target =>
          by_cases h : (w.isFile (Path.join dir name) (.link target)
              && w.takes (Path.join dir name)) = true <;>
            simp [List.filterMap_cons, dirAt?, fileAt?, h]

/-- The directories put in the queue are those among the entries listed. -/
theorem dirsIn_eq (w : Walk) (dir : Path) :
    w.dirsIn dir = (w.listing dir).filterMap (w.dirAt? dir) := by
  unfold dirsIn
  rw [listDirectory_eq]

/-- The files reported are those among the entries listed. -/
theorem filesIn_eq (w : Walk) (dir : Path) :
    w.filesIn dir = (w.listing dir).filterMap (w.fileAt? dir) := by
  unfold filesIn
  rw [listDirectory_eq]

theorem dirAt?_eq_some {e : Text × FileNode} : w.dirAt? dir e = some d
    ↔ (∃ inner, e.2 = .directory inner) ∧ w.enters (Path.join dir e.1) = true
      ∧ d = Path.join dir e.1 := by
  obtain ⟨name, n⟩ := e
  unfold dirAt?
  constructor
  · intro h
    cases n with
    | directory inner =>
        dsimp only at h
        split at h
        · rename_i henter
          exact ⟨⟨inner, rfl⟩, henter, (Option.some.inj h).symm⟩
        · cases h
    | file _ _ => cases h
    | link _ => cases h
  · intro h
    obtain ⟨⟨inner, rfl⟩, henter, rfl⟩ := h
    exact if_pos henter

/-- A directory is put in the queue if it is listed and entered. -/
theorem mem_dirsIn : d ∈ w.dirsIn dir
    ↔ ∃ name inner, (name, .directory inner) ∈ w.listing dir
      ∧ w.enters (Path.join dir name) = true ∧ d = Path.join dir name := by
  rw [dirsIn_eq, List.mem_filterMap]
  constructor
  · intro h
    obtain ⟨⟨name, n⟩, hmem, h⟩ := h
    obtain ⟨⟨inner, rfl⟩, henter, rfl⟩ := dirAt?_eq_some.1 h
    exact ⟨name, inner, hmem, henter, rfl⟩
  · intro h
    obtain ⟨name, inner, hmem, henter, rfl⟩ := h
    exact ⟨(name, .directory inner), hmem,
      dirAt?_eq_some.2 ⟨⟨inner, rfl⟩, henter, rfl⟩⟩

/-- A listing of an enterable directory gives the enterable directories right
below it. -/
theorem mem_dirsIn_below (hfs : w.fs.WellFormed) (h : w.Enterable names) :
    d ∈ w.dirsIn (Path.below w.root names)
      ↔ ∃ name, d = Path.below w.root (names ++ [name])
        ∧ w.Enterable (names ++ [name]) := by
  rw [mem_dirsIn]
  constructor
  · intro hd
    obtain ⟨name, inner, hmem, henter, rfl⟩ := hd
    exact ⟨name, (Path.below_concat ..).symm,
      (enterable_concat hfs).2 ⟨h, ⟨inner, hmem⟩, henter⟩⟩
  · intro hd
    obtain ⟨name, rfl, hname⟩ := hd
    obtain ⟨-, ⟨inner, hmem⟩, henter⟩ := (enterable_concat hfs).1 hname
    exact ⟨name, inner, hmem, henter, Path.below_concat ..⟩

/-- A listing gives no directory twice. -/
theorem nodup_dirsIn (hfs : w.fs.WellFormed) (dir : Path) :
    (w.dirsIn dir).Nodup := by
  have hwf := listing_wellFormed hfs dir
  rw [dirsIn_eq]
  unfold List.Nodup
  rw [List.pairwise_filterMap]
  have hne := List.pairwise_map.1 hwf.nodup
  refine hne.imp_of_mem fun {a b} ha hb hab p hp q hq he => hab ?_
  obtain ⟨-, -, rfl⟩ := dirAt?_eq_some.1 hp
  obtain ⟨-, -, rfl⟩ := dirAt?_eq_some.1 hq
  have hparts := congrArg Path.parts he
  rw [Path.parts_join dir (hwf.isEntryName ha).toIsName,
    Path.parts_join dir (hwf.isEntryName hb).toIsName] at hparts
  exact Path.Part.name.inj
    (List.singleton_inj.1 (List.append_cancel_left hparts))

/-- Whether a path is one of an enterable directory. -/
def IsEnterable (w : Walk) (d : Path) : Prop :=
  ∃ names, d = Path.below w.root names ∧ w.Enterable names

theorem IsEnterable.of_mem_dirsIn (hfs : w.fs.WellFormed)
    (hdir : w.IsEnterable dir)
    (h : d ∈ w.dirsIn dir) : w.IsEnterable d := by
  obtain ⟨names, rfl, hnames⟩ := hdir
  obtain ⟨name, rfl, hname⟩ := (mem_dirsIn_below hfs hnames).1 h
  exact ⟨names ++ [name], rfl, hname⟩

/-- Among listings of enterable directories, a directory is given as often as
the one above it is listed. -/
theorem count_flatMap_dirsIn (hfs : w.fs.WellFormed) {ds : List Path}
    (hds : ∀ d ∈ ds, w.IsEnterable d) (h : w.Enterable (names ++ [name])) :
    (ds.flatMap w.dirsIn).count (Path.below w.root (names ++ [name]))
      = ds.count (Path.below w.root names) := by
  have hnames := ((enterable_concat hfs).1 h).1
  induction ds with
  | nil => rfl
  | cons d ds ih =>
      obtain ⟨front, rfl, hfront⟩ := hds d (List.mem_cons_self ..)
      rw [List.flatMap_cons, List.count_append,
        ih fun d hd => hds d (List.mem_cons_of_mem _ hd), List.count_cons,
        Nat.add_comm]
      congr 1
      by_cases he : front = names
      · rw [he, beq_self_eq_true, if_pos rfl]
        refine List.count_eq_one_of_mem (nodup_dirsIn hfs _) ?_
        exact (mem_dirsIn_below hfs hnames).2 ⟨name, rfl, h⟩
      · rw [if_neg, List.count_eq_zero]
        · intro hmem
          obtain ⟨name', hbelow, hname'⟩ := (mem_dirsIn_below hfs hfront).1 hmem
          have hsame := Path.below_injective (h.isName hfs)
            (hname'.isName hfs) hbelow
          exact he (List.append_inj_left' hsame rfl).symm
        · intro hbelow
          exact he (Path.below_injective (hfront.isName hfs) (hnames.isName hfs)
            (eq_of_beq hbelow))

/-- No listing of an enterable directory gives the root. -/
theorem count_flatMap_dirsIn_root (hfs : w.fs.WellFormed) {ds : List Path}
    (hds : ∀ d ∈ ds, w.IsEnterable d) :
    (ds.flatMap w.dirsIn).count w.root = 0 := by
  rw [List.count_eq_zero, List.mem_flatMap]
  intro h
  obtain ⟨d, hd, hroot⟩ := h
  obtain ⟨names, rfl, hnames⟩ := hds d hd
  obtain ⟨name, hbelow, hname⟩ := (mem_dirsIn_below hfs hnames).1 hroot
  have hsame := Path.below_injective (w.enterable_nil.isName hfs)
    (hname.isName hfs) hbelow
  simp at hsame

-- ============================================== one directory after the other

/-- What is to be taken at an entry and below it is the file at the entry, or
what is to be taken under the directory there. -/
theorem filesAt_join {e : Text × FileNode} (hfs : w.fs.WellFormed)
    (he : e ∈ w.listing dir) :
    w.filesAt (Path.join dir e.1) e.2
      = (w.fileAt? dir e).toList
        ++ (w.dirAt? dir e).toList.flatMap w.filesUnder := by
  obtain ⟨name, n⟩ := e
  cases n with
  | directory inner =>
      rw [filesAt_directory]
      unfold dirAt? fileAt? filesUnder
      by_cases h : w.enters (Path.join dir name) = true
      · simp [h, listing_join hfs rfl he]
      · simp [h]
  | file content modified =>
      rw [filesAt]
      unfold dirAt? fileAt?
      dsimp only
      split <;> rfl
  | link target =>
      rw [filesAt]
      unfold dirAt? fileAt?
      dsimp only
      split <;> rfl

/-- What is to be taken under a directory is what a listing of it gives and
what is to be taken under the directories that the listing gives. -/
theorem filesUnder_perm (hfs : w.fs.WellFormed) (dir : Path) :
    (w.filesUnder dir).Perm
      (w.filesIn dir ++ (w.dirsIn dir).flatMap w.filesUnder) := by
  have hsplit : w.filesUnder dir = (w.listing dir).flatMap fun e =>
      (w.fileAt? dir e).toList
        ++ (w.dirAt? dir e).toList.flatMap w.filesUnder := by
    unfold filesUnder
    rw [filesBelow_eq_flatMap]
    exact List.flatMap_congr fun e he => filesAt_join hfs he
  rw [hsplit, filesIn_eq, dirsIn_eq, List.filterMap_eq_flatMap_toList,
    List.filterMap_eq_flatMap_toList, List.flatMap_assoc]
  exact (List.flatMap_append_perm ..).symm

end Walk

end SourceDigest
