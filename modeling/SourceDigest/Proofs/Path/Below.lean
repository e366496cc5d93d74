/-
Paths below a directory: what joining a name does to the parts of a path.

A name is what a directory's entry may be called. Joined to any path it
adds one part (`parts_join`), however that path is spelled, so the path
reached by a list of names has the parts of the start and then the names
(`parts_below`). From there on paths below a root and lists of names are
the same: no two lists lead to one path (`below_injective`), and a path
seen from the root is its list written out (`relativeTo_below`).
-/
import Mathlib
import SourceDigest.Path
import SourceDigest.Proofs.Text.Pieces

namespace SourceDigest

namespace Path

/-- What an entry of a directory may be called. -/
structure IsName (n : Text) : Prop where
  ne_nil : n ≠ []
  notMem_slash : '/' ∉ n
  ne_here : n ≠ ['.']
  ne_up : n ≠ ['.', '.']

instance (n : Text) : Decidable (IsName n) :=
  decidable_of_iff (n ≠ [] ∧ '/' ∉ n ∧ n ≠ ['.'] ∧ n ≠ ['.', '.'])
    ⟨fun h => ⟨h.1, h.2.1, h.2.2.1, h.2.2.2⟩, fun h => ⟨h.1, h.2, h.3, h.4⟩⟩

/-- The path that some names lead to, one below the other. -/
def below (root : Path) (names : List Text) : Path := names.foldl join root

variable {dir root p : Path} {n : Text} {names : List Text} {a : Part}

theorem below_nil (root : Path) : below root [] = root := rfl

theorem below_cons (root : Path) (n : Text) (names : List Text) :
    below root (n :: names) = below (join root n) names := rfl

theorem below_append (root : Path) (ms ns : List Text) :
    below root (ms ++ ns) = below (below root ms) ns := by
  unfold below
  rw [List.foldl_append]

/-- The last name is joined last. -/
theorem below_concat (root : Path) (names : List Text) (n : Text) :
    below root (names ++ [n]) = join (below root names) n :=
  below_append root names [n]

-- ==================================================================== joining

/-- A name does not begin with a slash. -/
theorem IsName.not_isAbsolute (hn : IsName n) : isAbsolute n = false := by
  unfold isAbsolute
  cases n with
  | nil => rfl
  | cons c n =>
      have hc : c ≠ '/' := fun he =>
        hn.notMem_slash (he ▸ List.mem_cons_self ..)
      simpa using hc

/-- A name is a part of its own. -/
theorem IsName.ofInner? (hn : IsName n) : Part.ofInner? n = some (.name n) := by
  unfold Part.ofInner?
  rw [if_neg (by simp [hn.ne_nil, hn.ne_here]), if_neg hn.ne_up]

theorem join_nil (hn : IsName n) : join [] n = n := by
  unfold join
  rw [hn.not_isAbsolute]
  simp

/-- A slash stands before a relative path that is joined to another. -/
theorem join_eq_append (hdir : dir ≠ []) (hp : isAbsolute p = false) :
    ∃ d, join dir p = d ++ '/' :: p ∧ (dir = d ∨ dir = d ++ ['/']) := by
  unfold join
  rw [hp, if_neg Bool.false_ne_true, if_neg hdir]
  by_cases hlast : dir.getLast? = some '/'
  · obtain ⟨d, rfl⟩ := List.getLast?_eq_some_iff.1 hlast
    refine ⟨d, ?_, Or.inr rfl⟩
    rw [if_pos (by simp), List.append_assoc, List.singleton_append]
  · exact ⟨dir, if_neg (by simpa using hlast), Or.inl rfl⟩

/-- Where a path starts does not depend on what is joined to it. -/
theorem isAbsolute_join (hdir : dir ≠ []) (hp : isAbsolute p = false) :
    isAbsolute (join dir p) = isAbsolute dir := by
  obtain ⟨d, hd, hdir'⟩ := join_eq_append hdir hp
  rw [hd]
  rcases hdir' with rfl | rfl
  · cases dir with
    | nil => exact absurd rfl hdir
    | cons c dir => rfl
  · cases d <;> rfl

theorem join_ne_nil (hn : IsName n) : join dir n ≠ [] := by
  by_cases hdir : dir = []
  · rw [hdir, join_nil hn]
    exact hn.ne_nil
  · obtain ⟨d, hd, -⟩ := join_eq_append hdir hn.not_isAbsolute
    rw [hd]
    simp

/-- Behind a directory a name stands behind a slash. -/
theorem slash_mem_join (hdir : dir ≠ []) (hn : IsName n) :
    '/' ∈ join dir n := by
  obtain ⟨d, hd, -⟩ := join_eq_append hdir hn.not_isAbsolute
  rw [hd]
  simp

/-- The pieces of a path with another joined to it: those of the path, less
the empty one after a slash at its end, and those of the other. -/
theorem splitOn_join (hdir : dir ≠ []) (hp : isAbsolute p = false) :
    ∃ front blanks,
      Text.splitOn '/' dir = front ++ blanks ∧ (blanks = [] ∨ blanks = [[]])
      ∧ Text.splitOn '/' (join dir p) = front ++ Text.splitOn '/' p
      ∧ front ≠ [] := by
  obtain ⟨d, hjoin, hd⟩ := join_eq_append hdir hp
  have hsplit : Text.splitOn '/' (join dir p)
      = Text.splitOn '/' d ++ Text.splitOn '/' p := by
    rw [hjoin, Text.splitOn_append]
  rcases hd with rfl | rfl
  · exact ⟨_, [], (List.append_nil _).symm, Or.inl rfl, hsplit,
      Text.splitOn_ne_nil _ _⟩
  · exact ⟨_, [[]], Text.splitOn_append '/' d [], Or.inr rfl, hsplit,
      Text.splitOn_ne_nil _ _⟩

/-- The parts that a path adds to one that it is joined to. -/
def innerParts (p : Path) : List Part :=
  (Text.splitOn '/' p).filterMap Part.ofInner?

theorem IsName.innerParts (hn : IsName n) : innerParts n = [.name n] := by
  rw [Path.innerParts, Text.splitOn_of_notMem hn.notMem_slash,
    List.filterMap_cons_some hn.ofInner?, List.filterMap_nil]

/-- A slash at the end adds nothing. -/
private theorem filterMap_blanks {blanks : List Text}
    (h : blanks = [] ∨ blanks = [[]]) :
    blanks.filterMap Part.ofInner? = [] := by
  rcases h with rfl | rfl <;> rfl

/-- What is joined has the parts of both, where the second is relative. -/
theorem innerParts_join (hdir : dir ≠ []) (hp : isAbsolute p = false) :
    innerParts (join dir p) = innerParts dir ++ innerParts p := by
  obtain ⟨front, blanks, hsplit, hblanks, hjoin, -⟩ := splitOn_join hdir hp
  simp only [innerParts, hsplit, hjoin, List.filterMap_append,
    filterMap_blanks hblanks, List.append_nil]

/-- Joining a relative path adds its parts. -/
theorem parts_join_of_relative (hdir : dir ≠ []) (hp : isAbsolute p = false) :
    parts (join dir p) = parts dir ++ innerParts p := by
  obtain ⟨front, blanks, hsplit, hblanks, hjoin, hne⟩ := splitOn_join hdir hp
  obtain ⟨first, inner, rfl⟩ := List.exists_cons_of_ne_nil hne
  have hinner : inner ++ blanks = [] → first ≠ [] := by
    intro h he
    apply hdir
    rw [← Text.join_splitOn '/' dir, hsplit, List.cons_append, h, he,
      Text.join_singleton]
  have hmore : inner ++ Text.splitOn '/' p ≠ [] := by
    simp [Text.splitOn_ne_nil]
  unfold parts innerParts
  rw [hsplit, hjoin]
  simp only [List.cons_append, List.filterMap_append,
    filterMap_blanks hblanks, List.append_nil]
  by_cases hfirst : first = []
  · rw [if_pos hfirst, if_pos hfirst, if_neg hmore,
      if_neg fun h => hinner h hfirst, List.cons_append]
  · rw [if_neg hfirst, if_neg hfirst]
    by_cases hhere : first = ['.']
    · rw [if_pos hhere, if_pos hhere, List.cons_append]
    · rw [if_neg hhere, if_neg hhere, List.append_assoc]

/-- Joining a name adds a part. -/
theorem parts_join (dir : Path) (hn : IsName n) :
    parts (join dir n) = parts dir ++ [.name n] := by
  by_cases hdir : dir = []
  · rw [hdir, join_nil hn]
    unfold parts
    rw [Text.splitOn_of_notMem hn.notMem_slash]
    simp [hn.ne_nil, hn.ne_here, hn.ofInner?, Text.splitOn]
  · rw [parts_join_of_relative hdir hn.not_isAbsolute, hn.innerParts]

-- ====================================================================== below

/-- The parts of a path below a root: those of the root, and the names. -/
theorem parts_below (hnames : ∀ n ∈ names, IsName n) :
    parts (below root names) = parts root ++ names.map .name := by
  induction names generalizing root with
  | nil => rw [below_nil, List.map_nil, List.append_nil]
  | cons n names ih =>
      rw [below_cons, ih fun m hm => hnames m (List.mem_cons_of_mem _ hm),
        parts_join root (hnames n (List.mem_cons_self ..)), List.append_assoc,
        List.singleton_append, List.map_cons]

/-- Names that lead to paths with the same parts are the same names. -/
theorem eq_of_parts_below_eq {ms ns : List Text} (hms : ∀ n ∈ ms, IsName n)
    (hns : ∀ n ∈ ns, IsName n)
    (h : parts (below root ms) = parts (below root ns)) :
    ms = ns := by
  rw [parts_below hms, parts_below hns] at h
  have hinj : Function.Injective Part.name := fun _ _ h => Part.name.inj h
  exact List.map_injective_iff.2 hinj (List.append_cancel_left h)

/-- No two lists of names lead to one path. -/
theorem below_injective {ms ns : List Text} (hms : ∀ n ∈ ms, IsName n)
    (hns : ∀ n ∈ ns, IsName n) (h : below root ms = below root ns) : ms = ns :=
  eq_of_parts_below_eq hms hns (congrArg parts h)

/-- Below its own front are the parts that follow. -/
theorem partsBelow?_append (lead ps : List Part) :
    partsBelow? lead (lead ++ ps) = some ps := by
  induction lead with
  | nil => rfl
  | cons a lead ih => rw [List.cons_append, partsBelow?, if_pos rfl, ih]

/-- A path below a root, seen from the root, is its names written out. -/
theorem relativeTo_below (hnames : ∀ n ∈ names, IsName n) :
    relativeTo root (below root names) = Text.join ['/'] names := by
  unfold relativeTo ofParts
  rw [parts_below hnames, partsBelow?_append, Option.getD_some, List.map_map]
  congr 1
  exact List.map_id'' (fun _ => rfl) names

end Path

end SourceDigest
