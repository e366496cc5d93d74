/-
Locations: walking the segments of a path.

A location is walked to segment by segment, and a walk can be taken up
wherever another one ended: below a directory it starts at that directory
(`location?_inDir`). Names go one step down each (`foldlM_step?_names`), a
dot stays, and two dots go up as long as there is something above.
-/
import Mathlib
import SourceDigest.Imports.FileIndex
import SourceDigest.Proofs.Path.Below

namespace SourceDigest

namespace FileIndex

variable {walked dirs names : List Text} {f spec : Text} {index : FileIndex}

-- ====================================================================== steps

/-- An empty segment and a dot stay where they are. -/
theorem step?_stay {s : Text} (hs : s = [] ∨ s = ['.']) (walked : List Text) :
    step? walked s = some walked := if_pos hs

/-- Any segment but these and two dots goes down. -/
theorem step?_down {s : Text} (hnil : s ≠ []) (hhere : s ≠ ['.'])
    (hup : s ≠ ['.', '.']) (walked : List Text) :
    step? walked s = some (s :: walked) := by
  unfold step?
  rw [if_neg (not_or.2 ⟨hnil, hhere⟩), if_neg hup]

/-- A name goes down. -/
theorem step?_name {n : Text} (hn : Path.IsName n) (walked : List Text) :
    step? walked n = some (n :: walked) :=
  step?_down hn.ne_nil hn.ne_here hn.ne_up walked

theorem step?_here (walked : List Text) : step? walked ['.'] = some walked := rfl

theorem step?_up_cons (n : Text) (walked : List Text) :
    step? (n :: walked) ['.', '.'] = some walked := rfl

/-- Names go one step down each. -/
theorem foldlM_step?_names (hnames : ∀ n ∈ names, Path.IsName n)
    (walked : List Text) :
    names.foldlM step? walked = some (names.reverse ++ walked) := by
  induction names generalizing walked with
  | nil => rfl
  | cons n names ih =>
      rw [List.foldlM_cons, step?_name (hnames n (List.mem_cons_self ..))]
      show names.foldlM step? (n :: walked) = _
      rw [ih fun m hm => hnames m (List.mem_cons_of_mem _ hm),
        List.reverse_cons, List.append_assoc, List.singleton_append]

-- ================================================================ directories

/-- Names make up a path that is not empty. -/
theorem join_ne_nil (hnames : ∀ n ∈ names, Path.IsName n) (hne : names ≠ []) :
    Text.join ['/'] names ≠ [] := by
  intro h
  have hsplit := Text.splitOn_join (fun n hn => (hnames n hn).notMem_slash) hne
  rw [h, Text.splitOn] at hsplit
  exact (hnames [] (hsplit ▸ List.mem_singleton_self _)).ne_nil rfl

/-- The walk to a path below a directory starts at the directory. -/
theorem location?_inDir (hdirs : ∀ d ∈ dirs, Path.IsName d) (spec : Text) :
    location? (inDir (Text.join ['/'] dirs) spec)
      = ((Text.splitOn '/' spec).foldlM step? dirs.reverse).map fun walked =>
          Text.join ['/'] walked.reverse := by
  unfold location? inDir
  by_cases hnil : dirs = []
  · rw [hnil]
    rfl
  · rw [if_neg (join_ne_nil hdirs hnil), Text.splitOn_append,
      Text.splitOn_join (fun d hd => (hdirs d hd).notMem_slash) hnil,
      List.foldlM_append, foldlM_step?_names hdirs, List.append_nil]
    rfl

/-- The directory of a file is what its path has in front of the name. -/
theorem parentDir_join (hf : '/' ∉ f) (dirs : List Text) :
    parentDir (Text.join ['/'] (dirs ++ [f])) = Text.join ['/'] dirs := by
  unfold parentDir
  by_cases hnil : dirs = []
  · rw [hnil, List.nil_append, Text.join_singleton, Text.splitLast?_of_notMem hf]
    rfl
  · rw [Text.join_append _ hnil (List.cons_ne_nil _ _), Text.join_singleton,
      List.append_assoc, List.singleton_append,
      Text.splitLast?_append_of_notMem hf]
    rfl

/-- Behind the last slash of a path is its last segment. -/
theorem lastSegment_join (hf : '/' ∉ f) (dirs : List Text) :
    Specifier.lastSegment (Text.join ['/'] (dirs ++ [f])) = f := by
  unfold Specifier.lastSegment
  by_cases hnil : dirs = []
  · rw [hnil, List.nil_append, Text.join_singleton, Text.afterLast_of_notMem hf]
  · rw [Text.join_append _ hnil (List.cons_ne_nil _ _), Text.join_singleton,
      List.append_assoc, List.singleton_append,
      Text.afterLast_append_of_notMem hf]

-- ==================================================================== probing

/-- What leads out of the repository leads nowhere. -/
theorem probe?_eq_none_of_location? {path : Text} (h : location? path = none) :
    index.probe? path = none := by
  unfold probe?
  rw [h]

/-- A file is found at its location. -/
theorem probe?_of_mem {path location : Text} (h : location? path = some location)
    (hne : location ≠ []) (hmem : location ∈ index.files) :
    index.probe? path = some location := by
  obtain ⟨c, rest, rfl⟩ := List.exists_cons_of_ne_nil hne
  unfold probe?
  rw [h]
  dsimp only
  unfold candidates
  rw [List.cons_append, List.find?_cons_of_pos (List.contains_iff_mem.2 hmem)]

end FileIndex

end SourceDigest
