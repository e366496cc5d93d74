/-
Where a dotted module leads that starts with dots.

The same character means two things: in front of the names each dot is a
level, between them it is a slash. The dots in front are those up to the
first character of a name (`takeWhile_dottedPath`), and rewriting the others
leaves the names as they are (`Text.replace_join`), so the specifier spells
a walk: some levels up, then along the names (`ofDotted_dottedPath`). One dot
stays in the directory of the importer and each further one goes one directory
up (`foldlM_step?_upward`); above the root the walk is lost, however many names
would lead down again.
-/
import Mathlib
import SourceDigest.Proofs.Imports.Supers
import SourceDigest.Proofs.Imports.Walks

namespace SourceDigest

/-- Pieces that do not hold a separator are joined by another instead. -/
theorem Text.replace_join {old new : Char} {ps : List Text}
    (h : ∀ p ∈ ps, old ∉ p) :
    replace old new (join [old] ps) = join [new] ps := by
  have hpiece : ∀ p ∈ ps, replace old new p = p := by
    intro p hp
    refine (List.map_congr_left fun c hc => if_neg ?_).trans (List.map_id p)
    rintro rfl
    exact h p hp hc
  clear h
  induction ps with
  | nil => rfl
  | cons p ps ih =>
      have hp := hpiece p (List.mem_cons_self ..)
      by_cases hnil : ps = []
      · rw [hnil]
        exact hp
      · rw [join_cons _ _ hnil, join_cons _ _ hnil]
        unfold replace at hp ih ⊢
        rw [List.map_append, List.map_append, hp,
          ih fun q hq => hpiece q (List.mem_cons_of_mem _ hq)]
        simp

namespace Specifier

variable {names : List Text} {k : Nat}

-- =============================================================== dotted paths

/-- What may stand between the dots of a module. -/
structure IsDottedName (n : Text) : Prop where
  ne_nil : n ≠ []
  notMem_dot : '.' ∉ n
  notMem_slash : '/' ∉ n

instance (n : Text) : Decidable (IsDottedName n) :=
  decidable_of_iff (n ≠ [] ∧ '.' ∉ n ∧ '/' ∉ n)
    ⟨fun h => ⟨h.1, h.2.1, h.2.2⟩, fun h => ⟨h.1, h.2, h.3⟩⟩

theorem IsDottedName.isName {n : Text} (h : IsDottedName n) : Path.IsName n where
  ne_nil := h.ne_nil
  notMem_slash := h.notMem_slash
  ne_here := by
    rintro rfl
    exact h.notMem_dot (by simp)
  ne_up := by
    rintro rfl
    exact h.notMem_dot (by simp)

/-- The import of a module by its names, with as many dots in front. -/
def dottedPath (k : Nat) (names : List Text) : Text :=
  List.replicate k '.' ++ Text.join "." names

/-- The segments that dots in front of a module mean. -/
def upward (k : Nat) : List Text :=
  if k = 1 then [['.']] else List.replicate (k - 1) ['.', '.']

/-- The dots of a dotted path are those in front. -/
theorem takeWhile_dottedPath (hnames : ∀ n ∈ names, IsDottedName n) (k : Nat) :
    (dottedPath k names).takeWhile (· == '.') = List.replicate k '.' := by
  have hjoin : (Text.join "." names).takeWhile (· == '.') = [] := by
    cases names with
    | nil => rfl
    | cons n rest =>
        have hn := hnames n (List.mem_cons_self ..)
        obtain ⟨c, n, rfl⟩ := List.exists_cons_of_ne_nil hn.ne_nil
        have hc : c ≠ '.' := fun h => hn.notMem_dot (by simp [h])
        cases rest with
        | nil => exact List.takeWhile_cons_of_neg (by simpa using hc)
        | cons m rest => exact List.takeWhile_cons_of_neg (by simpa using hc)
  unfold dottedPath
  rw [List.takeWhile_append_of_pos fun c hc => by
    simp [List.eq_of_mem_replicate hc], hjoin, List.append_nil]

theorem upward_ne_nil (hk : 1 ≤ k) : upward k ≠ [] := by
  unfold upward
  split
  · exact List.cons_ne_nil _ _
  · simp only [ne_eq, List.replicate_eq_nil_iff]
    omega

/-- What the dots are turned into are whole segments. -/
theorem notMem_slash_of_mem_upward {s : Text} (h : s ∈ upward k) : '/' ∉ s := by
  unfold upward at h
  split at h
  · rw [List.mem_singleton.1 h]
    decide
  · rw [List.eq_of_mem_replicate h]
    decide

/-- The specifier goes up by the dots and then along the names. -/
theorem ofDotted_dottedPath (hk : 1 ≤ k) (hnames : ∀ n ∈ names, IsDottedName n) :
    ofDotted (dottedPath k names)
      = relative (Text.join "/" (upward k ++ names)) := by
  have hdots : ((dottedPath k names).takeWhile (· == '.')).length = k := by
    rw [takeWhile_dottedPath hnames, List.length_replicate]
  have hrest : Text.replace '.' '/' ((dottedPath k names).drop k)
      = Text.join "/" names := by
    unfold dottedPath
    rw [List.drop_left' (List.length_replicate ..)]
    exact Text.replace_join fun n hn => (hnames n hn).notMem_dot
  have hup : (if k = 1 then (".".toList : Text)
        else Text.join "/" (List.replicate (k - 1) ("..".toList : Text)))
      = Text.join "/" (upward k) := by
    unfold upward
    split <;> rfl
  unfold ofDotted
  dsimp only
  rw [hdots, hrest, if_neg (by omega), hup]
  by_cases hnil : names = []
  · rw [hnil, List.append_nil]
    rfl
  · have hne : Text.join "/" names ≠ [] :=
      FileIndex.join_ne_nil (fun n hn => (hnames n hn).isName) hnil
    rw [if_neg hne, Text.join_append _ (upward_ne_nil hk) hnil]

end Specifier

namespace FileIndex

open Specifier

variable {dirs names : List Text} {f : Text} {k : Nat}

/-- One level more is climbed from below a further directory. -/
theorem climb?_concat (dirs : List Text) (d : Text) (n : Nat) :
    climb? (dirs ++ [d]) (n + 1) = climb? dirs n := by
  by_cases h : n ≤ dirs.length
  · rw [climb?_of_le h, climb?_of_le (by simpa using h), List.length_append,
      List.length_singleton, Nat.add_sub_add_right,
      List.take_append_of_le_length (Nat.sub_le ..)]
  · rw [climb?_of_lt (Nat.not_le.1 h),
      climb?_of_lt (by simpa using Nat.not_le.1 h)]

/-- Two dots each lead one directory up, as long as there is one. -/
theorem foldlM_step?_ups (n : Nat) (dirs : List Text) :
    (List.replicate n ['.', '.']).foldlM step? dirs.reverse
      = (climb? dirs n).map List.reverse := by
  induction n generalizing dirs with
  | zero =>
      rw [climb?_of_le (Nat.zero_le _), Nat.sub_zero, List.take_length]
      rfl
  | succ n ih =>
      rw [List.replicate_succ, List.foldlM_cons]
      rcases List.eq_nil_or_concat' dirs with rfl | ⟨front, d, rfl⟩
      · rfl
      · rw [List.reverse_concat, step?_up_cons]
        show (List.replicate n ['.', '.']).foldlM step? front.reverse = _
        rw [ih, climb?_concat]

/-- Dots in front lead up as many directories as there are more than one. -/
theorem foldlM_step?_upward (k : Nat) (dirs : List Text) :
    (upward k).foldlM step? dirs.reverse
      = (climb? dirs (k - 1)).map List.reverse := by
  unfold upward
  split
  · rename_i hk
    rw [hk, climb?_of_le (Nat.zero_le _), Nat.sub_zero, List.take_length]
    rfl
  · exact foldlM_step?_ups (k - 1) dirs

/-- The location of a dotted module: the directory that many levels up, and
the names below it. -/
theorem location?_upward (hdirs : ∀ d ∈ dirs, Path.IsName d) (hk : 1 ≤ k)
    (hnames : ∀ n ∈ names, IsDottedName n) :
    location? (inDir (Text.join ['/'] dirs) (Text.join "/" (upward k ++ names)))
      = (climb? dirs (k - 1)).map fun dir => Text.join "/" (dir ++ names) := by
  have hsplit : Text.splitOn '/' (Text.join "/" (upward k ++ names))
      = upward k ++ names := by
    refine Text.splitOn_join (fun s hs => ?_)
      (List.append_ne_nil_of_left_ne_nil (upward_ne_nil hk) names)
    rcases List.mem_append.1 hs with hs | hs
    · exact notMem_slash_of_mem_upward hs
    · exact (hnames s hs).notMem_slash
  rw [location?_inDir hdirs, hsplit, List.foldlM_append, foldlM_step?_upward]
  cases climb? dirs (k - 1) with
  | none => rfl
  | some dir =>
      show (names.foldlM step? dir.reverse).map _ = _
      rw [foldlM_step?_names fun n hn => (hnames n hn).isName]
      simp

-- ================================================================= resolution

/-- The import leads to what is probed at its location. -/
theorem target?_dottedPath (index : FileIndex) (hf : '/' ∉ f) (hk : 1 ≤ k)
    (hnames : ∀ n ∈ names, IsDottedName n) :
    index.target? .python (Text.join "/" (dirs ++ [f])) (dottedPath k names)
      = index.probe? (inDir (Text.join ['/'] dirs)
          (Text.join "/" (upward k ++ names))) := by
  unfold target? ofImport
  dsimp only
  rw [ofDotted_dottedPath hk hnames, List.findSome?_singleton]
  show index.probe? (inDir (parentDir (Text.join ['/'] (dirs ++ [f]))) _) = _
  rw [parentDir_join hf]

/-- Let a dotted module have dots in front of its names, in the import of a
file below some directories. It is looked for nowhere but relative to the
importer. One dot means the directory of the importer and each further dot one
directory up: if there are not so many directories, the import leads nowhere,
and otherwise it leads to the first file there is among the location below the
directory reached, that location with each extension, and each index file below
it. The root of the repository itself is no such location. -/
theorem dots_climb (index : FileIndex) (dirs : List Text) (f : Text) (k : Nat)
    (names : List Text) (hdirs : ∀ d ∈ dirs, Path.IsName d) (hf : '/' ∉ f)
    (hk : 1 ≤ k) (hnames : ∀ n ∈ names, IsDottedName n) :
    let importer := Text.join "/" (dirs ++ [f])
    let raw := dottedPath k names
    let segments := dirs.take (dirs.length - (k - 1)) ++ names
    (∀ spec ∈ ofImport .python importer raw, ∃ p, spec = .relative p)
      ∧ (dirs.length < k - 1 → index.target? .python importer raw = none)
      ∧ (k - 1 ≤ dirs.length → segments ≠ [] →
          let location := Text.join "/" segments
          index.target? .python importer raw
            = (location :: extensions.map (fun e => location ++ '.' :: e.toList)
                ++ indexFiles.map fun f => location ++ '/' :: f.toList).find?
                  (index.files.contains ·)) := by
  intro importer raw segments
  have hlocation := location?_upward hdirs hk hnames
  refine ⟨fun spec hspec => ?_, fun hshort => ?_, fun hlong hne => ?_⟩
  · rw [List.mem_singleton.1 (show spec ∈ [ofDotted raw] from hspec),
      ofDotted_dottedPath hk hnames]
    exact ⟨_, rfl⟩
  · rw [climb?_of_lt hshort] at hlocation
    rw [target?_dottedPath index hf hk hnames]
    exact probe?_eq_none_of_location? hlocation
  · intro location
    rw [climb?_of_le hlong] at hlocation
    rw [target?_dottedPath index hf hk hnames]
    refine probe?_of_location? hlocation (join_ne_nil (fun n hn => ?_) hne)
    rcases List.mem_append.1 hn with hn | hn
    · exact hdirs n (List.take_subset _ _ hn)
    · exact (hnames n hn).isName

theorem dots_climb_to_package :
    let index := ofList ["a/__init__.py".toList, "a/b/c/x.py".toList]
    index.target? .python "a/b/c/f.py" "..." = some "a/__init__.py".toList
      ∧ index.target? .python "a/b/c/f.py" "....." = none := by
  intro index
  have hclimb := fun k hk => dots_climb index
    ["a".toList, "b".toList, "c".toList] "f.py" k [] (by decide) (by decide) hk
    (by simp)
  refine ⟨?_, (hclimb 5 (by decide)).2.1 (by decide)⟩
  exact ((hclimb 3 (by decide)).2.2 (by decide) (by decide)).trans (by decide)

end FileIndex

end SourceDigest
