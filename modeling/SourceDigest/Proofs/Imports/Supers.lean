/-
Where a module path leads that starts with `super`.

The first `super` means the module around the importer: the directory of an
ordinary file, the directory above for a file that stands for its own
(`map_located?_superPath`). Every further one ought to go one directory up
(`ClimbsBySupers`), but all of them are dropped. So a path with more of them
leads to where it should only when there is nothing to climb to
(`supers_climb_iff`).
-/
import Mathlib
import SourceDigest.Proofs.Imports.Location
import SourceDigest.Proofs.Imports.Segments

namespace SourceDigest

namespace Specifier

variable {importer : Text} {segments : List Text} {k : Nat}

/-- The import of a path below as many modules up as the word stands in
front. -/
def superPath (k : Nat) (segments : List Text) : Text :=
  Text.join "::" (List.replicate k "super".toList ++ segments)

/-- Where the module around a file starts, seen from its directory. -/
def outerDir (importer : Text) : Text :=
  if isModuleRoot importer then ".." else "."

/-- A module path from there is a relative one. -/
theorem ofModule_outerDir (importer : Text) (p : List Text) :
    ofModule (outerDir importer) p
      = relative (outerDir importer ++ "/" ++ Text.join "/" p) := by
  unfold outerDir
  split <;> rfl

/-- However often the word stands in front, the path is tried at each of its
beginnings below the module around the importer. -/
theorem ofRust_superPath (hk : 1 ≤ k) (hsegments : ∀ s ∈ segments, IsSegment s)
    (hsuper : segments.head? ≠ some "super".toList) :
    ofRust importer (superPath k segments)
      = (leadingParts segments).map fun p =>
          relative (outerDir importer ++ "/" ++ Text.join "/" p) := by
  obtain ⟨k, rfl⟩ : ∃ n, k = n + 1 := ⟨k - 1, by omega⟩
  have hparts : (splitColons (superPath (k + 1) segments)).filter (· ≠ [])
      = "super".toList :: (List.replicate k "super".toList ++ segments) := by
    refine segments_join (fun p hp => ?_) (List.cons_ne_nil _ _)
    rcases List.mem_append.1 hp with hp | hp
    · rw [List.eq_of_mem_replicate hp]
      decide
    · exact hsegments p hp
  unfold ofRust
  rw [show Text.dropLead? "mod " (superPath (k + 1) segments) = none from
    dropLead?_mod_join (by decide) _ _, hparts]
  dsimp only [moduleBase?]
  rw [if_neg (by decide), if_pos rfl]
  dsimp only
  rw [dropWhile_super hsuper]
  exact List.map_congr_left fun p _ => ofModule_outerDir importer p

end Specifier

namespace FileIndex

open Specifier

variable {dirs segments p : List Text} {f : Text} {k n m : Nat}

-- =================================================================== climbing

/-- The directory so many levels above one; there is none above the root. -/
def climb? (dirs : List Text) (n : Nat) : Option (List Text) :=
  if n ≤ dirs.length then some (dirs.take (dirs.length - n)) else none

/-- Climbing leaves what stands above. -/
theorem climb?_of_le (h : n ≤ dirs.length) :
    climb? dirs n = some (dirs.take (dirs.length - n)) := if_pos h

/-- Climbing further than the root leads nowhere. -/
theorem climb?_of_lt (h : dirs.length < n) : climb? dirs n = none :=
  if_neg (Nat.not_le.2 h)

/-- Different numbers of levels lead to different directories, as long as
they lead to any. -/
theorem climb?_inj :
    climb? dirs n = climb? dirs m
      ↔ n = m ∨ dirs.length < n ∧ dirs.length < m := by
  by_cases hn : n ≤ dirs.length
  · by_cases hm : m ≤ dirs.length
    · rw [climb?_of_le hn, climb?_of_le hm, Option.some.injEq,
        List.take_eq_take_iff]
      omega
    · rw [climb?_of_le hn, climb?_of_lt (Nat.not_le.1 hm)]
      simp only [reduceCtorEq, false_iff]
      omega
  · by_cases hm : m ≤ dirs.length
    · rw [climb?_of_lt (Nat.not_le.1 hn), climb?_of_le hm]
      simp only [reduceCtorEq, false_iff]
      omega
    · rw [climb?_of_lt (Nat.not_le.1 hn), climb?_of_lt (Nat.not_le.1 hm)]
      simp only [true_iff]
      omega

/-- The path of a directory with names below tells the directory. -/
theorem join_append_left_inj {ds es : List Text}
    (hd : ∀ d ∈ ds, Path.IsName d) (he : ∀ e ∈ es, Path.IsName e)
    (hp : ∀ s ∈ p, Path.IsName s) (hne : p ≠ []) :
    Text.join "/" (ds ++ p) = Text.join "/" (es ++ p) ↔ ds = es := by
  constructor
  · intro h
    have hsplit : ∀ xs : List Text, (∀ x ∈ xs, Path.IsName x) →
        Text.splitOn '/' (Text.join ['/'] (xs ++ p)) = xs ++ p := by
      intro xs hxs
      refine Text.splitOn_join (fun x hx => ?_)
        (List.append_ne_nil_of_right_ne_nil xs hne)
      rcases List.mem_append.1 hx with hx | hx
      · exact (hxs x hx).notMem_slash
      · exact (hp x hx).notMem_slash
    have hpieces := congrArg (Text.splitOn '/') h
    exact List.append_cancel_right ((hsplit ds hd).symm.trans
      (hpieces.trans (hsplit es he)))
  · rintro rfl
    rfl

-- =================================================================== locating

/-- Where a relative specifier leads from the directory of a file. A path
leads there only if it leads nowhere from the root, so it has no one
location. -/
def located? (importer : Text) : Specifier → Option Text
  | .relative spec => location? (inDir (parentDir importer) spec)
  | .path _ => none

/-- How many directories above that of a file the module lies that a number
of `super`s means. -/
def levelsUp (f : Text) (k : Nat) : Nat :=
  if isModuleRoot f then k else k - 1

/-- Where the module around a file starts is told by the name of the file
alone. -/
theorem outerDir_join (hf : '/' ∉ f) (dirs : List Text) :
    outerDir (Text.join "/" (dirs ++ [f])) = outerDir f := by
  unfold outerDir isModuleRoot
  rw [show lastSegment (Text.join "/" (dirs ++ [f])) = f from
    lastSegment_join hf dirs, show lastSegment f = f from
    Text.afterLast_of_notMem hf]

/-- Names below the module around a file lie below its directory, or below
the one above if the file stands for its own. -/
theorem located?_outerDir (hdirs : ∀ d ∈ dirs, Path.IsName d) (hf : '/' ∉ f)
    (hp : ∀ s ∈ p, Path.IsName s) (hne : p ≠ []) :
    located? (Text.join "/" (dirs ++ [f]))
        (.relative (outerDir f ++ "/" ++ Text.join "/" p))
      = (climb? dirs (levelsUp f 1)).map fun dir =>
          Text.join "/" (dir ++ p) := by
  have hsplit : Text.splitOn '/' (outerDir f ++ "/" ++ Text.join "/" p)
      = outerDir f :: p := by
    rw [List.append_assoc]
    show Text.splitOn '/' (outerDir f ++ '/' :: Text.join ['/'] p) = _
    rw [Text.splitOn_append_of_notMem (by unfold outerDir; split <;> decide),
      Text.splitOn_join (fun s hs => (hp s hs).notMem_slash) hne]
  show location? (inDir (parentDir (Text.join ['/'] (dirs ++ [f]))) _) = _
  rw [parentDir_join hf, location?_inDir hdirs, hsplit, List.foldlM_cons]
  unfold outerDir levelsUp
  cases isModuleRoot f with
  | false =>
      rw [if_neg Bool.false_ne_true, if_neg Bool.false_ne_true,
        climb?_of_le (Nat.zero_le _), Nat.sub_zero, List.take_length,
        show step? dirs.reverse ("." : String) = some dirs.reverse from
          step?_here _]
      show ((p.foldlM step? dirs.reverse).map _) = _
      rw [foldlM_step?_names hp]
      simp
  | true =>
      rw [if_pos rfl, if_pos rfl]
      rcases List.eq_nil_or_concat' dirs with rfl | ⟨front, d, rfl⟩
      · rfl
      · rw [List.reverse_append, List.reverse_singleton,
          List.singleton_append, climb?_of_le (by simp),
          show step? (d :: front.reverse) (".." : String)
            = some front.reverse from step?_up_cons _ _]
        show ((p.foldlM step? front.reverse).map _) = _
        rw [foldlM_step?_names hp]
        simp

/-- All beginnings of the path are tried below the directory that the first
`super` means, and nowhere if it would lie above the root. -/
theorem map_located?_superPath (hdirs : ∀ d ∈ dirs, Path.IsName d)
    (hf : '/' ∉ f) (hk : 1 ≤ k) (hsegments : ∀ s ∈ segments, IsSegment s)
    (hsuper : segments.head? ≠ some "super".toList) :
    (ofRust (Text.join "/" (dirs ++ [f])) (superPath k segments)).map
        (located? (Text.join "/" (dirs ++ [f])))
      = (leadingParts segments).map fun p =>
          (climb? dirs (levelsUp f 1)).map fun dir =>
            Text.join "/" (dir ++ p) := by
  rw [ofRust_superPath hk hsegments hsuper, List.map_map]
  refine List.map_congr_left fun p hp => ?_
  obtain ⟨hne, hbegins⟩ := mem_leadingParts.1 hp
  show located? _ (.relative (outerDir _ ++ "/" ++ Text.join "/" p)) = _
  rw [outerDir_join hf]
  exact located?_outerDir hdirs hf
    (fun s hs => (hsegments s (hbegins.subset hs)).toIsName) hne

-- ================================================================= resolution

/-- Each `super` climbs one module: the path is tried at its beginnings, the
longest first, below the directory that many levels up, and leads nowhere
if there is no such directory. -/
def ClimbsBySupers (dirs : List Text) (f : Text) (k : Nat)
    (segments : List Text) : Prop :=
  let importer := Text.join "/" (dirs ++ [f])
  match climb? dirs (levelsUp f k) with
  | some dir =>
      (ofRust importer (superPath k segments)).map (located? importer)
        = (leadingParts segments).map fun p =>
            some (Text.join "/" (dir ++ p))
  | none =>
      ∀ index : FileIndex, ∀ spec ∈ ofRust importer (superPath k segments),
        index.resolve? importer spec = none

/-- No directory is new on the way up. -/
theorem climb?_subset {dir : List Text} (h : climb? dirs n = some dir) :
    dir ⊆ dirs := by
  unfold climb? at h
  split at h
  · obtain rfl := Option.some.inj h
    exact List.take_subset _ _
  · cases h

/-- A specifier that has a location leads to the file there, if there is
one. -/
theorem resolve?_ofList_located {importer location : Text} {spec : Specifier}
    (h : located? importer spec = some location) (hne : location ≠ []) :
    (ofList [location]).resolve? importer spec = some location := by
  cases spec with
  | relative path =>
      exact probe?_of_mem h hne (List.mem_singleton_self _)
  | path path => cases h

/-- The beginnings of the path are located below a directory when it is the
one that the first `super` means. -/
theorem map_located?_superPath_eq_iff {dir : List Text}
    (hdirs : ∀ d ∈ dirs, Path.IsName d) (hdir : dir ⊆ dirs) (hf : '/' ∉ f)
    (hk : 1 ≤ k) (hsegments : ∀ s ∈ segments, IsSegment s)
    (hne : segments ≠ []) (hsuper : segments.head? ≠ some "super".toList) :
    (ofRust (Text.join "/" (dirs ++ [f])) (superPath k segments)).map
        (located? (Text.join "/" (dirs ++ [f])))
          = (leadingParts segments).map (fun p =>
              some (Text.join "/" (dir ++ p)))
      ↔ climb? dirs (levelsUp f 1) = some dir := by
  rw [map_located?_superPath hdirs hf hk hsegments hsuper,
    leadingParts_of_ne_nil hne, List.map_cons, List.map_cons]
  cases hhere : climb? dirs (levelsUp f 1) with
  | none => simp
  | some here =>
      have hinj := join_append_left_inj
        (fun d hd => hdirs d (climb?_subset hhere hd))
        (fun d hd => hdirs d (hdir hd))
        (fun s hs => (hsegments s hs).toIsName) hne
      constructor
      · intro h
        have hhead := (List.cons.inj h).1
        rw [Option.map_some, Option.some.injEq, hinj] at hhead
        rw [hhead]
      · intro h
        rw [Option.some.inj h]
        rfl

/-- The path never leads anywhere when the first `super` leads above the
root; otherwise it does as soon as there is a file where it is looked for
first. -/
theorem resolve?_superPath_eq_none_iff (hdirs : ∀ d ∈ dirs, Path.IsName d)
    (hf : '/' ∉ f) (hk : 1 ≤ k) (hsegments : ∀ s ∈ segments, IsSegment s)
    (hne : segments ≠ []) (hsuper : segments.head? ≠ some "super".toList) :
    (∀ index : FileIndex,
      ∀ spec ∈ ofRust (Text.join "/" (dirs ++ [f])) (superPath k segments),
        index.resolve? (Text.join "/" (dirs ++ [f])) spec = none)
      ↔ climb? dirs (levelsUp f 1) = none := by
  have hlocated := map_located?_superPath hdirs hf hk hsegments hsuper
  cases hhere : climb? dirs (levelsUp f 1) with
  | none =>
      refine ⟨fun _ => rfl, fun _ index spec hspec => ?_⟩
      have hmem := List.mem_map_of_mem
        (f := located? (Text.join "/" (dirs ++ [f]))) hspec
      rw [hlocated, hhere] at hmem
      obtain ⟨_, -, hnone⟩ := List.mem_map.1 hmem
      rw [ofRust_superPath hk hsegments hsuper] at hspec
      obtain ⟨p, -, rfl⟩ := List.mem_map.1 hspec
      exact probe?_eq_none_of_location? hnone.symm
  | some here =>
      simp only [reduceCtorEq, iff_false]
      intro h
      have hmem : some (Text.join "/" (here ++ segments))
          ∈ (ofRust (Text.join "/" (dirs ++ [f]))
            (superPath k segments)).map
              (located? (Text.join "/" (dirs ++ [f]))) := by
        rw [hlocated, leadingParts_of_ne_nil hne, hhere]
        exact List.mem_cons_self ..
      obtain ⟨spec, hspec, hspecat⟩ := List.mem_map.1 hmem
      have hnil : Text.join ['/'] (here ++ segments) ≠ [] := by
        refine join_ne_nil (fun n hn => ?_)
          (List.append_ne_nil_of_right_ne_nil here hne)
        rcases List.mem_append.1 hn with hn | hn
        · exact hdirs n (climb?_subset hhere hn)
        · exact (hsegments n hn).toIsName
      have hfound := resolve?_ofList_located hspecat hnil
      rw [h _ spec hspec] at hfound
      cases hfound

/-- A path climbs by its `super`s when they mean the directory that the
first of them means. -/
theorem climbsBySupers_iff (hdirs : ∀ d ∈ dirs, Path.IsName d)
    (hf : '/' ∉ f) (hk : 1 ≤ k) (hsegments : ∀ s ∈ segments, IsSegment s)
    (hne : segments ≠ []) (hsuper : segments.head? ≠ some "super".toList) :
    ClimbsBySupers dirs f k segments
      ↔ climb? dirs (levelsUp f 1) = climb? dirs (levelsUp f k) := by
  unfold ClimbsBySupers
  dsimp only
  cases hthere : climb? dirs (levelsUp f k) with
  | some dir =>
      exact map_located?_superPath_eq_iff hdirs (climb?_subset hthere) hf hk
        hsegments hne hsuper
  | none =>
      exact resolve?_superPath_eq_none_iff hdirs hf hk hsegments hne hsuper

/-- Let a module path start with any number of `super`s, and go on with
other segments. Only the first `super` counts: the path is tried as if the
others were not there. With one of them it climbs as it should; with more it
does so only for the file of a module directory that is the root of the
repository, where there is nothing to climb to. -/
theorem supers_climb_iff (dirs : List Text) (f : Text) (k : Nat)
    (segments : List Text) (hdirs : ∀ d ∈ dirs, Path.IsName d) (hf : '/' ∉ f)
    (hk : 1 ≤ k) (hsegments : ∀ s ∈ segments, IsSegment s)
    (hne : segments ≠ []) (hsuper : segments.head? ≠ some "super".toList) :
    ofRust (Text.join "/" (dirs ++ [f])) (superPath k segments)
        = ofRust (Text.join "/" (dirs ++ [f])) (superPath 1 segments)
      ∧ ClimbsBySupers dirs f 1 segments
      ∧ (ClimbsBySupers dirs f k segments
        ↔ k = 1 ∨ isModuleRoot f = true ∧ dirs = []) := by
  refine ⟨?_, ?_, ?_⟩
  · rw [ofRust_superPath hk hsegments hsuper,
      ofRust_superPath (Nat.le_refl 1) hsegments hsuper]
  · exact (climbsBySupers_iff hdirs hf (Nat.le_refl 1) hsegments hne hsuper).2
      rfl
  · rw [climbsBySupers_iff hdirs hf hk hsegments hne hsuper, climb?_inj,
      ← List.length_eq_zero_iff]
    unfold levelsUp
    cases isModuleRoot f with
    | false =>
        simp only [Bool.false_eq_true, if_false, false_and, or_false]
        omega
    | true =>
        simp only [if_true, true_and]
        omega

theorem supers_climb_in_two_directories :
    ClimbsBySupers ["src".toList, "a".toList] "mod.rs" 1 ["x".toList]
      ∧ ¬ ClimbsBySupers ["src".toList, "a".toList] "mod.rs" 2
        ["x".toList] := by
  have hclimb := supers_climb_iff ["src".toList, "a".toList] "mod.rs" 2
    ["x".toList] (by decide) (by decide) (by decide) (by decide) (by decide)
    (by decide)
  exact ⟨hclimb.2.1, fun h => absurd (hclimb.2.2.1 h) (by decide)⟩

/-- With a second `super` the path still starts in the directory of the
file. -/
theorem target?_of_second_super :
    let index := ofList ["src/a/b/c.rs".toList, "src/a/x.rs".toList,
      "src/a/b/x.rs".toList]
    ¬ ClimbsBySupers ["src".toList, "a".toList, "b".toList] "c.rs" 2
        ["x".toList, "Y".toList]
      ∧ index.target? .rust "src/a/b/c.rs" "super::super::x::Y"
        = some "src/a/b/x.rs".toList := by
  refine ⟨?_, by decide⟩
  show ¬ _ = (_ : List (Option Text))
  decide

end FileIndex

end SourceDigest
