/-
Where a module path leads that starts at the root of its package.

The segments of such a path are tried from the longest beginning to the
shortest, since the last of them may be items inside a module. The right
answer is that of the longest beginning that lies in the source tree
(`modulePath`). But every beginning is taken through all that a path is
tried as, before a shorter one has its turn: below the directory of the
importer, and by its last segment as a bare name (`detour?`). So the import
leads to the first detour of a beginning that is longer than the module, and
to the module only if there is none (`longest_module_wins_iff`).
-/
import Mathlib
import SourceDigest.Proofs.Imports.Location
import SourceDigest.Proofs.Imports.Resolution
import SourceDigest.Proofs.Imports.Segments
import SourceDigest.Proofs.Text.Blanks

namespace SourceDigest

namespace Specifier

-- =============================================================== module paths

variable {importer : Text} {segments : List Text}

/-- The import of a path that starts at the root of the package. -/
def cratePath (segments : List Text) : Text :=
  Text.join "::" ("crate".toList :: segments)

/-- Where a module lies in the source tree of a file. -/
def modulePath (importer : Text) (segments : List Text) : Text :=
  sourceRoot importer ++ "/" ++ Text.join "/" segments

/-- A path from the root of the package is tried at each of its beginnings. -/
theorem ofRust_cratePath (hsegments : ∀ s ∈ segments, IsSegment s)
    (hsuper : segments.head? ≠ some "super".toList) :
    ofRust importer (cratePath segments)
      = (leadingParts segments).map fun p => path (modulePath importer p) := by
  have hparts : (splitColons (cratePath segments)).filter (· ≠ [])
      = "crate".toList :: segments := by
    refine segments_join (fun p hp => ?_) (List.cons_ne_nil _ _)
    rcases List.mem_cons.1 hp with rfl | hp
    · decide
    · exact hsegments p hp
  have hdrop : segments.dropWhile (· = ("super" : Text)) = segments :=
    dropWhile_super hsuper 0
  unfold ofRust
  rw [show Text.dropLead? "mod " (cratePath segments) = none from
    dropLead?_mod_join (by decide) _ _, hparts]
  dsimp only [moduleBase?]
  rw [if_pos rfl]
  dsimp only
  rw [hdrop]
  rfl

end Specifier

-- ================================================================= resolution

namespace FileIndex

open Specifier

variable {index : FileIndex} {importer file key spec s : Text}
  {front back : List Text}

/-- What a path leads to that is not there from the root of the repository:
a file below the directory of the importer, or else one of the name of its
last segment. -/
def detour? (index : FileIndex) (importer spec : Text) : Option Text :=
  (index.probe? (inDir (parentDir importer) spec)).or
    (index.lookup? spec importer)

theorem resolve?_path (index : FileIndex) (importer spec : Text) :
    index.resolve? importer (.path spec)
      = (index.probe? spec).or (index.detour? importer spec) := rfl

/-- The first detour of the beginnings that reach behind a module, the
longest first. -/
def firstDetour? (index : FileIndex) (importer : Text)
    (front back : List Text) : Option Text :=
  (leadingParts back).findSome? fun p =>
    index.detour? importer (modulePath importer (front ++ p))

/-- What an import leads to is found by the longest beginning that is there,
unless a longer one takes a detour. -/
theorem target?_cratePath (hfront : front ≠ [])
    (hsegments : ∀ s ∈ front ++ back, IsSegment s)
    (hsuper : (front ++ back).head? ≠ some "super".toList)
    (hheld : index.probe? (modulePath importer front) = some file)
    (hlongest : ∀ p ∈ leadingParts back,
      index.probe? (modulePath importer (front ++ p)) = none) :
    index.target? .rust importer (cratePath (front ++ back))
      = (index.firstDetour? importer front back).or (some file) := by
  have hlong : ∀ p ∈ leadingParts back,
      index.resolve? importer (.path (modulePath importer (front ++ p)))
        = index.detour? importer (modulePath importer (front ++ p)) := by
    intro p hp
    rw [resolve?_path, hlongest p hp, Option.none_or]
  show (ofRust importer _).findSome? _ = _
  rw [ofRust_cratePath hsegments hsuper, leadingParts_append,
    leadingParts_of_ne_nil hfront, List.map_append, List.map_map,
    List.findSome?_append, List.findSome?_map, List.map_cons,
    List.findSome?_cons, resolve?_path, hheld]
  dsimp only [Option.some_or]
  congr 1
  unfold firstDetour?
  rw [← List.head?_filterMap, ← List.head?_filterMap]
  exact congrArg List.head? (List.filterMap_congr hlong)

-- ================================================================ bare names

/-- The last segment of a module path stands behind a slash. -/
theorem exists_modulePath_concat (importer : Text) (p : List Text) (s : Text) :
    ∃ dir, modulePath importer (p ++ [s]) = dir ++ '/' :: s := by
  unfold modulePath
  by_cases hnil : p = []
  · exact ⟨sourceRoot importer, by rw [hnil, List.nil_append,
      Text.join_singleton, List.append_assoc]; rfl⟩
  · refine ⟨sourceRoot importer ++ "/" ++ Text.join "/" p, ?_⟩
    rw [Text.join_append _ hnil (List.cons_ne_nil _ _), Text.join_singleton]
    simp

/-- A key names the files that end in it, or if there are none those that end
in it up to the extension. -/
theorem mem_named : file ∈ index.named key
    ↔ file ∈ index.files
      ∧ (lastSegment file = key
        ∨ (∀ f ∈ index.files, lastSegment f ≠ key) ∧ stem file = key) := by
  unfold named
  split
  · rename_i hnil
    have hnone : ∀ f ∈ index.files, lastSegment f ≠ key := by
      simpa using List.filter_eq_nil_iff.1 hnil
    rw [List.mem_filter, beq_iff_eq]
    exact and_congr_right fun hfile =>
      ⟨fun h => .inr ⟨hnone, h⟩, fun h => (h.resolve_left (hnone file hfile)).2⟩
  · rename_i hne
    obtain ⟨g, hg⟩ := List.exists_mem_of_ne_nil _ hne
    obtain ⟨hmem, hkey⟩ := List.mem_filter.1 hg
    rw [List.mem_filter, beq_iff_eq]
    exact and_congr_right fun _ =>
      ⟨.inl, fun h => h.resolve_right fun hno =>
        hno.1 g hmem (beq_iff_eq.1 hkey)⟩

/-- A module path has no answer as a bare name when its last segment means
no file but the importer. -/
theorem lookup?_modulePath_eq_none_iff (hs : Path.IsName s) (p : List Text) :
    index.lookup? (modulePath importer (p ++ [s])) importer = none
      ↔ ∀ f ∈ index.named s, f = importer := by
  obtain ⟨dir, hdir⟩ := exists_modulePath_concat importer p s
  have htrim : Text.trimEndOf (· == '/') (dir ++ '/' :: s)
      = dir ++ '/' :: s := by
    obtain ⟨front, c, rfl⟩ := (List.eq_nil_or_concat' s).resolve_left hs.ne_nil
    have hc : c ≠ '/' := fun h => hs.notMem_slash (by simp [h])
    refine Text.trimEndOf_eq_self (c := c) ?_ (by simpa using hc)
    rw [show dir ++ '/' :: (front ++ [c]) = (dir ++ '/' :: front) ++ [c] by simp,
      List.getLast?_concat]
  unfold lookup?
  rw [hdir]
  dsimp only
  rw [htrim, show lastSegment (dir ++ '/' :: s) = s from
    Text.afterLast_append_of_notMem hs.notMem_slash dir,
    if_neg (by simp [hs.ne_nil, hs.ne_here, hs.ne_up]), best?_eq_none_iff,
    List.filter_eq_nil_iff]
  simp only [decide_eq_true_eq, not_not]

/-- No longer beginning takes a detour when none is found below the
directory of the importer and none has a last segment that is the name or
the stem of another file. -/
theorem firstDetour?_eq_none_iff
    (hsegments : ∀ s ∈ front ++ back, IsSegment s) :
    index.firstDetour? importer front back = none
      ↔ ∀ p s, p ++ [s] <+: back →
        index.probe? (inDir (parentDir importer)
          (modulePath importer (front ++ p ++ [s]))) = none
        ∧ ∀ f ∈ index.named s, f = importer := by
  unfold firstDetour?
  rw [List.findSome?_eq_none_iff]
  constructor
  · intro h p s hp
    have hs : Path.IsName s :=
      (hsegments s (List.mem_append_right _ (hp.subset (by simp)))).toIsName
    have hnone := h (p ++ [s]) (mem_leadingParts.2 ⟨by simp, hp⟩)
    rw [← List.append_assoc, detour?, Option.or_eq_none_iff] at hnone
    exact ⟨hnone.1, (lookup?_modulePath_eq_none_iff hs _).1 hnone.2⟩
  · intro h q hq
    obtain ⟨hne, hbegins⟩ := mem_leadingParts.1 hq
    obtain ⟨p, s, rfl⟩ := (List.eq_nil_or_concat' q).resolve_left hne
    have hs : Path.IsName s := (hsegments s
      (List.mem_append_right _ (hbegins.subset (by simp)))).toIsName
    rw [← List.append_assoc, detour?, Option.or_eq_none_iff]
    exact ⟨(h p s hbegins).1,
      (lookup?_modulePath_eq_none_iff hs _).2 (h p s hbegins).2⟩

/-- Let a module path have its longest beginning that lies in the source
tree, held by a file. The import leads to the first detour of a longer
beginning, if there is one, and otherwise to that file; so it leads to that
file exactly when no detour comes first that leads to another. No longer
beginning takes a detour exactly when none of them is found below the
directory of the importer, and the last segment of none of them means, by
name or else by stem, a file that is not the importer. -/
theorem longest_module_wins_iff (index : FileIndex) (importer file : Text)
    (front back : List Text) (hfront : front ≠ [])
    (hsegments : ∀ s ∈ front ++ back, IsSegment s)
    (hsuper : (front ++ back).head? ≠ some "super".toList)
    (hheld : index.probe? (modulePath importer front) = some file)
    (hlongest : ∀ p, p ≠ [] → p <+: back →
      index.probe? (modulePath importer (front ++ p)) = none) :
    index.target? .rust importer (cratePath (front ++ back))
        = (index.firstDetour? importer front back).or (some file)
      ∧ (index.target? .rust importer (cratePath (front ++ back)) = some file
        ↔ ∀ g, index.firstDetour? importer front back = some g → g = file)
      ∧ (index.firstDetour? importer front back = none
        ↔ ∀ p s, p ++ [s] <+: back →
          index.probe? (inDir (parentDir importer)
            (modulePath importer (front ++ p ++ [s]))) = none
          ∧ ∀ f ∈ index.files,
            (lastSegment f = s
              ∨ (∀ g ∈ index.files, lastSegment g ≠ s) ∧ stem f = s) →
            f = importer) := by
  have htarget := target?_cratePath hfront hsegments hsuper hheld
    fun p hp => hlongest p (mem_leadingParts.1 hp).1 (mem_leadingParts.1 hp).2
  refine ⟨htarget, ?_, ?_⟩
  · rw [htarget]
    cases index.firstDetour? importer front back with
    | none => simp
    | some g => simp
  · rw [firstDetour?_eq_none_iff hsegments]
    simp only [mem_named, and_imp]

/-- A package of two files. -/
def twoSources : FileIndex :=
  .ofList ["src/lib.rs".toList, "src/fs.rs".toList]

theorem longest_module_wins_of_two_sources :
    twoSources.probe? (modulePath "src/lib.rs" ["fs".toList])
      = some "src/fs.rs".toList
    ∧ twoSources.target? .rust "src/lib.rs" "crate::fs::Item"
      = some "src/fs.rs".toList := by
  have hheld : twoSources.probe? (modulePath "src/lib.rs" ["fs".toList])
      = some "src/fs.rs".toList := by decide
  have hlongest : ∀ p, p ≠ [] → p <+: ["Item".toList] →
      twoSources.probe? (modulePath "src/lib.rs" (["fs".toList] ++ p))
        = none := by
    intro p hne hp
    have hall : ∀ q ∈ leadingParts ["Item".toList],
        twoSources.probe? (modulePath "src/lib.rs" (["fs".toList] ++ q))
          = none := by decide
    exact hall p (mem_leadingParts.2 ⟨hne, hp⟩)
  have hwins := longest_module_wins_iff twoSources "src/lib.rs" "src/fs.rs"
    ["fs".toList] ["Item".toList] (by decide) (by decide) (by decide) hheld
    hlongest
  refine ⟨hheld, hwins.2.1.2 fun g hg => ?_⟩
  have hnone : twoSources.firstDetour? "src/lib.rs" ["fs".toList]
      ["Item".toList] = none := by decide
  rw [hnone] at hg
  cases hg

/-- A file of any language that has the name of an item takes its import. -/
theorem target?_of_shadowed_module :
    let index := ofList
      ["src/lib.rs".toList, "src/fs.rs".toList, "other/Item.py".toList]
    index.probe? (modulePath "src/lib.rs" ["fs".toList])
        = some "src/fs.rs".toList
      ∧ index.probe? (modulePath "src/lib.rs" ["fs".toList, "Item".toList])
        = none
      ∧ index.target? .rust "src/lib.rs" "crate::fs::Item"
        = some "other/Item.py".toList := by
  decide

end FileIndex

end SourceDigest
