/-
A file is the same by every spelling of its path.

Blank pieces of a path are steps that stay where they are, so leaving some
of them out does not lead to another file (`follow_of_thinner`). It can
lead to one where there was none, since a file must come last, so this goes
one way only; but without any blank pieces two paths with the same parts
are one, and what is read by both of them is the same
(`read_eq_of_parts_eq`).
-/
import Mathlib
import SourceDigest.Proofs.Files.Trees
import SourceDigest.Proofs.Path.Spelling

namespace SourceDigest

/-- Names of which some blank ones are left out. -/
inductive Path.Thinner : List Text → List Text → Prop
  | nil : Thinner [] []
  | keep {name : Text} {names names' : List Text} :
    Thinner names names' → Thinner (name :: names) (name :: names')
  | drop {name : Text} {names names' : List Text} :
    IsBlank name → Thinner names names' → Thinner (name :: names) names'

namespace Path.Thinner

variable {names names' : List Text}

theorem append_left (front : List Text) (h : Thinner names names') :
    Thinner (front ++ names) (front ++ names') := by
  induction front with
  | nil => exact h
  | cons name front ih => exact .keep ih

/-- All blank names are left out. -/
theorem filter (names : List Text) :
    Thinner names (names.filter fun name => ¬IsBlank name) := by
  induction names with
  | nil => exact .nil
  | cons name names ih =>
      by_cases hblank : IsBlank name
      · rw [List.filter_cons_of_neg (by simpa using hblank)]
        exact .drop hblank ih
      · rw [List.filter_cons_of_pos (by simpa using hblank)]
        exact .keep ih

end Path.Thinner

namespace Trail

variable {t above : Trail} {links : Nat} {names names' : List Text}
  {name : Text} {content : Bytes} {modified : Int}

/-- Where a file is reached it is reached without some blank names. -/
theorem follow_of_thinner
    (h : t.follow links names = .ok (.file above name content modified))
    (hthin : Path.Thinner names names') :
    t.follow links names' = .ok (.file above name content modified) := by
  induction t, links, names using Trail.follow.induct generalizing names' with
  | case1 t links =>
      rw [follow] at h
      cases h
  | case2 t links name rest hblank ih =>
      rw [follow, if_pos hblank] at h
      cases hthin with
      | keep hrest =>
          rw [follow, if_pos hblank]
          exact ih h hrest
      | drop _ hrest => exact ih h hrest
  | case3 t links rest hblank ih =>
      rw [follow, if_neg hblank, if_pos rfl] at h
      cases hthin with
      | keep hrest =>
          rw [follow, if_neg hblank, if_pos rfl]
          exact ih h hrest
      | drop hdrop _ => exact absurd hdrop hblank
  | case4 t links name rest hblank hup hlong =>
      rw [follow, if_neg hblank, if_neg hup, if_pos hlong] at h
      cases h
  | case5 t links name hblank hup hshort hnone =>
      simp [follow, hblank, hup, hshort, hnone] at h
  | case6 t links name rest hblank hup hshort hnone hrest =>
      simp [follow, hblank, hup, hshort, hnone, hrest] at h
  | case7 t links name hblank hup hshort content modified hfile =>
      cases hthin with
      | keep hrest =>
          cases hrest
          exact h
      | drop hdrop _ => exact absurd hdrop hblank
  | case8 t links name rest hblank hup hshort content modified hfile hrest =>
      simp [follow, hblank, hup, hshort, hfile, hrest] at h
  | case9 t links name rest hblank hup hshort es hdir ih =>
      rw [follow, if_neg hblank, if_neg hup, if_neg hshort, hdir] at h
      cases hthin with
      | keep hrest =>
          rw [follow, if_neg hblank, if_neg hup, if_neg hshort, hdir]
          exact ih h hrest
      | drop hdrop _ => exact absurd hdrop hblank
  | case10 t name rest hblank hup hshort target hlink =>
      rw [follow, if_neg hblank, if_neg hup, if_neg hshort, hlink] at h
      cases h
  | case11 t name rest hblank hup hshort target hlink links ih =>
      rw [follow, if_neg hblank, if_neg hup, if_neg hshort, hlink] at h
      cases hthin with
      | keep hrest =>
          rw [follow, if_neg hblank, if_neg hup, if_neg hshort, hlink]
          exact ih h (hrest.append_left _)
      | drop hdrop _ => exact absurd hdrop hblank

end Trail

namespace FileSystem

variable {fs : FileSystem} {p q : Path} {content content' : Bytes}

/-- What is read at a path is what its steps lead to. -/
theorem exists_follow_of_read (h : fs.read p = .ok content) :
    ∃ above name modified, (fs.startOf p).follow linkLimit
        ((Path.parts p).filterMap Path.Part.step?)
      = .ok (.file above name content modified) := by
  unfold read find at h
  cases hfollow : fs.follow p with
  | error trouble =>
      rw [hfollow] at h
      cases h
  | ok arrival =>
      rw [hfollow] at h
      cases arrival with
      | directory t => cases h
      | missing above name => cases h
      | file above name content' modified =>
          cases h
          rw [follow_eq fs (ne_nil_of_follow hfollow)] at hfollow
          refine ⟨above, name, modified, ?_⟩
          rw [← Path.filter_splitOn]
          exact Trail.follow_of_thinner hfollow (.filter _)

/-- What is read at two spellings of a path is the same. -/
theorem read_eq_of_parts_eq (hparts : Path.parts p = Path.parts q)
    (hp : fs.read p = .ok content) (hq : fs.read q = .ok content') :
    content = content' := by
  have habs : Path.isAbsolute p = Path.isAbsolute q := by
    rw [Bool.eq_iff_iff, Path.isAbsolute_iff, Path.isAbsolute_iff, hparts]
  have hstart : fs.startOf p = fs.startOf q := by
    unfold startOf
    rw [habs]
  obtain ⟨above, name, modified, hfile⟩ := exists_follow_of_read hp
  obtain ⟨above', name', modified', hfile'⟩ := exists_follow_of_read hq
  rw [hstart, hparts, hfile'] at hfile
  cases hfile
  rfl

end FileSystem

end SourceDigest
