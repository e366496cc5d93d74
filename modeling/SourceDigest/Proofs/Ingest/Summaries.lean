/-
Summaries of records that were not read.

A record of a file that was passed over or could not be read carries no
content when it is made. Whether a summary applies is told by size, name
and settings alone, and a file that is passed over for what it holds or
for being too large is noted with its size. So such a record may be given
a summary for content, of no text, though it counts as skipped all the
same. `summary_of_unread_iff` says exactly when: trouble and what is no
file are noted with size zero and stay as they are, whatever is set.
-/
import Mathlib
import SourceDigest.Proofs.Ingest.Records
import SourceDigest.Proofs.Summary.Document

namespace SourceDigest

namespace SummarySettings

open Summary

variable {s : SummarySettings} {find : EntityFinder} {r : FileRecord}

theorem header_ne_nil (r : FileRecord) : header r ≠ [] := by
  have hlead : ("File: " : Text) ≠ [] := by decide
  unfold header
  intro h
  simp only [List.append_eq_nil_iff] at h
  exact hlead h.1.1.1.1.1.1

/-- So no summary is empty. -/
theorem compose_ne_nil (es : List Entity) : s.compose r es ≠ [] := by
  unfold compose
  by_cases hnone : (s.sections r es).filterMap id = []
  · rw [hnone]
    exact header_ne_nil r
  · rw [Text.join_cons _ _ hnone, List.append_assoc]
    exact List.append_ne_nil_of_left_ne_nil (header_ne_nil r) _

/-- A record without content stays as it is and shows nothing exactly when no
summary applies to it. -/
theorem stays_empty_iff (hcontent : r.content = none)
    (hsummarized : r.summarized = false) :
    (s.summarized find r = r ∧ s.render find r = []) ↔ s.applies r = false := by
  constructor
  · rintro ⟨heq, -⟩
    by_contra happlies
    rw [Bool.not_eq_false] at happlies
    unfold summarized at heq
    rw [if_pos happlies] at heq
    have hflag := congrArg FileRecord.summarized heq
    rw [hsummarized] at hflag
    cases hflag
  · intro happlies
    refine ⟨summarized_of_not_applies happlies, ?_⟩
    unfold render FileRecord.text
    rw [happlies, hcontent]
    rfl

end SummarySettings

namespace FileSystem

variable {fs : FileSystem} {refusals : Refusals} {ingest : IngestSettings}
  {s : SummarySettings} {path : Path} {r : FileRecord}

/-- A record of what was not read has nothing but a size. -/
theorem Reading.unread (h : Reading fs refusals ingest path r)
    (hr : r.isProcessed = false) :
    r.path = path ∧ r.content = none ∧ r.summarized = false := by
  cases h with
  | read _ _ _ _ => cases hr
  | lost _ | notAFile _ _ | tooLarge _ _ | refused _ _ _ | binary _ _ _ _ =>
      exact ⟨rfl, rfl, rfl⟩

/-- It has the size of a file when it was passed over for what that file
is. -/
theorem Reading.lt_byteSize_iff (h : Reading fs refusals ingest path r)
    (hr : r.isProcessed = false) (n : Nat) :
    n < r.byteSize ↔ ∃ content modified, fs.find path = .ok (.file content modified)
      ∧ (ingest.sizeLimit < content.length ∨ refusals path = none)
      ∧ n < content.length := by
  constructor
  · intro hn
    cases h with
    | read _ _ _ _ => cases hr
    | lost _ | notAFile _ _ | refused _ _ _ => exact absurd hn (Nat.not_lt_zero n)
    | tooLarge hfind hlarge => exact ⟨_, _, hfind, Or.inl hlarge, hn⟩
    | binary hfind _ hrefusal _ => exact ⟨_, _, hfind, Or.inr hrefusal, hn⟩
  · rintro ⟨content, modified, hfind, hwhy, hn⟩
    rcases h.cases_file hfind with ⟨-, rfl⟩ | ⟨hsize, trouble, hrefused, rfl⟩
      | ⟨-, -, -, rfl⟩ | ⟨-, -, -, rfl⟩
    · exact hn
    · rcases hwhy with hlarge | hnone
      · exact absurd hsize (not_le.2 hlarge)
      · rw [hnone] at hrefused
        cases hrefused
    · exact hn
    · cases hr

/-- What was not read and has a size was passed over. -/
theorem Reading.isSkipped_of_lt_byteSize (h : Reading fs refusals ingest path r)
    (hr : r.isProcessed = false) {n : Nat} (hn : n < r.byteSize) :
    r.isSkipped = true := by
  cases h with
  | read _ _ _ _ => cases hr
  | lost _ | refused _ _ _ => exact absurd hn (Nat.not_lt_zero n)
  | notAFile _ _ | tooLarge _ _ | binary _ _ _ _ => rfl

/-- A path that is not read gives a record without content. It is given none
by a summary and shows nothing, unless summaries are made, the path leads to
a file above the threshold that is passed over for its size or its content,
and it is not a read-me file that stays whole. Then the record is given a
summary for content and is still one of a file that was skipped. -/
theorem summary_of_unread_iff (s : SummarySettings) (find : EntityFinder)
    (fs : FileSystem) (refusals : Refusals) (ingest : IngestSettings) (path : Path)
    (hr : (fs.readRecord refusals ingest path).isProcessed = false) :
    let r := fs.readRecord refusals ingest path
    let m := s.summarized find r
    let gains := s.enabled = true ∧ (s.includeReadme && isReadme path) = false
      ∧ ∃ content modified, fs.find path = .ok (.file content modified)
        ∧ (ingest.sizeLimit < content.length ∨ refusals path = none)
        ∧ s.sizeThreshold < content.length
    (r.content = none ∧ r.summarized = false)
      ∧ ((m = r ∧ s.render find r = []) ↔ ¬ gains)
      ∧ (gains → m.isSkipped = true ∧ m.content.isSome = true
        ∧ m.summarized = true ∧ s.render find r ≠ []) := by
  intro r m gains
  have hreading := reading_readRecord fs refusals ingest path
  obtain ⟨hpath, hcontent, hsummarized⟩ := hreading.unread hr
  have happlies : s.applies r = true ↔ gains := by
    unfold SummarySettings.applies
    rw [Bool.and_eq_true, Bool.and_eq_true, decide_eq_true_eq, Bool.not_eq_true',
      show r.path = path from hpath, gt_iff_lt, hreading.lt_byteSize_iff hr]
    exact ⟨fun ⟨⟨h, h'⟩, h''⟩ => ⟨h, h'', h'⟩, fun ⟨h, h'', h'⟩ => ⟨⟨h, h'⟩, h''⟩⟩
  refine ⟨⟨hcontent, hsummarized⟩, ?_, fun hgains => ?_⟩
  · rw [SummarySettings.stays_empty_iff hcontent hsummarized, ← happlies,
      Bool.not_eq_true]
  · have hsome := happlies.2 hgains
    obtain ⟨-, -, hfile⟩ := hgains
    have hskipped := hreading.isSkipped_of_lt_byteSize hr
      ((hreading.lt_byteSize_iff hr s.sizeThreshold).2 hfile)
    have hm : m = s.summarized find r := rfl
    unfold SummarySettings.summarized at hm
    rw [if_pos hsome] at hm
    refine ⟨by rw [hm]; exact hskipped, by rw [hm]; rfl, by rw [hm], ?_⟩
    unfold SummarySettings.render SummarySettings.summarize
    rw [if_pos hsome]
    exact SummarySettings.compose_ne_nil _

-- ============================================================= a zero byte

/-- A file of one zero byte. -/
def ofZeroByte : FileSystem where
  top := [("r".toList, .directory [("a.bin".toList, .file [0] 0)])]
  here := []

theorem find_ofZeroByte : ofZeroByte.find "/r/a.bin" = .ok (.file [0] 0) := by
  simp [ofZeroByte, FileSystem.find, FileSystem.follow, Path.isAbsolute,
    Text.splitOn, Trail.follow, Trail.entries, Trail.enter, Text.byteSize,
    nameLimit, show 'r'.utf8Size = 1 from rfl,
    show 'a'.utf8Size = 1 from rfl, show '.'.utf8Size = 1 from rfl,
    show 'b'.utf8Size = 1 from rfl, show 'i'.utf8Size = 1 from rfl,
    show 'n'.utf8Size = 1 from rfl]

theorem readRecord_ofZeroByte :
    ofZeroByte.readRecord (fun _ => none) {} "/r/a.bin"
      = .skipped "/r/a.bin" 1 .binary := by
  unfold FileSystem.readRecord FileSystem.sample FileSystem.openFile
    FileSystem.read
  rw [find_ofZeroByte]
  rfl

/-- Up to the threshold the record stays as it is, and above it it does
not. -/
theorem summary_of_zero_byte :
    let r := ofZeroByte.readRecord (fun _ => none) {} "/r/a.bin"
    r.isProcessed = false
      ∧ SummarySettings.summarized {} (fun _ _ => []) r = r
      ∧ (SummarySettings.summarized { sizeThreshold := 0 } (fun _ _ => []) r).isSkipped
        = true
      ∧ SummarySettings.render { sizeThreshold := 0 } (fun _ _ => []) r ≠ [] := by
  intro r
  have hr : r.isProcessed = false := by
    unfold r
    rw [readRecord_ofZeroByte]
    rfl
  obtain ⟨-, hstays, -⟩ := summary_of_unread_iff {} (fun _ _ => []) ofZeroByte
    (fun _ => none) {} "/r/a.bin" hr
  obtain ⟨-, -, hgains⟩ := summary_of_unread_iff { sizeThreshold := 0 }
    (fun _ _ => []) ofZeroByte (fun _ => none) {} "/r/a.bin" hr
  refine ⟨hr, (hstays.2 ?_).1, ?_⟩
  · rintro ⟨-, -, content, modified, hfind, -, hlong⟩
    rw [find_ofZeroByte] at hfind
    cases hfind
    revert hlong
    decide
  · obtain ⟨hskipped, -, -, hshown⟩ := hgains
      ⟨rfl, by decide, _, _, find_ofZeroByte, Or.inr rfl, by decide⟩
    exact ⟨hskipped, hshown⟩

/-- Above it a skipped file is given content, and is said to be
summarized. -/
theorem summarized_gives_skipped_content :
    let r := ofZeroByte.readRecord (fun _ => none) {} "/r/a.bin"
    let s : SummarySettings := { sizeThreshold := 0 }
    let m := s.summarized (fun _ _ => []) r
    r = .skipped "/r/a.bin" 1 .binary ∧ m.isSkipped = true ∧ m ≠ r
      ∧ m.summarized = true
      ∧ m.content = some (Text.toBytes "File: /r/a.bin (1 bytes, 0 lines)")
      ∧ s.render (fun _ _ => []) r = "File: /r/a.bin (1 bytes, 0 lines)" := by
  rw [readRecord_ofZeroByte]
  decide +kernel

end FileSystem

end SourceDigest
