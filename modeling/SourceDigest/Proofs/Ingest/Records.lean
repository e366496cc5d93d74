/-
What becomes of a path that is read.

`Reading` says once what reading can come to, with all that has to be so
for it: a path leads nowhere, or to no file, or to a file that is too
large, that is not opened, that is binary, or that is read. Every record
is one of these (`reading_readRecord`), and no two of them agree on what
they find, so a record that is known to be of a kind tells what stands at
its path, and the other way round.

Both strategies read all bytes (`ReadStrategy.read_eq`), so how large a
file must be to be read at once is not to be seen from its record.
-/
import Mathlib
import SourceDigest.Ingest.Read

namespace SourceDigest

/-- Both strategies read what is there. -/
theorem ReadStrategy.read_eq (strategy : ReadStrategy) (size : Nat)
    (content : Bytes) : strategy.read size content = content := by
  cases strategy with
  | buffered => exact List.take_append_drop size content
  | mapped => rfl

namespace FileRecord

/-- Whether a file was passed over. -/
def isSkipped (r : FileRecord) : Bool :=
  match r.status with
  | .skipped _ => true
  | _ => false

/-- Whether a file could not be read. -/
def isErrored (r : FileRecord) : Bool :=
  match r.status with
  | .errored _ => true
  | _ => false

end FileRecord

namespace FileSystem

variable {fs : FileSystem} {refusals : Refusals} {s : IngestSettings}
  {path : Path} {content : Bytes} {modified : Int} {trouble : FileTrouble}
  {r : FileRecord}

/-- What reading a path can come to, and when it does. -/
inductive Reading (fs : FileSystem) (refusals : Refusals) (s : IngestSettings)
    (path : Path) : FileRecord → Prop
  | lost {trouble : FileTrouble} :
    fs.find path = .error trouble →
    Reading fs refusals s path (.errored path trouble.message)
  | notAFile {entry : FileNode} :
    fs.find path = .ok entry →
    (∀ content modified, entry ≠ .file content modified) →
    Reading fs refusals s path (.skipped path 0 .notAFile)
  | tooLarge {content : Bytes} {modified : Int} :
    fs.find path = .ok (.file content modified) →
    s.sizeLimit < content.length →
    Reading fs refusals s path (.skipped path content.length .tooLarge)
  | refused {content : Bytes} {modified : Int} {trouble : FileTrouble} :
    fs.find path = .ok (.file content modified) →
    content.length ≤ s.sizeLimit →
    refusals path = some trouble →
    Reading fs refusals s path (.errored path trouble.message)
  | binary {content : Bytes} {modified : Int} :
    fs.find path = .ok (.file content modified) →
    content.length ≤ s.sizeLimit →
    refusals path = none →
    (0 : UInt8) ∈ content.take binarySample →
    Reading fs refusals s path (.skipped path content.length .binary)
  | read {content : Bytes} {modified : Int} :
    fs.find path = .ok (.file content modified) →
    content.length ≤ s.sizeLimit →
    refusals path = none →
    (0 : UInt8) ∉ content.take binarySample →
    Reading fs refusals s path (.processed path content)

/-- What reading a file can come to. -/
theorem Reading.cases_file (h : Reading fs refusals s path r)
    (hfile : fs.find path = .ok (.file content modified)) :
    (s.sizeLimit < content.length ∧ r = .skipped path content.length .tooLarge)
    ∨ (content.length ≤ s.sizeLimit ∧ ∃ trouble, refusals path = some trouble
      ∧ r = .errored path trouble.message)
    ∨ (content.length ≤ s.sizeLimit ∧ refusals path = none
      ∧ (0 : UInt8) ∈ content.take binarySample
      ∧ r = .skipped path content.length .binary)
    ∨ (content.length ≤ s.sizeLimit ∧ refusals path = none
      ∧ (0 : UInt8) ∉ content.take binarySample ∧ r = .processed path content) := by
  cases h with
  | lost hlost =>
      rw [hfile] at hlost
      cases hlost
  | notAFile hentry hne =>
      rw [hfile] at hentry
      cases hentry
      exact absurd rfl (hne content modified)
  | tooLarge hfind hlarge =>
      rw [hfile] at hfind
      cases hfind
      exact Or.inl ⟨hlarge, rfl⟩
  | refused hfind hsize hrefusal =>
      rw [hfile] at hfind
      cases hfind
      exact Or.inr (Or.inl ⟨hsize, _, hrefusal, rfl⟩)
  | binary hfind hsize hrefusal hbinary =>
      rw [hfile] at hfind
      cases hfind
      exact Or.inr (Or.inr (Or.inl ⟨hsize, hrefusal, hbinary, rfl⟩))
  | read hfind hsize hrefusal htext =>
      rw [hfile] at hfind
      cases hfind
      exact Or.inr (Or.inr (Or.inr ⟨hsize, hrefusal, htext, rfl⟩))

-- ============================================================ files in parts

/-- What is refused cannot be opened. -/
theorem openFile_of_refused (h : refusals path = some trouble) :
    fs.openFile refusals path = .error trouble := by
  unfold openFile
  rw [h]

/-- What is found and not refused can. -/
theorem openFile_of_find (hfind : fs.find path = .ok (.file content modified))
    (h : refusals path = none) : fs.openFile refusals path = .ok content := by
  unfold openFile FileSystem.read
  rw [h]
  dsimp only
  rw [hfind]

/-- A start is binary when the content is. -/
theorem isBinary_take (content : Bytes) :
    isBinary (content.take binarySample) = true
      ↔ (0 : UInt8) ∈ content.take binarySample := by
  unfold isBinary
  rw [List.take_take, Nat.min_self, List.contains_iff_mem]

/-- Reading a path comes to one of these. -/
theorem reading_readRecord (fs : FileSystem) (refusals : Refusals)
    (s : IngestSettings) (path : Path) :
    Reading fs refusals s path (fs.readRecord refusals s path) := by
  unfold readRecord
  cases hfind : fs.find path with
  | error trouble => exact .lost hfind
  | ok entry =>
      cases entry with
      | directory entries => exact .notAFile hfind fun _ _ h => by cases h
      | link target => exact .notAFile hfind fun _ _ h => by cases h
      | file content modified =>
          dsimp only
          split
          · rename_i hlarge
            exact .tooLarge hfind hlarge
          · rename_i hsize
            have hle := not_lt.1 hsize
            unfold sample
            cases hrefusal : refusals path with
            | some trouble =>
                rw [openFile_of_refused hrefusal]
                exact .refused hfind hle hrefusal
            | none =>
                rw [openFile_of_find hfind hrefusal]
                show Reading _ _ _ _ (if isBinary (content.take binarySample)
                  then _ else FileRecord.processed path _)
                rw [ReadStrategy.read_eq]
                split
                · rename_i hbinary
                  exact .binary hfind hle hrefusal
                    ((isBinary_take content).1 hbinary)
                · rename_i htext
                  exact .read hfind hle hrefusal
                    fun hmem => htext ((isBinary_take content).2 hmem)

-- =================================================================== records

/-- A record is of one kind only. -/
theorem kinds_readRecord (fs : FileSystem) (refusals : Refusals)
    (s : IngestSettings) (path : Path) :
    [(fs.readRecord refusals s path).isProcessed,
      (fs.readRecord refusals s path).isSkipped,
      (fs.readRecord refusals s path).isErrored].count true = 1 := by
  have h := reading_readRecord fs refusals s path
  generalize fs.readRecord refusals s path = r at h
  cases h with
  | lost _ | notAFile _ _ | tooLarge _ _ | refused _ _ _ | binary _ _ _ _
  | read _ _ _ _ => rfl

/-- What is read is a file that is not too large, is opened, and has no zero
byte near its start. -/
theorem isProcessed_readRecord_iff :
    (fs.readRecord refusals s path).isProcessed = true
      ↔ ∃ content modified, fs.find path = .ok (.file content modified)
        ∧ content.length ≤ s.sizeLimit ∧ refusals path = none
        ∧ (0 : UInt8) ∉ content.take binarySample := by
  have h := reading_readRecord fs refusals s path
  generalize fs.readRecord refusals s path = r at h
  constructor
  · intro hr
    cases h with
    | read hfind hsize hrefusal htext =>
        exact ⟨_, _, hfind, hsize, hrefusal, htext⟩
    | lost _ | notAFile _ _ | tooLarge _ _ | refused _ _ _ | binary _ _ _ _ =>
        cases hr
  · rintro ⟨content, modified, hfind, hsize, hrefusal, htext⟩
    rcases h.cases_file hfind with ⟨hlarge, -⟩ | ⟨-, trouble, hrefused, -⟩
      | ⟨-, -, hbinary, -⟩ | ⟨-, -, -, rfl⟩
    · exact absurd hsize (not_le.2 hlarge)
    · rw [hrefusal] at hrefused
      cases hrefused
    · exact absurd hbinary htext
    · rfl

/-- A record carries content when its file is read, and then all of it. -/
theorem content_readRecord_iff :
    (fs.readRecord refusals s path).content = some content
      ↔ (fs.readRecord refusals s path).isProcessed = true
        ∧ ∃ modified, fs.find path = .ok (.file content modified) := by
  have h := reading_readRecord fs refusals s path
  generalize fs.readRecord refusals s path = r at h
  constructor
  · intro hr
    cases h with
    | read hfind _ _ _ =>
        cases hr
        exact ⟨rfl, _, hfind⟩
    | lost _ | notAFile _ _ | tooLarge _ _ | refused _ _ _ | binary _ _ _ _ =>
        cases hr
  · rintro ⟨hr, modified, hfile⟩
    cases h with
    | read hfind _ _ _ =>
        rw [hfile] at hfind
        cases hfind
        rfl
    | lost _ | notAFile _ _ | tooLarge _ _ | refused _ _ _ | binary _ _ _ _ =>
        cases hr

end FileSystem

end SourceDigest
