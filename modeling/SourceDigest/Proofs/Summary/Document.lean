/-
A summarized record and the summary that is shown of it.

A summary is composed once for what is shown of a record and once for the
record that takes its place. `Section` says what a summary consists of,
told from the summarized record itself: its sections in order, whether each
is asked for, its title, and the body, which for entities, first lines and
snippets is what that record carries. The text is the header and those
sections that are asked for and not empty (`compose_eq`): here the
different tests for emptiness along the way, of lists and of texts, come
to one, as no piece of a summary is empty. What is written as bytes is read
back, so the text of the summarized record is the summary again.
-/
import Mathlib
import SourceDigest.Proofs.Summary.Pieces
import SourceDigest.Proofs.Text.Utf8

namespace SourceDigest

namespace Summary

/-- The sections of a summary behind its header. -/
inductive Section where
  | entities
  | firstLines
  | signatures
  | comments
  | snippets
deriving DecidableEq

/-- All sections in the order in which they stand. -/
def Section.all : List Section :=
  [.entities, .firstLines, .signatures, .comments, .snippets]

end Summary

namespace SummarySettings

open Summary

variable {s : SummarySettings} {find : EntityFinder} {r m : FileRecord}

-- =================================================================== sections

/-- Whether a section is asked for. -/
def asksFor (s : SummarySettings) : Section → Bool
  | .entities => s.entities.enabled
  | .firstLines => s.firstLines
  | .signatures => s.signatures
  | .comments => s.comments
  | .snippets => s.snippets

def titleOf (s : SummarySettings) : Section → Text
  | .entities => "Entities"
  | .firstLines => "First " ++ Text.ofNat s.firstLinesCount ++ " lines"
  | .signatures => "Signatures"
  | .comments => "Comments"
  | .snippets => "Snippets"

/-- What a section shows of a record whose summary another record carries. -/
def bodyOf (s : SummarySettings) (r m : FileRecord) : Section → Text
  | .entities => Entity.format m.entities s.entities.groupByType
  | .firstLines => m.firstLines.getD []
  | .signatures => Text.join "\n" (Signature.all (Language.ofPath r.path) r.text)
  | .comments =>
    Text.join "\n\n" (Comment.extract (Language.ofPath r.path) r.text s.maxComments)
  | .snippets => Text.join "\n" (m.snippets.getD [])

/-- Whether a section is asked for and has something to show. -/
def shows (s : SummarySettings) (r m : FileRecord) (x : Section) : Bool :=
  s.asksFor x && !(s.bodyOf r m x).isEmpty

/-- A section with its title. -/
def written (s : SummarySettings) (r m : FileRecord) (x : Section) : Text :=
  s.titleOf x ++ ":\n" ++ s.bodyOf r m x

/-- What a record that carries a summary has of it: each only when it is asked
for, and of the entities that are found those that are selected. -/
structure Carries (s : SummarySettings) (find : EntityFinder) (r m : FileRecord) :
    Prop where
  entities : m.entities
    = if s.entities.enabled then s.entities.select (find r.path r.text) else []
  formatted : m.formattedEntities
    = if m.entities = [] then none
      else some (Entity.format m.entities s.entities.groupByType)
  firstLines : m.firstLines
    = if s.firstLines then
        some (Text.join "\n" ((Text.lines r.text).take s.firstLinesCount))
      else none
  snippets : m.snippets
    = if s.snippets then Snippet.extract r.text s.snippetCount s.snippetLines
      else none

-- =================================================================== composing

/-- Pieces under a title are a text under it. -/
theorem titledList_eq_titled {title sep : Text} {pieces : List Text}
    (h : ∀ p ∈ pieces, p ≠ []) :
    titledList title sep pieces = titled title (Text.join sep pieces) := by
  unfold titledList titled
  simp only [Text.join_eq_nil_iff h]

theorem titled_if (wanted : Bool) (title body : Text) :
    (if wanted then titled title body else none)
      = if wanted && !body.isEmpty then some (title ++ ":\n" ++ body) else none := by
  unfold titled
  cases wanted <;> cases body <;> simp

/-- First lines are shown if they are asked for and there are any. -/
theorem firstLines_eq (h : s.Carries find r m) :
    (if s.firstLines && s.firstLinesCount > 0 then
        titled (s.titleOf .firstLines) (leadingLines r.text s.firstLinesCount) else none)
      = if s.shows r m .firstLines then some (s.written r m .firstLines) else none := by
  have hbody : s.firstLines = true →
      s.bodyOf r m .firstLines = leadingLines r.text s.firstLinesCount := by
    intro hwanted
    rw [bodyOf, h.firstLines, if_pos hwanted, Option.getD_some]
    rfl
  unfold shows written
  rw [asksFor, ← titled_if]
  cases hwanted : s.firstLines with
  | false => rfl
  | true =>
      rw [hbody hwanted]
      rcases Nat.eq_zero_or_pos s.firstLinesCount with hzero | hpos
      -- no lines are no text
      · rw [hzero]
        rfl
      · simp [hpos]

theorem snippets_eq (h : s.Carries find r m) :
    (s.snippetsOf r.text).map (fun found => "Snippets:\n" ++ Text.join "\n" found)
      = if s.shows r m .snippets then some (s.written r m .snippets) else none := by
  unfold shows written bodyOf titleOf asksFor
  rw [h.snippets]
  unfold snippetsOf
  cases hwanted : s.snippets with
  | false => rfl
  | true =>
      rw [if_pos rfl]
      cases hfound : Snippet.extract r.text s.snippetCount s.snippetLines with
      | none => rfl
      | some found =>
          have hbody := Snippet.join_ne_nil hfound "\n"
          have hshown : (true && !(Text.join "\n" found).isEmpty) = true := by
            rw [Bool.true_and, Bool.not_eq_true', List.isEmpty_eq_false_iff]
            exact hbody
          rw [Option.getD_some, if_pos hshown]
          rfl

/-- Sections come out as they are written, or not at all. -/
theorem sections_eq (h : s.Carries find r m) :
    s.sections r (s.entitiesShown find r) = Section.all.map fun x =>
      if s.shows r m x then some (s.written r m x) else none := by
  unfold sections Section.all
  simp only [List.map_cons, List.map_nil, List.cons.injEq, and_true]
  refine ⟨?_, firstLines_eq h, ?_, ?_, snippets_eq h⟩
  · rw [show s.entitiesShown find r = m.entities from h.entities.symm]
    exact titled_if ..
  · rw [titledList_eq_titled fun p hp => Signature.ne_nil_of_mem_all hp]
    exact titled_if ..
  · rw [titledList_eq_titled fun p hp => Comment.ne_nil_of_mem_extract hp]
    exact titled_if ..

/-- A summary is the header and the sections that show something, with a
blank line between. -/
theorem compose_eq (h : s.Carries find r m) :
    s.compose r (s.entitiesShown find r) = Text.join "\n\n"
      (header r :: (Section.all.filter (s.shows r m)).map (s.written r m)) := by
  unfold compose
  rw [sections_eq h, List.filterMap_map, ← List.filterMap_eq_map, List.filterMap_filter]
  rfl

-- ================================================================== summarized

/-- A record that is summarized carries what its settings ask for. -/
theorem carries_summarized (h : s.applies r = true) :
    s.Carries find r (s.summarized find r) := by
  unfold summarized
  rw [if_pos h]
  exact ⟨rfl, rfl, rfl, rfl⟩

/-- Where summaries do not apply a record stays as it is. -/
theorem summarized_of_not_applies (h : s.applies r = false) :
    s.summarized find r = r := by
  unfold summarized
  rw [h]
  rfl

theorem text_summarized (h : s.applies r = true) :
    (s.summarized find r).text = s.compose r (s.entitiesShown find r) := by
  unfold summarized
  rw [if_pos h]
  exact Text.ofBytes_toBytes _

/-- A summarized record reads as what is shown of the record:

- A record to which summaries do not apply is left as it is.
- Otherwise all that says what became of the path stays. The text is the
  header and, a blank line before each, the sections asked for that have
  something to show, in their order. What they show of entities, first lines
  and snippets is what the summarized record carries. -/
theorem summarized_reads_as_rendered (s : SummarySettings) (find : EntityFinder)
    (r : FileRecord) :
    let m := s.summarized find r
    m.text = s.render find r
      ∧ (s.applies r = false → m = r)
      ∧ (s.applies r = true →
        (m.path = r.path ∧ m.byteSize = r.byteSize ∧ m.lineCount = r.lineCount
          ∧ m.status = r.status ∧ m.summarized = true)
        ∧ s.Carries find r m
        ∧ m.text = Text.join "\n\n"
          (header r :: (Section.all.filter (s.shows r m)).map (s.written r m))) := by
  intro m
  refine ⟨?_, summarized_of_not_applies, fun h => ⟨?_, carries_summarized h, ?_⟩⟩
  · unfold render
    cases h : s.applies r with
    | false =>
        show (s.summarized find r).text = _
        rw [summarized_of_not_applies h]
        rfl
    | true => exact text_summarized h
  · unfold m summarized
    rw [if_pos h]
    exact ⟨rfl, rfl, rfl, rfl, rfl⟩
  · rw [← compose_eq (carries_summarized h)]
    exact text_summarized h

-- Of what is found, the kinds asked for are shown, and no more than one.
example : (summarized
      { sizeThreshold := 0, signatures := false, comments := false
        snippets := false, entities := { enabled := true, maxEntities := 1 } }
      (fun _ _ => [⟨"run", .function⟩, ⟨"os", .imported⟩, ⟨"App", .type⟩])
      (.processed "a.py" (Text.toBytes "import os\n"))).text
    = "File: a.py (10 bytes, 1 lines)\n\nEntities:\nClasses: App\n\nFirst 20 lines:\nimport os" := by
  decide +kernel

end SummarySettings

end SourceDigest
