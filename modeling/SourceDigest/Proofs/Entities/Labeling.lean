/-
Labeling a text line by line: all of it counts, or none of it.

A line is taken when the labeler gives one label for each of its words
(`Takes`). Lines that are taken add their entities and one question each in
front of whatever the lines behind them give (`labelLines_append`); the first
line that is not taken ends the labeling with an error, and that error is all
that is left of the lines before it (`labelLines_of_not_takes`). These two
tell the outcome for every text, since a text has either no line that is not
taken or a first one. An error is answered by the patterns, for the whole text,
and so is labeling that took too long.
-/
import Mathlib
import SourceDigest.Proofs.Entities.Memory

namespace SourceDigest

namespace Labels

variable {labeler labeler' : Labeler} {line : Text} {front rest lines : List Text}

-- ================================================================ single lines

/-- The labeler gives one label for each word of a line. -/
def Takes (labeler : Labeler) (line : Text) : Prop :=
  ∃ labels, labeler (wordTexts line) = .ok labels
    ∧ labels.length = (words line).length

instance (labeler : Labeler) (line : Text) : Decidable (Takes labeler line) :=
  match h : labeler (wordTexts line) with
  | .ok labels => decidable_of_iff (labels.length = (words line).length)
      ⟨fun hlength => ⟨labels, h, hlength⟩, fun ⟨_, hother, hlength⟩ =>
        Except.ok.inj (h.symm.trans hother) ▸ hlength⟩
  | .error _ => isFalse fun ⟨_, hother, _⟩ => nomatch h.symm.trans hother

/-- What the labeler says of a line; nothing if it fails. -/
def given (labeler : Labeler) (line : Text) : List Text :=
  match labeler (wordTexts line) with
  | .ok labels => labels
  | .error _ => []

/-- The entities that the labels on a line spell out. -/
def spelled (labeler : Labeler) (line : Text) : List Entity :=
  decode line (words line) (given labeler line)

theorem labelLine_of_takes (h : Takes labeler line) :
    labelLine labeler line = .ok (given labeler line) := by
  obtain ⟨labels, hlabels, hlength⟩ := h
  unfold labelLine given
  rw [hlabels]
  exact if_pos hlength

/-- A failure and a wrong number of labels both end in an error. -/
theorem labelLine_of_not_takes (h : ¬ Takes labeler line) :
    ∃ e, labelLine labeler line = .error e := by
  unfold labelLine
  cases hlabels : labeler (wordTexts line) with
  | error e => exact ⟨e, rfl⟩
  | ok labels => exact ⟨_, if_neg fun hlength => h ⟨labels, hlabels, hlength⟩⟩

/-- A line without words spells nothing out. -/
theorem spelled_of_words_eq_nil (h : words line = []) : spelled labeler line = [] := by
  unfold spelled decode
  rw [h]
  rfl

-- ================================================================ several lines

/-- The lines that the labeler is asked about. -/
def worded (lines : List Text) : List Text := lines.filter fun l => words l ≠ []

/-- Lines that are taken leave the outcome of the others as it is, behind their
own entities. -/
theorem labelLines_append
    (hfront : ∀ l ∈ front, words l ≠ [] → Takes labeler l) (rest : List Text) :
    labelLines labeler (front ++ rest)
      = ((labelLines labeler rest).1.map (front.flatMap (spelled labeler) ++ ·),
        (worded front).length + (labelLines labeler rest).2) := by
  induction front with
  | nil =>
      rw [List.nil_append]
      cases hrest : labelLines labeler rest with
      | mk found asked => cases found <;> simp [worded, Except.map]
  | cons l front ih =>
      have hl := hfront l (List.mem_cons_self ..)
      have ih := ih fun m hm => hfront m (List.mem_cons_of_mem _ hm)
      rw [List.cons_append, labelLines, List.flatMap_cons]
      by_cases hwords : words l = []
      · rw [if_pos hwords, ih, spelled_of_words_eq_nil hwords]
        simp [worded, hwords]
      · rw [if_neg hwords, labelLine_of_takes (hl hwords), ih]
        cases hrest : labelLines labeler rest with
        | mk found asked =>
            cases found <;> simp [worded, hwords, Except.map, spelled] <;> omega

/-- The first line that is not taken ends the labeling. -/
theorem labelLines_of_not_takes
    (hfront : ∀ l ∈ front, words l ≠ [] → Takes labeler l)
    (hwords : words line ≠ []) (hline : ¬ Takes labeler line) (rest : List Text) :
    ∃ e, labelLines labeler (front ++ line :: rest)
      = (.error e, (worded front).length + 1) := by
  obtain ⟨e, he⟩ := labelLine_of_not_takes hline
  refine ⟨e, ?_⟩
  rw [labelLines_append hfront, labelLines, if_neg hwords, he]
  rfl

/-- A text with a line that is not taken has a first one. -/
theorem exists_first_not_takes
    (h : ∃ l ∈ lines, words l ≠ [] ∧ ¬ Takes labeler l) :
    ∃ front l rest, lines = front ++ l :: rest
      ∧ (∀ m ∈ front, words m ≠ [] → Takes labeler m)
      ∧ words l ≠ [] ∧ ¬ Takes labeler l := by
  induction lines with
  | nil =>
      obtain ⟨l, hl, -⟩ := h
      cases hl
  | cons m lines ih =>
      by_cases hm : words m ≠ [] ∧ ¬ Takes labeler m
      · exact ⟨[], m, lines, rfl, by simp, hm⟩
      · have hrest : ∃ l ∈ lines, words l ≠ [] ∧ ¬ Takes labeler l := by
          obtain ⟨l, hl, hbad⟩ := h
          rcases List.mem_cons.1 hl with rfl | hl
          · exact absurd hbad hm
          · exact ⟨l, hl, hbad⟩
        obtain ⟨front, l, rest, rfl, hfront, hbad⟩ := ih hrest
        refine ⟨m :: front, l, rest, rfl, fun k hk hwords => ?_, hbad⟩
        rcases List.mem_cons.1 hk with rfl | hk
        · exact not_not.1 fun h => hm ⟨hwords, h⟩
        · exact hfront k hk hwords

/-- What the labeler would say of the lines behind the first that is not taken
has no part in the outcome. -/
theorem labelLines_congr (hwords : words line ≠ [])
    (hline : ¬ Takes labeler line)
    (hsame : ∀ l ∈ front ++ [line],
      labeler' (wordTexts l) = labeler (wordTexts l)) (rest rest' : List Text) :
    labelLines labeler' (front ++ line :: rest')
      = labelLines labeler (front ++ line :: rest) := by
  have hlabel : ∀ l ∈ front ++ [line], labelLine labeler' l = labelLine labeler l := by
    intro l hl
    unfold labelLine
    rw [hsame l hl]
  clear hsame
  induction front with
  | nil =>
      obtain ⟨e, he⟩ := labelLine_of_not_takes hline
      have he' := (hlabel line (by simp)).trans he
      rw [List.nil_append, List.nil_append, labelLines, labelLines,
        if_neg hwords, if_neg hwords, he, he']
  | cons l front ih =>
      have ih := ih fun m hm => hlabel m (List.mem_cons_of_mem _ hm)
      rw [List.cons_append, List.cons_append, labelLines, labelLines,
        hlabel l (List.mem_cons_self ..), ih]

end Labels

namespace LearnedFinder

open Labels

variable {f : LearnedFinder} {elapsed : Nat} {path : Path} {content : Text}

-- ================================================================ single texts

/-- In time, the entities of all lines are the answer. -/
theorem findFresh_of_takes
    (htakes : ∀ l ∈ Text.lines content, words l ≠ [] → Takes f.labeler l)
    (htime : elapsed ≤ f.timeBudget * nanosPerMilli) :
    (f.findFresh elapsed path content).1
      = firstOccurrences ((Text.lines content).flatMap (spelled f.labeler)) := by
  have hlines := labelLines_append htakes []
  rw [List.append_nil] at hlines
  unfold findFresh
  rw [hlines]
  dsimp only [labelLines, Except.map]
  rw [if_neg (Nat.not_lt.2 htime), List.append_nil]

/-- Too late, the patterns answer. -/
theorem findFresh_of_late (hlate : f.timeBudget * nanosPerMilli < elapsed) :
    (f.findFresh elapsed path content).1 = Entity.inFile path content := by
  unfold findFresh
  dsimp only
  split
  · rw [if_pos hlate]
  · rfl

/-- With a line that is not taken the patterns answer, and no line behind it
was asked about. -/
theorem findFresh_of_not_takes {front rest : List Text} {line : Text}
    (hlines : Text.lines content = front ++ line :: rest)
    (hfront : ∀ l ∈ front, words l ≠ [] → Takes f.labeler l)
    (hwords : words line ≠ []) (hline : ¬ Takes f.labeler line) :
    f.findFresh elapsed path content
      = (Entity.inFile path content, (worded front).length + 1) := by
  obtain ⟨e, he⟩ := labelLines_of_not_takes hfront hwords hline rest
  unfold findFresh
  rw [hlines, he]

/-- Without a cache a finder gives the entities of all lines of a text or the
entities of its patterns, and never some of each:

- If the labeler gives one label for each word of every line that has words,
  and does so in time, the answer is what the labels spell out line by line,
  each entity at its first occurrence.
- If it fails or gives another number of labels on any such line, or takes too
  long, the answer is that of the patterns for the whole text.
- The first such line is the last that the labeler is asked about: it is asked
  once for each line with words up to that one, and whatever it would say of
  others, or whatever stood behind, the outcome of the labeling is the same. -/
theorem labeled_as_whole_or_not_at_all (f : LearnedFinder)
    (hcache : f.cacheEnabled = false) (elapsed : Nat) (path : Path)
    (content : Text) :
    let lines := Text.lines content
    let answer := f.find elapsed path content
    ((∀ l ∈ lines, words l ≠ [] → Takes f.labeler l) →
        elapsed ≤ f.timeBudget * nanosPerMilli →
        answer.1 = firstOccurrences (lines.flatMap (spelled f.labeler)))
      ∧ ((∃ l ∈ lines, words l ≠ [] ∧ ¬ Takes f.labeler l)
          ∨ f.timeBudget * nanosPerMilli < elapsed →
        answer.1 = Entity.inFile path content)
      ∧ ∀ front line rest, lines = front ++ line :: rest →
        (∀ l ∈ front, words l ≠ [] → Takes f.labeler l) →
        words line ≠ [] → ¬ Takes f.labeler line →
          answer.2.asked = f.asked + (worded front).length + 1
          ∧ ∀ labeler' rest',
            (∀ l ∈ front ++ [line],
              labeler' (wordTexts l) = f.labeler (wordTexts l)) →
            labelLines labeler' (front ++ line :: rest')
              = labelLines f.labeler lines := by
  intro lines answer
  have hanswer : answer = ((f.findFresh elapsed path content).1,
      { f with asked := f.asked + (f.findFresh elapsed path content).2 }) :=
    answer_of_not_cacheEnabled hcache ⟨elapsed, path, content⟩
  rw [hanswer]
  refine ⟨findFresh_of_takes, ?_, ?_⟩
  · rintro (hbad | hlate)
    · obtain ⟨front, line, rest, hlines, hfront, hwords, hline⟩ :=
        exists_first_not_takes hbad
      exact congrArg Prod.fst
        (findFresh_of_not_takes hlines hfront hwords hline)
    · exact findFresh_of_late hlate
  · intro front line rest hlines hfront hwords hline
    refine ⟨?_, fun labeler' rest' hsame => ?_⟩
    · show f.asked + (f.findFresh elapsed path content).2 = _
      rw [findFresh_of_not_takes hlines hfront hwords hline]
      exact (Nat.add_assoc ..).symm
    · rw [hlines]
      exact labelLines_congr hwords hline hsame rest rest'

/-- A labeler to which every word is a class, and which gives up at a question
mark. -/
def upToQuestion : Labeler := fun ws =>
  if ws.contains ['?'] then .error (.inference "gave up")
  else .ok (ws.map fun _ => "B-CLASS")

theorem labeled_up_to_question :
    let f := ofLabeler upToQuestion { cache := false }
    (f.find 0 "a.rs" "A\n\nA B").1 = [⟨"A", .type⟩, ⟨"B", .type⟩]
      ∧ (f.find 0 "a.rs" "A\nstruct B ?\nC ?").1 = [⟨"B", .type⟩]
      ∧ (f.find 0 "a.rs" "A\nstruct B ?\nC ?").2.asked = 2 := by
  intro f
  have htaken := labeled_as_whole_or_not_at_all f rfl 0 "a.rs" "A\n\nA B"
  have hrefused :=
    labeled_as_whole_or_not_at_all f rfl 0 "a.rs" "A\nstruct B ?\nC ?"
  refine ⟨(htaken.1 (by decide) (by decide)).trans (by decide),
    (hrefused.2.1 (.inl (by decide))).trans (by decide), ?_⟩
  exact (hrefused.2.2 ["A".toList] "struct B ?" ["C ?".toList] (by decide)
    (by decide) (by decide) (by decide)).1.trans (by decide)

end LearnedFinder

end SourceDigest
