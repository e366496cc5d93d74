/-
When the statistics of two texts in a row are those of the two, added up.

The first text ends its last line, so the lines of both are the lines of the
one and then those of the other. All that the second is told by the first is
what closes the block that the first has left open (`LineClass.after`): when
nothing is left open, every count of lines is a sum (`isSum_collect`), and when
something is, then a second text of a single letter is counted as a comment
(`collect_append_iff`). The nesting of braces is no count of lines and does
not add up.

For a language whose blocks are triple-quoted strings alone, nothing is left
open exactly when every triple quote that a line begins with is met by the
same one, on its line or on a later one (`Settled`).
-/
import Mathlib
import SourceDigest.Proofs.Lines.Classes

namespace SourceDigest

namespace LineStats

variable {s t u : LineStats} {language : Language}

-- ======================================================================= sums

/-- What is counted in `u` is counted in `s` or in `t`. -/
structure IsSum (s t u : LineStats) : Prop where
  total : u.total = s.total + t.total
  code : u.code = s.code + t.code
  comment : u.comment = s.comment + t.comment
  blank : u.blank = s.blank + t.blank
  functions : u.functions = s.functions + t.functions
  classes : u.classes = s.classes + t.classes
  imports : u.imports = s.imports + t.imports

theorem IsSum.addDeclaration (h : IsSum s t u) (kind : Option EntityKind) :
    IsSum s (t.addDeclaration kind) (u.addDeclaration kind) := by
  obtain ⟨htotal, hcode, hcomment, hblank, hfunctions, hclasses, himports⟩ := h
  rcases kind with _ | kind
  · exact ⟨htotal, hcode, hcomment, hblank, hfunctions, hclasses, himports⟩
  · cases kind <;>
      refine ⟨htotal, hcode, hcomment, hblank, ?_, ?_, ?_⟩ <;>
      simp only [LineStats.addDeclaration, hfunctions, hclasses, himports] <;> omega

/-- A line is counted in the sum if it is counted in the second summand. -/
theorem IsSum.addLine (h : IsSum s t u) (language : Language) (line : Text)
    (c : LineClass) :
    IsSum s (t.addLine language line c) (u.addLine language line c) := by
  cases c with
  | code =>
      have hline : IsSum s { t with total := t.total + 1, code := t.code + 1 }
          { u with total := u.total + 1, code := u.code + 1 } :=
        ⟨congrArg (· + 1) h.total, congrArg (· + 1) h.code, h.comment, h.blank,
          h.functions, h.classes, h.imports⟩
      exact hline.addDeclaration _
  | comment =>
      exact ⟨congrArg (· + 1) h.total, h.code, congrArg (· + 1) h.comment,
        h.blank, h.functions, h.classes, h.imports⟩
  | blank =>
      exact ⟨congrArg (· + 1) h.total, h.code, h.comment,
        congrArg (· + 1) h.blank, h.functions, h.classes, h.imports⟩

/-- Line by line. -/
theorem IsSum.addLines (h : IsSum s t u) (language : Language)
    (ls : List (Text × LineClass)) :
    IsSum s (ls.foldl (fun s l => s.addLine language l.1 l.2) t)
      (ls.foldl (fun s l => s.addLine language l.1 l.2) u) := by
  induction ls generalizing t u with
  | nil => exact h
  | cons l ls ih => exact ih (h.addLine language l.1 l.2)

-- ====================================================================== texts

/-- The lines of two texts in a row with their classes, when the first leaves
nothing open. -/
theorem classified_append {text : Text} (htext : text.getLast? = some '\n')
    (hafter : LineClass.after language.comments none (Text.lines text) = none)
    (more : Text) :
    classified language (text ++ more)
      = classified language text ++ classified language more := by
  unfold classified
  dsimp only
  rw [Text.lines_append htext, LineClass.ofLines_append, hafter,
    List.zip_append (LineClass.length_ofLines ..).symm]

/-- When nothing is left open, the counts are sums. -/
theorem isSum_collect {text : Text} (htext : text.getLast? = some '\n')
    (hafter : LineClass.after language.comments none (Text.lines text) = none)
    (more : Text) :
    IsSum (collect language text) (collect language more)
      (collect language (text ++ more)) := by
  have hstart : IsSum (collect language text) {}
      ((classified language text).foldl
        (fun s l => s.addLine language l.1 l.2) {}) :=
    ⟨rfl, rfl, rfl, rfl, rfl, rfl, rfl⟩
  have h := hstart.addLines language (classified language more)
  rw [← List.foldl_append, ← classified_append htext hafter] at h
  -- how deep braces nest is no count of lines
  exact ⟨h.total, h.code, h.comment, h.blank, h.functions, h.classes, h.imports⟩

/-- The counts are sums whatever comes behind exactly when nothing is left
open: in a block that is left open even a letter is a comment. -/
theorem collect_append_iff {text : Text} (htext : text.getLast? = some '\n') :
    (∀ more, IsSum (collect language text) (collect language more)
        (collect language (text ++ more)))
      ↔ LineClass.after language.comments none (Text.lines text) = none := by
  refine ⟨fun h => ?_, isSum_collect htext⟩
  by_contra hopen
  obtain ⟨closing, hclosing⟩ := Option.ne_none_iff_exists'.1 hopen
  have hcode := (h ['x']).code
  have hletter : LineClass.ofLines language.comments none [['x']] = [.code] := by
    cases language <;> rfl
  have hlines : Text.lines ['x'] = [['x']] := rfl
  have hinside : LineClass.ofLines language.comments (some closing) [['x']]
      = [.comment] := rfl
  simp only [(sums_collect _ _).code, map_snd_classified, Text.lines_append htext,
    LineClass.ofLines_append, hclosing, hlines, hletter, hinside,
    List.count_append] at hcode
  simp at hcode

end LineStats

-- =============================================================== triple quotes

namespace LineClass

/-- Lines that leave no triple-quoted string open: every triple quote that a
line outside of strings begins with is met by the same one, on its line or on a
later one. -/
inductive Settled : List Text → Prop
  | nil : Settled []
  | other {line rest} : (∀ quote ∈ tripleQuotes, ¬ quote <+: Text.trim line) →
      Settled rest → Settled (line :: rest)
  | one {quote line tail rest} : quote ∈ tripleQuotes →
      Text.trim line = quote ++ tail → quote <:+: tail →
      Settled rest → Settled (line :: rest)
  | several {quote line tail inner last rest} : quote ∈ tripleQuotes →
      Text.trim line = quote ++ tail → ¬ quote <:+: tail →
      (∀ l ∈ inner, ¬ quote <:+: l) → quote <:+: last →
      Settled rest → Settled (line :: (inner ++ last :: rest))

variable {quote line tail trimmed : Text} {ls : List Text}

/-- In Python a block is opened by a triple quote and by nothing else. -/
theorem opensBlock?_python_iff :
    opensBlock? Language.python.comments trimmed = some (quote, tail)
      ↔ quote ∈ tripleQuotes ∧ trimmed = quote ++ tail := by
  constructor
  · intro h
    rcases exists_of_opensBlock? h with ⟨opening, hblock, -⟩ | ⟨-, hquote, htrimmed⟩
    · cases hblock
    · exact ⟨hquote, htrimmed⟩
  · rintro ⟨hquote, rfl⟩
    rcases List.mem_pair.1 hquote with rfl | rfl <;> rfl

/-- A line opens no block if neither of the triple quotes stands in front. -/
theorem opensBlock?_python_eq_none_iff :
    opensBlock? Language.python.comments trimmed = none
      ↔ ∀ quote ∈ tripleQuotes, ¬ quote <+: trimmed := by
  constructor
  · rintro h quote hquote ⟨tail, rfl⟩
    rw [opensBlock?_python_iff.2 ⟨hquote, rfl⟩] at h
    cases h
  · intro h
    by_contra hopens
    obtain ⟨⟨quote, tail⟩, heq⟩ := Option.ne_none_iff_exists'.1 hopens
    obtain ⟨hquote, rfl⟩ := opensBlock?_python_iff.1 heq
    exact h quote hquote (List.prefix_append ..)

/-- What a line does to the block that it lies in. -/
theorem of_python_inside (hquote : quote ∈ tripleQuotes) (line : Text) :
    (of Language.python.comments (some quote) line).2
      = if quote <:+: line then none else some quote := by
  have hclear := clear_of_mem_tripleQuotes hquote
  rw [of_inside hclear.1 hclear.2]
  simp only [Text.holds_iff]

/-- What a line that begins with a triple quote leaves open. -/
theorem of_python_opens (hquote : quote ∈ tripleQuotes)
    (hline : Text.trim line = quote ++ tail) :
    (of Language.python.comments none line).2
      = if quote <:+: tail then none else some quote := by
  rw [of_opens (clear_comments .python) (opensBlock?_python_iff.2 ⟨hquote, hline⟩)]
  simp only [Text.holds_iff]

/-- Lines without the quote lie in the block. -/
theorem after_python_inside (hquote : quote ∈ tripleQuotes)
    (h : ∀ l ∈ ls, ¬ quote <:+: l) :
    after Language.python.comments (some quote) ls = some quote := by
  induction ls with
  | nil => rfl
  | cons line ls ih =>
      rw [after_cons, of_python_inside hquote,
        if_neg (h line (List.mem_cons_self ..))]
      exact ih fun l hl => h l (List.mem_cons_of_mem _ hl)

theorem Settled.after_eq_none (h : Settled ls) :
    after Language.python.comments none ls = none := by
  induction h with
  | nil => rfl
  | other hline _ ih =>
      rwa [after_cons, of_opens_none (opensBlock?_python_eq_none_iff.2 hline)]
  | one hquote hline htail _ ih =>
      rwa [after_cons, of_python_opens hquote hline, if_pos htail]
  | several hquote hline htail hinner hlast _ ih =>
      rw [after_cons, of_python_opens hquote hline, if_neg htail, after_append,
        after_python_inside hquote hinner, after_cons, of_python_inside hquote,
        if_pos hlast]
      exact ih

/-- A block that is closed is closed by the first line that holds its quote. -/
theorem exists_of_after_inside (hquote : quote ∈ tripleQuotes)
    (h : after Language.python.comments (some quote) ls = none) :
    ∃ inner last rest, ls = inner ++ last :: rest
      ∧ (∀ l ∈ inner, ¬ quote <:+: l) ∧ quote <:+: last
      ∧ after Language.python.comments none rest = none := by
  induction ls with
  | nil => cases h
  | cons line ls ih =>
      rw [after_cons, of_python_inside hquote] at h
      by_cases hline : quote <:+: line
      · rw [if_pos hline] at h
        exact ⟨[], line, ls, rfl, by simp, hline, h⟩
      · rw [if_neg hline] at h
        obtain ⟨inner, last, rest, rfl, hinner, hlast, hrest⟩ := ih h
        refine ⟨line :: inner, last, rest, rfl, ?_, hlast, hrest⟩
        exact List.forall_mem_cons.2 ⟨hline, hinner⟩

/-- Nothing is left open by lines that are settled, and by no others. -/
theorem after_python_eq_none_iff :
    after Language.python.comments none ls = none ↔ Settled ls := by
  refine ⟨fun h => ?_, Settled.after_eq_none⟩
  -- on the number of lines, for a string takes several of them at once
  induction hn : ls.length using Nat.strong_induction_on generalizing ls with
  | _ n ih =>
    subst hn
    cases ls with
    | nil => exact .nil
    | cons line ls =>
        rw [after_cons] at h
        by_cases hopens : ∀ quote ∈ tripleQuotes, ¬ quote <+: Text.trim line
        · rw [of_opens_none (opensBlock?_python_eq_none_iff.2 hopens)] at h
          exact .other hopens (ih _ (Nat.lt_succ_self _) h rfl)
        · push Not at hopens
          obtain ⟨quote, hquote, tail, htail⟩ := hopens
          rw [of_python_opens hquote htail.symm] at h
          by_cases hholds : quote <:+: tail
          · rw [if_pos hholds] at h
            exact .one hquote htail.symm hholds (ih _ (Nat.lt_succ_self _) h rfl)
          · rw [if_neg hholds] at h
            obtain ⟨inner, last, rest, rfl, hinner, hlast, hrest⟩ :=
              exists_of_after_inside hquote h
            refine .several hquote htail.symm hholds hinner hlast (ih _ ?_ hrest rfl)
            simp
            omega

end LineClass

end SourceDigest
