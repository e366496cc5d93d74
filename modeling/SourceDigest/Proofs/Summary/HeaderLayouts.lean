/-
Python headers over several lines.

A header may be broken at the spaces in its brackets, with blanks in front of the
lines behind and a remark behind the lines in front (`Layout`). Whether a line
starts a header is said by its beginning alone, up to the first letter of the name
(`startsAt_iff`), and the first break stands behind that.

What a header is captured from is the code of its lines. A reader that is in code
at each break comes to the next piece with the same brackets open as if it had
read on (`captureIndented_layout`, by induction on the layout), and the pieces are
joined by the spaces that they were broken at. So the layouts of a header all give
its signature exactly when the reader comes to its end, and to each place where it
may be broken, in code (`laidOutAlike_iff`): a reader that is in a string at a
break reads the remark there on as part of it, and some remark closes the header.
-/
import Mathlib
import SourceDigest.Proofs.Pattern.Runs
import SourceDigest.Proofs.Imports.FromImports
import SourceDigest.Proofs.Summary.Headers
import SourceDigest.Proofs.Summary.HeaderReading

namespace SourceDigest

namespace Signature

open Pattern DeclarationRules
open Text (isBlank)
open Imports (IsSpace IsGap IsLineEnd)
open Literal (Quote)

variable {head front back line piece tail e g t : Text} {more rest parts : List Text}
  {c : Char} {depth taken : Nat}

-- ================================================================== beginnings

/-- A word that a header may begin with, and the blanks behind it. -/
inductive IsAsync : Text → Prop
  | none : IsAsync []
  | word {g : Text} : IsSpace g → g ≠ [] → IsAsync ("async" ++ g)

/-- What a header begins with, up to the first letter of its name. -/
inductive Opening : Text → Prop
  | mk {g a w g₁ : Text} {c : Char} : IsSpace g → IsAsync a → w ∈ (["def", "class"] : List Text) →
      IsSpace g₁ → g₁ ≠ [] → (c.isAlpha || c == '_') = true →
      Opening (g ++ (a ++ (w ++ (g₁ ++ [c]))))

/-- No bracket stands there. -/
theorem Opening.notMem (h : Opening t) (hc : c = '(' ∨ c = '[' ∨ c = '\x7b') : c ∉ t := by
  obtain @⟨g, a, w, g₁, d, hg, ha, hw, hg₁, -, hd⟩ := h
  have hblank : isBlank c = false := by
    rcases hc with rfl | rfl | rfl <;> decide
  have hasync : c ∉ a := by
    cases ha with
    | none => exact List.not_mem_nil
    | word hg _ =>
        rw [List.mem_append, not_or]
        refine ⟨?_, hg.notMem hblank⟩
        rcases hc with rfl | rfl | rfl <;> decide
  have hword : ∀ w ∈ (["def", "class"] : List Text), c ∉ w := by
    rcases hc with rfl | rfl | rfl <;> decide
  have hletter : c ≠ d := by
    rintro rfl
    rcases hc with rfl | rfl | rfl <;> cases hd
  simp only [List.mem_append, List.mem_singleton, hg.notMem hblank, hasync, hword w hw,
    hg₁.notMem hblank, hletter, or_self, not_false_eq_true]

theorem isAnchored_pythonStart : pythonStart.IsAnchored :=
  ((((isAnchored_atStart.append _).append _).append _).append _).append _

section

variable {α : Type} {k : Pattern.Place → Option α} {a : α} {n : Nat} {l : Option Char}
  {u w : Text}

/-- What is taken in front of the keyword. -/
theorem exists_of_run_async (h : run (maybe "async") ⟨n, l, t, []⟩ k = some a) :
    ∃ w u m l', t = w ++ u ∧ IsAsync w ∧ k ⟨m, l', u, []⟩ = some a := by
  unfold maybe spaced at h
  rw [run_opt, run_append, Option.or_eq_some_iff] at h
  rcases h with h | ⟨-, h⟩
  · obtain ⟨v, rfl, hspace⟩ := exists_of_run_ofText h
    obtain ⟨g, u, rfl, hne, hg, hk⟩ := exists_of_run_many1 hspace
    exact ⟨_, u, _, _, (List.append_assoc ..).symm, .word hg hne, hk⟩
  · exact ⟨[], t, n, l, rfl, .none, h⟩

theorem isSome_run_async (hw : IsAsync w) (hk : ∀ m l, (k ⟨m, l, u, []⟩).isSome) :
    (run (maybe "async") ⟨n, l, w ++ u, []⟩ k).isSome := by
  unfold maybe spaced
  rw [run_opt, run_append, Option.isSome_or, Bool.or_eq_true]
  cases hw with
  | none => exact Or.inr (hk n l)
  | word hg hne =>
      rw [List.append_assoc, run_ofText]
      exact Or.inl (isSome_run_many1 hg hne (hk _ _))

/-- The keyword. -/
theorem run_keyword (s : Pattern.Place) :
    run (words ["def", "class"]) s k
      = (run (ofText "def".toList) s k).or (run (ofText "class".toList) s k) :=
  run_orElse _ _ s k

theorem exists_of_run_keyword (h : run (words ["def", "class"]) ⟨n, l, t, []⟩ k = some a) :
    ∃ w ∈ (["def", "class"] : List Text), ∃ u m l', t = w ++ u
      ∧ k ⟨m, l', u, []⟩ = some a := by
  rw [run_keyword, Option.or_eq_some_iff] at h
  rcases h with h | ⟨-, h⟩
  · obtain ⟨u, rfl, hk⟩ := exists_of_run_ofText h
    exact ⟨_, by decide, u, _, _, rfl, hk⟩
  · obtain ⟨u, rfl, hk⟩ := exists_of_run_ofText h
    exact ⟨_, by decide, u, _, _, rfl, hk⟩

theorem isSome_run_keyword (hw : w ∈ (["def", "class"] : List Text))
    (hk : ∀ m l, (k ⟨m, l, u, []⟩).isSome) :
    (run (words ["def", "class"]) ⟨n, l, w ++ u, []⟩ k).isSome := by
  have hone : (run (ofText w) ⟨n, l, w ++ u, []⟩ k).isSome := by
    rw [run_ofText]
    exact hk _ _
  rw [run_keyword, Option.isSome_or, Bool.or_eq_true]
  rcases List.mem_pair.1 hw with rfl | rfl
  · exact Or.inl hone
  · exact Or.inr hone

end

/-- A line starts a header exactly when it begins like one. -/
theorem startsAt_iff : startsAt .python line = true ↔ ∃ t, Opening t ∧ t <+: line := by
  show pythonStart.isIn line = true ↔ _
  rw [isIn_of_anchored isAnchored_pythonStart]
  unfold endAt? pythonStart indent gap blank
  simp only [run_append, run_atStart_start]
  constructor
  · intro h
    obtain ⟨e, h⟩ := Option.isSome_iff_exists.1 h
    obtain ⟨g, t₁, rfl, hg, hasync⟩ := exists_of_run_many h
    obtain ⟨a, t₂, _, _, rfl, ha, hkeyword⟩ := exists_of_run_async hasync
    obtain ⟨w, hw, t₃, _, _, rfl, hspace⟩ := exists_of_run_keyword hkeyword
    obtain ⟨g₁, t₄, rfl, hne, hg₁, hletter⟩ := exists_of_run_many1 hspace
    obtain ⟨c, t₅, rfl, hc, -⟩ := exists_of_run_char hletter
    exact ⟨_, .mk hg ha hw hg₁ hne hc, t₅, by simp⟩
  · rintro ⟨t, @⟨g, a, w, g₁, c, hg, ha, hw, hg₁, hne, hc⟩, u, rfl⟩
    have hletter : ∀ m l, (run nameStart ⟨m, l, c :: u, []⟩ some).isSome := by
      intro m l
      unfold nameStart
      rw [run_char_pos hc]
      rfl
    have hspace : ∀ m l, (run space ⟨m, l, g₁ ++ c :: u, []⟩
        fun e => run nameStart e some).isSome :=
      fun m l => isSome_run_many1 hg₁ hne (hletter _ _)
    simp only [List.append_assoc, List.singleton_append]
    exact isSome_run_many hg (isSome_run_async ha fun _ _ => isSome_run_keyword hw hspace)

/-- Up to a bracket a line says whether it starts a header. -/
theorem startsAt_append (hstarts : startsAt .python (front ++ t) = true)
    (hc : c = '(' ∨ c = '[' ∨ c = '\x7b') (hmem : c ∈ front) (u : Text) :
    startsAt .python (front ++ u) = true := by
  obtain ⟨o, ho, hline⟩ := startsAt_iff.1 hstarts
  refine startsAt_iff.2 ⟨o, ho, ?_⟩
  rcases List.prefix_or_prefix_of_prefix hline (List.prefix_append front t) with h | h
  · exact h.trans (List.prefix_append ..)
  · exact absurd (h.subset hmem) (ho.notMem hc)

-- ===================================================================== layouts

/-- A header may be broken at a space between two texts: it is a single one, in
brackets and in no string. -/
structure Breakable (front back : Text) : Prop where
  front_solid : front.getLast?.any (!isBlank ·) = true
  back_solid : back.head?.any (!isBlank ·) = true
  in_code : inCode (spot front).place = true
  in_brackets : 0 < (spot front).depth

instance (front back : Text) : Decidable (Breakable front back) :=
  decidable_of_iff (front.getLast?.any (!isBlank ·) = true
      ∧ back.head?.any (!isBlank ·) = true ∧ inCode (spot front).place = true
      ∧ 0 < (spot front).depth)
    ⟨fun ⟨h₁, h₂, h₃, h₄⟩ => ⟨h₁, h₂, h₃, h₄⟩,
      fun h => ⟨h.front_solid, h.back_solid, h.in_code, h.in_brackets⟩⟩

/-- The first line of a layout and the lines behind it, of what stands in a header
behind a break or its beginning, with what closes the header behind it. -/
inductive Layout (close : Text) : (front back line : Text) → (more : List Text) → Prop
  | last (front back : Text) : Layout close front back (back ++ close) []
  | feed {front piece back e g line : Text} {more : List Text} :
      Breakable (front ++ piece) back → IsLineEnd e → IsGap g →
      Layout close (front ++ piece ++ [' ']) back line more →
      Layout close front (piece ++ ' ' :: back) (piece ++ e) ((g ++ line) :: more)

/-- A header with the body behind it left out. -/
def closed (head : Text) : Text := Text.trim head ++ ": ..."

/-- The layouts of a header all give its signature, whatever stands around. -/
def LaidOutAlike (head tail : Text) : Prop :=
  ∀ line more content found rest, Layout (':' :: tail) [] head line more →
    more.length < maxLines →
    Reaches .python (Text.lines content) found (line :: (more ++ rest)) →
    all .python content = found ++ closed head :: collect .python 0 rest

/-- A reader that takes each quote by itself comes to the end of the header, and to
each place where it may be broken, in code. -/
structure ReadsPlainly (head : Text) : Prop where
  closes : Plain.start.read head = some Plain.start
  breaks : ∀ front back, head = front ++ ' ' :: back → Breakable front back →
    ∃ depth, Plain.start.read front = some ⟨.code, depth⟩

/-- So does it with a tidy header. -/
theorem readsPlainly_of_tidy (htidy : Tidy head) (hcloses : IsOutmost head) :
    ReadsPlainly head := by
  constructor
  · rw [read_of_tidy htidy hcloses List.prefix_rfl hcloses.1, hcloses.2]
    rfl
  · rintro front back rfl hbreak
    exact ⟨_, read_of_tidy htidy hcloses (List.prefix_append ..) hbreak.in_code⟩

-- ==================================================================== capturing

/-- What ends a line is no code. -/
theorem line_lineEnd (depth : Nat) (he : IsLineEnd e) :
    ∃ g, IsSpace g ∧ Plain.line ⟨.code, depth⟩ e = ⟨g, false, depth⟩ := by
  obtain ⟨g, r, rfl, hg, -, hr⟩ := he
  refine ⟨g, hg.isSpace, ?_⟩
  rw [Plain.line_append (Plain.read_blanks rfl hg.isSpace)]
  rcases hr with rfl | hr
  · rw [Plain.line_nil, List.append_nil]
  · obtain ⟨r, rfl⟩ := List.head?_eq_some_iff.1 hr
    rw [Plain.line_remark rfl, List.append_nil]

/-- Blanks in front of a line change nothing. -/
theorem captureIndented_indent (hg : IsSpace g) (line : Text) (rest : List Text) :
    captureIndented parts taken depth ((g ++ line) :: rest)
      = captureIndented parts taken depth (line :: rest) := by
  have hline : headerLine depth none false (g ++ line)
      = { headerLine depth none false line with
          code := g ++ (headerLine depth none false line).code } :=
    Plain.line_append (s := ⟨.code, depth⟩) (Plain.read_blanks rfl hg) line
  rw [captureIndented, captureIndented, hline]
  dsimp only
  rw [Text.trim_append_left hg]

/-- A line that does not close the header adds its piece of it. -/
theorem captureIndented_feed {depth' : Nat}
    (hpiece : Plain.read ⟨.code, depth⟩ piece = some ⟨.code, depth'⟩)
    (hsolid : piece.getLast?.any (!isBlank ·) = true) (he : IsLineEnd e)
    (rest : List Text) :
    captureIndented parts taken depth ((piece ++ e) :: rest)
      = captureIndented (parts ++ [Text.trim piece]) (taken + 1) depth' rest := by
  obtain ⟨gap, hgap, hend⟩ := line_lineEnd depth' he
  have hline : headerLine depth none false (piece ++ e) = ⟨piece ++ gap, false, depth'⟩ := by
    refine (Plain.line_append hpiece _).trans ?_
    rw [hend]
  have hpart : addPart parts (Text.trim (piece ++ gap)) = parts ++ [Text.trim piece] := by
    rw [Text.trim_append_right hsolid hgap]
    obtain ⟨c, hlast, hc⟩ := (Option.any_eq_true ..).1 hsolid
    exact if_neg (Text.trim_ne_nil (List.mem_of_getLast? hlast) (by simpa using hc))
  rw [captureIndented, hline]
  dsimp only
  rw [if_neg Bool.false_ne_true, hpart]

/-- The last line adds what is left of it. -/
theorem captureIndented_close (hback : Plain.read ⟨.code, depth⟩ back = some Plain.start)
    (rest : List Text) :
    captureIndented parts taken depth ((back ++ ':' :: tail) :: rest)
      = some (Text.join " " (parts ++ [Text.trim back]) ++ ": ...", taken + 1) := by
  have hline : headerLine depth none false (back ++ ':' :: tail) = ⟨back, true, 0⟩ := by
    refine (Plain.line_append hback _).trans ?_
    rw [Plain.line_colon rfl rfl, List.append_nil]
    rfl
  rw [captureIndented, hline]
  rfl

/-- What ends solidly behind the beginning or a blank does so by itself. -/
theorem solid_of_append (hfront : front.getLast?.all isBlank = true)
    (h : (front ++ piece).getLast?.any (!isBlank ·) = true) :
    piece.getLast?.any (!isBlank ·) = true := by
  rcases List.eq_nil_or_concat' piece with rfl | ⟨piece, c, rfl⟩
  · rw [List.append_nil] at h
    obtain ⟨c, hc, hsolid⟩ := (Option.any_eq_true ..).1 h
    rw [hc, Option.all_some] at hfront
    rw [hfront] at hsolid
    cases hsolid
  · rw [← List.append_assoc, List.getLast?_concat] at h
    rwa [List.getLast?_concat]

/-- Each layout of a header, from a break or the beginning on, gives what stands in
the header from there on. -/
theorem captureIndented_layout (hplain : ReadsPlainly (front ++ back))
    (hread : Plain.start.read front = some ⟨.code, depth⟩)
    (hfront : front.getLast?.all isBlank = true)
    (h : Layout (':' :: tail) front back line more) (rest : List Text) :
    captureIndented parts taken depth (line :: (more ++ rest))
      = some (Text.join " " (parts ++ [Text.trim back]) ++ ": ...",
          taken + 1 + more.length) := by
  induction h generalizing parts taken depth with
  | last front back =>
      have hback : Plain.read ⟨.code, depth⟩ back = some Plain.start := by
        have hwhole := hplain.closes
        rwa [Plain.read_append, hread] at hwhole
      exact captureIndented_close hback rest
  | @feed front piece back e g line more hbreak he hg _ ih =>
      have hhead : front ++ (piece ++ ' ' :: back) = front ++ piece ++ ' ' :: back :=
        (List.append_assoc ..).symm
      rw [hhead] at hplain
      obtain ⟨depth', hbehind⟩ := hplain.breaks _ _ rfl hbreak
      have hpiece : Plain.read ⟨.code, depth⟩ piece = some ⟨.code, depth'⟩ := by
        rwa [Plain.read_append, hread] at hbehind
      have hsolid := solid_of_append hfront hbreak.front_solid
      have hnext : Plain.start.read (front ++ piece ++ [' ']) = some ⟨.code, depth'⟩ := by
        have hstep : Plain.step ⟨.code, depth'⟩ ' ' = some ⟨.code, depth'⟩ :=
          Plain.step_blank rfl (by decide)
        rw [Plain.read_concat, hbehind]
        exact hstep
      have hjoin : Text.join " " (parts ++ [Text.trim piece] ++ [Text.trim back])
          = Text.join " " (parts ++ [Text.trim (piece ++ ' ' :: back)]) := by
        rw [Text.join_concat_concat, Text.trim_append_between hsolid hbreak.back_solid,
          List.append_assoc]
        rfl
      have hlast : (front ++ piece ++ [' ']).getLast?.all isBlank = true := by
        rw [List.getLast?_concat]
        decide
      rw [captureIndented_feed hpiece hsolid he, List.cons_append,
        captureIndented_indent hg.isSpace, ih (by simpa using hplain) hnext hlast, hjoin,
        List.length_cons, Nat.add_right_comm (taken + 1) 1, Nat.add_assoc (taken + 1)]

/-- The first line of a layout starts a header if the header on one line does. -/
theorem startsAt_layout (hstarts : startsAt .python (head ++ ':' :: tail) = true)
    (h : Layout (':' :: tail) [] head line more) : startsAt .python line = true := by
  cases h with
  | last => exact hstarts
  | @feed front piece back e g line more hbreak =>
      obtain ⟨c, hmem, hc⟩ := exists_mem_of_depth_pos hbreak.in_brackets
      rw [List.append_assoc] at hstarts
      exact startsAt_append hstarts hc hmem e

/-- A header that is laid out is found from its first line. -/
theorem collect_layout (hplain : ReadsPlainly head)
    (hstarts : startsAt .python (head ++ ':' :: tail) = true)
    (h : Layout (':' :: tail) [] head line more) (hlines : more.length < maxLines)
    (rest : List Text) :
    collect .python 0 (line :: (more ++ rest))
      = closed head :: collect .python 0 rest := by
  have htake : (line :: (more ++ rest)).take maxLines
      = line :: (more ++ rest.take (5 - more.length)) := by
    show line :: (more ++ rest).take 5 = _
    rw [List.take_append, List.take_of_length_le (Nat.le_of_lt_succ hlines)]
  have hcapture : capture .python (line :: (more ++ rest))
      = some (closed head, 0 + 1 + more.length) := by
    rw [capture, if_pos rfl, htake]
    have hwhole : ReadsPlainly ([] ++ head) := hplain
    exact captureIndented_layout hwhole rfl rfl h _
  rw [collect, if_pos (startsAt_layout hstarts h), hcapture]
  dsimp only
  rw [collect_skip, Nat.zero_add, Nat.add_sub_cancel_left, List.drop_left]

/-- So all layouts of a header give its signature if it is read plainly. -/
theorem laidOutAlike_of_readsPlainly (hplain : ReadsPlainly head)
    (hstarts : startsAt .python (head ++ ':' :: tail) = true) : LaidOutAlike head tail := by
  intro line more content found rest hlayout hlines hreach
  rw [all, collect_of_reaches hreach, collect_layout hplain hstarts hlayout hlines]

-- ==================================================================== necessity

/-- A header that is closed on its first line is captured from there. -/
theorem collect_closed (hstarts : startsAt .python line = true)
    (hcloses : (Plain.start.line line).closed = true) (rest : List Text) :
    collect .python 0 (line :: rest)
      = closed (Plain.start.line line).code :: collect .python 0 rest := by
  have hcapture : capture .python (line :: rest)
      = some (closed (Plain.start.line line).code, 1) := by
    show captureIndented [] 0 0 (line :: rest.take 5) = _
    exact if_pos hcloses
  rw [collect, if_pos hstarts, hcapture]

/-- If the first line of a layout closes the header, the header is its code. -/
theorem trim_code_of_laidOutAlike {content : Text} (halike : LaidOutAlike head tail)
    (h : Layout (':' :: tail) [] head line more) (hmore : more.length < maxLines)
    (hlines : Text.lines content = line :: more) (hstarts : startsAt .python line = true)
    (hcloses : (Plain.start.line line).closed = true) :
    Text.trim (Plain.start.line line).code = Text.trim head := by
  have hreach : Reaches .python (Text.lines content) [] (line :: (more ++ [])) := by
    rw [hlines, List.append_nil]
    exact .here _
  have hall := halike line more content [] [] h hmore hreach
  rw [all, hlines, collect_closed hstarts hcloses] at hall
  exact List.append_cancel_right (List.cons.inj hall).1

/-- The colons of a line tell where two beginnings of it end that are alike but for
blanks. -/
theorem eq_of_trim_eq {code u : Text} (hline : code ++ ':' :: u = head ++ ':' :: tail)
    (htrim : Text.trim code = Text.trim head) : code = head := by
  have hcount : code.count ':' = head.count ':' := by
    have h := congrArg (List.count ':') htrim
    rwa [Text.count_trim (by decide), Text.count_trim (by decide)] at h
  rcases List.append_eq_append_iff.1 hline with ⟨t, rfl, ht⟩ | ⟨t, rfl, ht⟩
  all_goals
    cases t with
    | nil => rw [List.append_nil]
    | cons c t =>
        obtain rfl := (List.cons.inj ht).1
        simp at hcount

/-- On one line: the reader comes to the end of the header. -/
theorem closes_of_laidOutAlike (hfeed : '\n' ∉ head ++ ':' :: tail)
    (hstarts : startsAt .python (head ++ ':' :: tail) = true)
    (halike : LaidOutAlike head tail) : Plain.start.read head = some Plain.start := by
  have hlines : Text.lines (head ++ ':' :: tail) = [head ++ ':' :: tail] := by
    rw [Text.lines_of_notMem hfeed, if_neg (by simp)]
  by_cases hcloses : (Plain.start.line (head ++ ':' :: tail)).closed = true
  · have htrim := trim_code_of_laidOutAlike halike (.last [] head) (by decide) hlines
      hstarts hcloses
    obtain ⟨u, ⟨mode, depth⟩, hline, hread, hmode, hdepth⟩ := Plain.exists_of_closed hcloses
    obtain rfl : mode = .code := hmode
    obtain rfl : depth = 0 := hdepth
    rw [eq_of_trim_eq hline.symm htrim] at hread
    exact hread
  · have hnone : capture .python [head ++ ':' :: tail] = none := by
      show captureIndented [] 0 0 [head ++ ':' :: tail] = none
      exact if_neg hcloses
    have hempty : all .python (head ++ ':' :: tail) = [] := by
      rw [all, hlines, collect, if_pos hstarts, hnone]
      rfl
    have hall := halike _ _ (head ++ ':' :: tail) [] [] (.last [] head) (by decide)
      (hlines ▸ .here _)
    rw [hempty] at hall
    cases hall

/-- What a remark may hold to close a header whose reader is in a string: the end of
the string and of all brackets. -/
def closing (q : Quote) (depth : Nat) : Text := '#' :: q.char :: List.replicate depth ')'

theorem feed_notMem_closing (q : Quote) (depth : Nat) : '\n' ∉ closing q depth := by
  cases q <;> simp [closing, Quote.char]

section

variable {q : Quote} {s : Plain} (hs : s.mode = .within q ∨ s.mode = .escaped q)

include hs in
theorem read_closing : s.read (closing q s.depth) = some Plain.start := by
  have hbrackets : ∀ n, Plain.read ⟨.code, n⟩ (List.replicate n ')') = some Plain.start := by
    intro n
    induction n with
    | zero => rfl
    | succ n ih => exact ih
  have hremark : s.step '#' = some ⟨.within q, s.depth⟩ := by
    obtain ⟨mode, depth⟩ := s
    rcases hs with rfl | rfl
    · cases q <;> rfl
    · rfl
  have hquote : Plain.step ⟨.within q, s.depth⟩ q.char = some ⟨.code, s.depth⟩ := by
    cases q <;> rfl
  rw [closing, Plain.read_cons, hremark, Option.bind_some, Plain.read_cons, hquote,
    Option.bind_some]
  exact hbrackets s.depth

include hs in
/-- The reader takes such a remark for code and the colon behind it for that of the
header. -/
theorem line_closing (hread : Plain.start.read front = some s) :
    Plain.start.line (front ++ closing q s.depth ++ [':'])
      = ⟨front ++ closing q s.depth, true, 0⟩ := by
  have hclosing : Plain.start.read (front ++ closing q s.depth) = some Plain.start := by
    rw [Plain.read_append, hread]
    exact read_closing hs
  rw [Plain.line_append hclosing, Plain.line_colon rfl rfl, List.append_nil]
  rfl

end

/-- A remark in the place of a space is not trimmed away. -/
theorem trim_append_remark_ne (hfront : front.getLast?.any (!isBlank ·) = true) :
    Text.trim (front ++ '#' :: t) ≠ Text.trim (front ++ ' ' :: back) := by
  obtain ⟨c, hlast, hc⟩ := (Option.any_eq_true ..).1 hfront
  obtain ⟨front, rfl⟩ := List.getLast?_eq_some_iff.1 hlast
  rw [Bool.not_eq_true'] at hc
  have hremark : Text.trimEndOf isBlank ('#' :: t) = '#' :: Text.trimEndOf isBlank t :=
    Text.trimEndOf_append_cons (by decide) [] t
  rw [List.append_assoc, List.append_assoc, List.singleton_append, List.singleton_append,
    Text.trim_append_cons hc, Text.trim_append_cons hc, hremark,
    Text.trimEndOf_cons (by decide)]
  intro h
  have hback := (List.cons.inj (List.append_cancel_left h)).2
  split at hback
  · cases hback
  · cases (List.cons.inj hback).1

/-- On two lines: the reader is in code in front of the second, or a remark on the
first would close the header. -/
theorem breaks_of_laidOutAlike (hfeed : '\n' ∉ head ++ ':' :: tail)
    (hstarts : startsAt .python (head ++ ':' :: tail) = true)
    (halike : LaidOutAlike head tail) (hhead : head = front ++ ' ' :: back)
    (hbreak : Breakable front back) :
    ∃ depth, Plain.start.read front = some ⟨.code, depth⟩ := by
  subst hhead
  have hcloses := closes_of_laidOutAlike hfeed hstarts halike
  rw [Plain.read_append] at hcloses
  obtain ⟨⟨mode, depth⟩, hread, -⟩ := Option.bind_eq_some_iff.1 hcloses
  by_cases hcode : mode = .code
  · exact ⟨depth, hcode ▸ hread⟩
  exfalso
  obtain ⟨q, hq⟩ : ∃ q, mode = .within q ∨ mode = .escaped q := by
    cases mode with
    | code => exact absurd rfl hcode
    | within q => exact ⟨q, .inl rfl⟩
    | escaped q => exact ⟨q, .inr rfl⟩
  have hline := line_closing hq hread
  dsimp only at hline
  obtain ⟨hfront, hback⟩ : '\n' ∉ front ∧ '\n' ∉ back ++ ':' :: tail := by
    simpa [and_assoc] using hfeed
  have hnone : '\n' ∉ front ++ closing q depth ++ [':'] := by
    simp [hfront, feed_notMem_closing]
  have hlines : Text.lines (front ++ closing q depth ++ [':'] ++ '\n' :: (back ++ ':' :: tail))
      = [front ++ closing q depth ++ [':'], back ++ ':' :: tail] := by
    have hreturn : Text.withoutReturn (front ++ closing q depth ++ [':'])
        = front ++ closing q depth ++ [':'] := by
      refine if_neg ?_
      rw [List.getLast?_concat]
      decide
    rw [Text.lines_append_feed hnone, hreturn, Text.lines_of_notMem hback, if_neg (by simp)]
  have hlayout : Layout (':' :: tail) [] (front ++ ' ' :: back)
      (front ++ closing q depth ++ [':']) [back ++ ':' :: tail] := by
    have hremark : IsLineEnd (closing q depth ++ [':']) :=
      ⟨[], closing q depth ++ [':'], rfl, by simp [IsGap], by simp [feed_notMem_closing],
        .inr rfl⟩
    rw [List.append_assoc]
    exact .feed (g := []) hbreak hremark (by simp [IsGap]) (.last _ back)
  have htrim := trim_code_of_laidOutAlike halike hlayout (by decide : 1 < maxLines) hlines
    (startsAt_layout hstarts hlayout) (by rw [hline])
  rw [hline] at htrim
  exact trim_append_remark_ne hbreak.front_solid htrim

/-- A header that stands on one line and is closed there gives its signature, and the
same one in each of its layouts, exactly when a reader that takes each quote by
itself comes to its end, and to each place where it may be broken, in code. So it
does with a tidy header. -/
theorem laidOutAlike_iff (hfeed : '\n' ∉ head ++ ':' :: tail)
    (hstarts : startsAt .python (head ++ ':' :: tail) = true)
    (hcloses : IsOutmost head) :
    (LaidOutAlike head tail ↔ ReadsPlainly head) ∧ (Tidy head → LaidOutAlike head tail) := by
  have hback : ReadsPlainly head → LaidOutAlike head tail :=
    fun hplain => laidOutAlike_of_readsPlainly hplain hstarts
  refine ⟨⟨fun halike => ⟨closes_of_laidOutAlike hfeed hstarts halike,
      fun front back => breaks_of_laidOutAlike hfeed hstarts halike⟩, hback⟩,
    fun htidy => hback (readsPlainly_of_tidy htidy hcloses)⟩

/-- A header with a colon in a triple-quoted string, broken behind a remark with
another one. -/
theorem all_of_broken_header :
    let head : Text := "def h(a, b=\"\"\"x:\"\"\")"
    let content : Text := "def h(a,  # one: a\n    b=\"\"\"x:\"\"\"): pass\n"
    '\n' ∉ head ++ ':' :: (" pass" : Text)
      ∧ startsAt .python (head ++ ':' :: (" pass" : Text)) = true
      ∧ IsOutmost head ∧ Tidy head
      ∧ all .python content = ["def h(a, b=\"\"\"x:\"\"\"): ...".toList] := by
  intro head content
  have hfeed : '\n' ∉ head ++ ':' :: (" pass" : Text) := by decide +kernel
  have hstarts : startsAt .python (head ++ ':' :: (" pass" : Text)) = true := by
    decide +kernel
  have hcloses : IsOutmost head := by decide +kernel
  have htidy : Tidy head := by decide +kernel
  have hend : IsLineEnd "  # one: a" :=
    ⟨"  ", "# one: a", rfl, by decide +kernel, by decide +kernel, .inr rfl⟩
  have hlayout : Layout (':' :: (" pass" : Text)) []
      (("def h(a," : Text) ++ ' ' :: ("b=\"\"\"x:\"\"\")" : Text))
      (("def h(a," : Text) ++ ("  # one: a" : Text))
      [("    " : Text) ++ (("b=\"\"\"x:\"\"\")" : Text) ++ ':' :: (" pass" : Text))] :=
    .feed (by decide +kernel) hend (by decide +kernel) (.last _ _)
  have hall := (laidOutAlike_iff hfeed hstarts hcloses).2 htidy _ _ content [] [] hlayout
    (by decide) (.here _)
  exact ⟨hfeed, hstarts, hcloses, htidy, hall⟩

/-- A quote in a triple-quoted string is taken for the end of one. -/
theorem all_of_quote_in_string :
    let head : Text := "def f(x=\"\"\"a\"b\"\"\")"
    let content : Text := "def f(x=\"\"\"a\"b\"\"\"):\n    pass\n"
    startsAt .python (head ++ [':']) = true ∧ IsOutmost head
      ∧ all .python content = [] ∧ ¬ LaidOutAlike head [] := by
  intro head content
  have hall : all .python content = [] := by decide +kernel
  refine ⟨by decide +kernel, by decide +kernel, hall, fun halike => ?_⟩
  have hone := halike _ [] content [] ["    pass"] (.last [] head) (by decide) (.here _)
  rw [hall] at hone
  cases hone

end Signature

end SourceDigest
