/-
Lists of names: the pieces between commas and the lines they are on.

A piece is a name with blanks and list marks around it and perhaps another
name behind it. What is in front of the first blank or mark is kept
(`nameIn?_append`), so a name is found however it is set (`nameIn?_renamed`).

A list may go on over several lines, and each of them is read with the
state that the lines before have left. Reading is still piece by piece:
whatever a line adds to what the rest of it reports, it adds to the report
of the rest of the text (`scanText_append`).
-/
import Mathlib
import SourceDigest.Imports.Scan
import SourceDigest.Proofs.Text.Blanks
import SourceDigest.Proofs.Text.Lines
import SourceDigest.Proofs.Text.Parts

namespace SourceDigest

namespace Imports

open Text (isBlank isWord)

variable {g n t u w : Text} {c : Char}

-- ===================================================================== blanks

/-- Blanks, on one line or over several. -/
def IsSpace (g : Text) : Prop := ∀ c ∈ g, isBlank c = true

/-- Blanks on one line. -/
def IsGap (g : Text) : Prop := ∀ c ∈ g, isBlank c = true ∧ c ≠ '\n'

instance (g : Text) : Decidable (IsSpace g) :=
  decidable_of_iff (g.all isBlank = true) (by simp [IsSpace])

instance (g : Text) : Decidable (IsGap g) :=
  decidable_of_iff (g.all (fun c => isBlank c && c != '\n') = true)
    (by simp [IsGap])

theorem IsGap.isSpace (h : IsGap g) : IsSpace g := fun c hc => (h c hc).1

theorem IsGap.notMem_feed (h : IsGap g) : '\n' ∉ g := fun hc => (h _ hc).2 rfl

/-- Two gaps in a row are one. -/
theorem IsGap.append (hg : IsGap g) (hw : IsGap w) : IsGap (g ++ w) := by
  intro c hc
  rcases List.mem_append.1 hc with hc | hc
  · exact hg c hc
  · exact hw c hc

/-- No character of a word is blank. -/
theorem isBlank_eq_false_of_isWord (h : Text.isWord c = true) :
    isBlank c = false :=
  Text.isBlank_eq_false Text.isWord (by decide +kernel) c h

/-- A blank is in no word. -/
theorem isWord_eq_false_of_isBlank (h : isBlank c = true) : isWord c = false := by
  by_contra hword
  rw [Bool.not_eq_false] at hword
  rw [isBlank_eq_false_of_isWord hword] at h
  cases h

/-- What is no blank is not in a gap. -/
theorem IsSpace.notMem (h : IsSpace g) (hc : isBlank c = false) : c ∉ g := by
  intro hmem
  rw [h c hmem] at hc
  cases hc

-- ================================================================ single names

/-- What a list keeps whole: characters that are neither blanks nor marks. -/
def IsSolid (t : Text) : Prop :=
  t ≠ [] ∧ ∀ c ∈ t, isBlank c = false ∧ isListMark c = false

/-- A name of letters, digits and low lines. -/
def IsIdentifier (t : Text) : Prop := t ≠ [] ∧ ∀ c ∈ t, isWord c = true

instance (t : Text) : Decidable (IsIdentifier t) :=
  decidable_of_iff (t ≠ [] ∧ t.all isWord = true) (by simp [IsIdentifier])

/-- What is no character of a word stands nowhere in a name. -/
theorem IsIdentifier.notMem (h : IsIdentifier t) (hc : isWord c = false) :
    c ∉ t := by
  intro hmem
  rw [h.2 c hmem] at hc
  cases hc

/-- Nor is the mark of a list. -/
theorem isListMark_eq_false_of_isWord (h : isWord c = true) :
    isListMark c = false := by
  have hall : "()\x7b\x7d;".toList.all (fun c => !isWord c) = true := by
    decide +kernel
  rw [← Bool.not_eq_true]
  intro hmark
  have hword := List.all_eq_true.1 hall c (List.contains_iff_mem.1 hmark)
  rw [h] at hword
  cases hword

theorem IsIdentifier.isSolid (h : IsIdentifier t) : IsSolid t :=
  ⟨h.1, fun c hc => ⟨isBlank_eq_false_of_isWord (h.2 c hc),
    isListMark_eq_false_of_isWord (h.2 c hc)⟩⟩

/-- What is left behind the name in a piece of a list. -/
def nameTail (t : Text) : Text :=
  Text.trimEnd (dropAlias (Text.trimEndOf isListMark (Text.trimEnd t)))

/-- The search for a needle passes over what has none of its first
character. -/
theorem cut?_append {needle : Text} {b : Char} (hb : needle.head? = some b)
    (ht : b ∉ t) (u : Text) :
    Text.cut? needle (t ++ u)
      = (Text.cut? needle u).map fun found => (t ++ found.1, found.2) := by
  obtain ⟨needle, rfl⟩ := List.head?_eq_some_iff.1 hb
  induction t with
  | nil =>
      rw [List.nil_append]
      cases Text.cut? (b :: needle) u <;> rfl
  | cons c t ih =>
      obtain ⟨hc, ht⟩ := not_or.1 (mt List.mem_cons.2 ht)
      rw [List.cons_append, Text.cut?, Text.dropLead?, if_neg hc, ih ht,
        Option.map_map]
      rfl

/-- A text without blanks is no part of an alias. -/
theorem dropAlias_append (ht : ' ' ∉ t) (u : Text) :
    dropAlias (t ++ u) = t ++ dropAlias u := by
  unfold dropAlias
  rw [cut?_append (b := ' ') rfl ht]
  cases Text.cut? " as ".toList u <;> rfl

theorem dropAlias_isPrefix (t : Text) : dropAlias t <+: t := by
  unfold dropAlias
  split
  · rename_i h
    exact Text.cut?_fst_isPrefix h
  · exact List.prefix_rfl

theorem nameTail_isPrefix (t : Text) : nameTail t <+: t :=
  (Text.trimEndOf_isPrefix ..).trans ((dropAlias_isPrefix _).trans
    ((Text.trimEndOf_isPrefix ..).trans (Text.trimEndOf_isPrefix ..)))

/-- The name in a piece starts with what is in front and solid. -/
theorem nameIn?_append (hg : IsSpace g) (hn : IsSolid n) (t : Text) :
    nameIn? (g ++ (n ++ t))
      = if n ++ nameTail t = [] ∨ n ++ nameTail t = ['*']
          ∨ n ++ nameTail t = ("self" : Text) then none
        else some (n ++ nameTail t) := by
  have hblank : ∀ c ∈ n, isBlank c = false := fun c hc => (hn.2 c hc).1
  have hspace : ' ' ∉ n := fun h => by cases hblank _ h
  have htrim : ∀ t, Text.trim (n ++ t) = n ++ Text.trimEnd t :=
    Text.trimOf_append hn.1 hblank
  have hmarks : ∀ t, Text.trimOf isListMark (n ++ t)
      = n ++ Text.trimEndOf isListMark t :=
    Text.trimOf_append hn.1 fun c hc => (hn.2 c hc).2
  unfold nameIn?
  rw [Text.trim_append_left hg, htrim, hmarks, dropAlias_append hspace, htrim]
  rfl

/-- There is no name in blanks. -/
theorem nameTail_space (hg : IsSpace g) : nameTail g = [] := by
  have hnil : Text.trimEnd g = [] := Text.trimEndOf_eq_nil hg
  unfold nameTail
  rw [hnil]
  rfl

/-- Another name behind a name, with blanks behind that. -/
theorem nameTail_alias (hw : IsSolid w) (hg : IsSpace g) :
    nameTail ((" as " : Text) ++ (w ++ g)) = [] := by
  obtain ⟨init, c, rfl⟩ := (List.eq_nil_or_concat' w).resolve_left hw.1
  have hc := hw.2 c (by simp)
  have hblank : Text.trimEnd ((" as " : Text) ++ (init ++ [c] ++ g))
      = (" as " : Text) ++ init ++ [c] := by
    unfold Text.trimEnd
    rw [← List.append_assoc, ← List.append_assoc,
      Text.trimEndOf_append_of_forall hg,
      Text.trimEndOf_append_cons hc.1]
    rfl
  have hmark : Text.trimEndOf isListMark ((" as " : Text) ++ init ++ [c])
      = (" as " : Text) ++ init ++ [c] := by
    rw [Text.trimEndOf_append_cons hc.2]
    rfl
  unfold nameTail
  rw [hblank, hmark]
  rfl

/-- A name with another name behind it, if there is one. -/
def renamed (n : Text) (alias? : Option Text) : Text :=
  match alias? with
  | none => n
  | some a => n ++ (" as " ++ a)

/-- What a list reads of a solid text, renamed or not. -/
theorem nameIn?_renamed {alias? : Option Text} (hg : IsSpace g) (hn : IsSolid n)
    (halias : ∀ a ∈ alias?, IsSolid a) {g' : Text} (hg' : IsSpace g') :
    nameIn? (g ++ (renamed n alias? ++ g'))
      = if n = ['*'] ∨ n = ("self" : Text) then none else some n := by
  have htail : ∃ z, renamed n alias? ++ g' = n ++ z ∧ nameTail z = [] := by
    cases alias? with
    | none => exact ⟨g', rfl, nameTail_space hg'⟩
    | some a =>
        refine ⟨(" as " : Text) ++ (a ++ g'), ?_,
          nameTail_alias (halias a rfl) hg'⟩
        simp [renamed]
  obtain ⟨z, hz, htail⟩ := htail
  rw [hz, nameIn?_append hg hn, htail, List.append_nil]
  simp [hn.1]

theorem nameIn?_space (hg : IsSpace g) : nameIn? g = none := by
  unfold nameIn?
  rw [Text.trim_eq_nil hg]
  rfl

/-- Blanks in front of a piece do not count. -/
theorem nameIn?_space_append (hg : IsSpace g) (t : Text) :
    nameIn? (g ++ t) = nameIn? t := by
  unfold nameIn?
  rw [Text.trim_append_left hg]

-- ====================================================================== lists

/-- The first piece of a list and the rest of it. -/
theorem namesIn_append (ht : ',' ∉ t) (u : Text) :
    namesIn (t ++ ',' :: u) = (nameIn? t).toList ++ namesIn u := by
  unfold namesIn
  rw [Text.splitOn_append_of_notMem ht, List.filterMap_cons]
  cases nameIn? t <;> rfl

/-- Without a comma there is one name at most. -/
theorem namesIn_of_notMem (ht : ',' ∉ t) : namesIn t = (nameIn? t).toList := by
  unfold namesIn
  rw [Text.splitOn_of_notMem ht, List.filterMap_cons]
  cases nameIn? t <;> rfl

/-- Blanks in front of a list do not count. -/
theorem namesIn_space_append (hg : IsSpace g) (t : Text) :
    namesIn (g ++ t) = namesIn t := by
  have hcomma : ',' ∉ g := hg.notMem (by decide)
  by_cases h : ',' ∈ t
  · obtain ⟨s, u, rfl, hs⟩ := List.eq_append_cons_of_mem h
    rw [← List.append_assoc, namesIn_append (by simp [hcomma, hs]),
      namesIn_append hs, nameIn?_space_append hg]
  · rw [namesIn_of_notMem (by simp [hcomma, h]), namesIn_of_notMem h,
      nameIn?_space_append hg]

theorem namesIn_space (hg : IsSpace g) : namesIn g = [] := by
  rw [namesIn_of_notMem (hg.notMem (by decide)), nameIn?_space hg]
  rfl

-- ======================================================================= text

section

variable {σ : Type} (step : σ → Text → List Text × σ)

/-- What is reported of a text that is read from a state on. -/
def scanText (s : σ) (t : Text) : List Text := scanLines step s (Text.lines t)

variable {step} {s s' : σ} {ns : List Text}

/-- Some characters in front of a line are in front of a text. -/
theorem lines_append (ht : '\n' ∉ t) (hreturn : t.getLast? ≠ some '\r')
    (u : Text) :
    Text.lines (t ++ u) = match Text.lines u with
      | [] => Text.lines t
      | line :: more => (t ++ line) :: more := by
  induction t with
  | nil =>
      rw [List.nil_append]
      cases Text.lines u <;> rfl
  | cons c t ih =>
      obtain ⟨hc, ht⟩ := not_or.1 (mt List.mem_cons.2 ht)
      by_cases hnil : t = []
      · subst hnil
        have hcr : c ≠ '\r' := by simpa using hreturn
        have halone : Text.lines [c] = [[c]] :=
          Text.lines_cons (Ne.symm hc) (absurd · hcr)
        rw [List.singleton_append, Text.lines_cons (Ne.symm hc) (absurd · hcr),
          halone]
        cases Text.lines u <;> rfl
      · have hlast : t.getLast? ≠ some '\r' := by
          obtain ⟨d, t, rfl⟩ := List.exists_cons_of_ne_nil hnil
          rwa [List.getLast?_cons_cons] at hreturn
        have hfeed : ∀ u : Text, c = '\r' → (t ++ u).head? ≠ some '\n' := by
          intro u _ hhead
          rw [List.head?_append_of_ne_nil _ hnil] at hhead
          exact ht (List.mem_of_mem_head? hhead)
        have hself := Text.lines_cons (Ne.symm hc) (hfeed [])
        rw [List.append_nil] at hself
        rw [List.cons_append, Text.lines_cons (Ne.symm hc) (hfeed u),
          ih ht hlast, hself]
        cases Text.lines u with
        | nil => rfl
        | cons line more => rfl

/-- Characters within a line: none ends it, and the last is no part of what
may end it. -/
def IsInline (t : Text) : Prop := '\n' ∉ t ∧ t.getLast? ≠ some '\r'

/-- A character that is no blank ends no line, and neither does what it ends. -/
theorem isInline_concat (ht : '\n' ∉ t) (hc : isBlank c = false) :
    IsInline (t ++ [c]) := by
  constructor
  · rw [List.mem_append, List.mem_singleton, not_or]
    refine ⟨ht, ?_⟩
    rintro rfl
    cases hc
  · rw [List.getLast?_concat]
    rintro ⟨⟩
    cases hc

/-- What stands in front of a line may be exchanged, if that makes the same
difference to every line. -/
theorem scanText_exchange (ht : IsInline t) (hw : IsInline w)
    (hne : t ≠ []) (hnil : w = [] → (step s' []).1 = [])
    (hstep : ∀ l, '\n' ∉ l →
      step s (t ++ l) = (ns ++ (step s' (w ++ l)).1, (step s' (w ++ l)).2))
    (u : Text) :
    scanText step s (t ++ u) = ns ++ scanText step s' (w ++ u) := by
  unfold scanText
  rw [lines_append ht.1 ht.2, lines_append hw.1 hw.2]
  cases hlines : Text.lines u with
  | nil =>
      have halone := hstep [] (by simp)
      rw [List.append_nil, List.append_nil] at halone
      show scanLines step s (Text.lines t)
        = ns ++ scanLines step s' (Text.lines w)
      rw [Text.lines_of_notMem ht.1, if_neg hne, scanLines, scanLines,
        List.append_nil, halone, Text.lines_of_notMem hw.1]
      split
      · rename_i htnil
        rw [htnil, hnil htnil]
        rfl
      · rw [scanLines, scanLines, List.append_nil]
  | cons line more =>
      have hline : '\n' ∉ line :=
        Text.feed_notMem_of_mem_lines (t := u) (by rw [hlines]; simp)
      rw [scanLines, scanLines, hstep line hline, List.append_assoc]

/-- A line adds to the report of a text what some characters in front add to the
report of each line. -/
theorem scanText_append (ht : IsInline t) (hne : t ≠ [])
    (hnil : (step s' []).1 = [])
    (hstep : ∀ l, '\n' ∉ l →
      step s (t ++ l) = (ns ++ (step s' l).1, (step s' l).2)) (u : Text) :
    scanText step s (t ++ u) = ns ++ scanText step s' u :=
  scanText_exchange (w := []) ht (by simp [IsInline]) hne (fun _ => hnil) hstep u

/-- The end of a line that only passes a state on. -/
theorem scanText_feed (hnil : step s [] = ([], s)) (u : Text) :
    scanText step s ('\n' :: u) = scanText step s u := by
  show scanLines step s ([] :: Text.lines u) = _
  rw [scanLines, hnil]
  rfl

/-- A blank in front is passed over when it is so on each line. -/
theorem scanText_blank (hnil : (step s []).1 = [])
    (hstep : ∀ l, step s (c :: l) = step s l) (hc : c ≠ '\n') (u : Text) :
    scanText step s (c :: u) = scanText step s u := by
  by_cases hcr : c = '\r'
  · subst hcr
    cases u with
    | nil =>
        show (step s ['\r']).1 ++ [] = []
        rw [hstep, hnil, List.append_nil]
    | cons d u =>
        by_cases hd : d = '\n'
        · subst hd
          rfl
        · unfold scanText
          have hhead : (d :: u).head? ≠ some '\n' := by simpa using hd
          rw [Text.lines_cons hc fun _ => hhead]
          cases Text.lines (d :: u) with
          | nil => simp [scanLines, hstep, hnil]
          | cons line more => rw [scanLines, hstep]; rfl
  · have hone : ∀ l, '\n' ∉ l →
        step s ([c] ++ l) = ([] ++ (step s l).1, (step s l).2) :=
      fun l _ => hstep l
    have hinline : IsInline [c] :=
      ⟨by simpa using Ne.symm hc, by simpa using hcr⟩
    exact scanText_append hinline (by simp) hnil hone u

/-- Blanks on one line are passed over when each one is. -/
theorem scanText_gap (hnil : (step s []).1 = [])
    (hstep : ∀ c, isBlank c = true → ∀ l, step s (c :: l) = step s l)
    (hg : IsGap g) (u : Text) : scanText step s (g ++ u) = scanText step s u := by
  induction g with
  | nil => rfl
  | cons c g ih =>
      obtain ⟨hc, hg⟩ := List.forall_mem_cons.1 hg
      rw [List.cons_append, scanText_blank hnil (hstep c hc.1) hc.2, ih hg]

/-- Blanks on several lines are passed over when each one is and the state stays
at the end of a line. -/
theorem scanText_space (hnil : step s [] = ([], s))
    (hstep : ∀ c, isBlank c = true → ∀ l, step s (c :: l) = step s l)
    (hg : IsSpace g) (u : Text) :
    scanText step s (g ++ u) = scanText step s u := by
  induction g with
  | nil => rfl
  | cons c g ih =>
      obtain ⟨hc, hg⟩ := List.forall_mem_cons.1 hg
      rw [List.cons_append]
      by_cases hfeed : c = '\n'
      · rw [hfeed, scanText_feed hnil, ih hg]
      · rw [scanText_blank (by rw [hnil]) (hstep c hc) hfeed, ih hg]

/-- A line and what stands after it, when a carriage return at the end of a line
makes no difference. -/
theorem scanText_line (hreturn : ∀ l, step s (Text.withoutReturn l) = step s l)
    (hnil : (step s []).1 = []) {line after : Text} (hline : '\n' ∉ line)
    (hafter : after = [] ∨ after.head? = some '\n') :
    scanText step s (line ++ after)
      = (step s line).1 ++ scanText step (step s line).2 after.tail := by
  unfold scanText
  rcases hafter with rfl | hafter
  · show scanLines step s (Text.lines (line ++ [])) = _ ++ []
    rw [List.append_nil, List.append_nil, Text.lines_of_notMem hline]
    split
    · rename_i hempty
      rw [hempty, hnil]
      rfl
    · rw [scanLines, scanLines, List.append_nil]
  · obtain ⟨rest, rfl⟩ := List.head?_eq_some_iff.1 hafter
    rw [Text.lines_append_feed hline, scanLines, hreturn, List.tail_cons]

end

end Imports

end SourceDigest
