/-
How a `from` import may be set, and what is read of its names.

The names may stand on one line, on several lines in parentheses, or on
several lines with a backslash at the end of each but the last (`Setting`).
The two ways to go on have a state each. A line is read by its code alone
(`pythonLine_congr`), and in an open import a name with a comma behind adds
itself to what the rest of the line reports (`pythonLine_comma`), whatever
that rest is. So the induction is on the names: what stands between two of
them is passed over, be it one blank or several lines, and the last closes
the import (`scanText_enclosed`, `scanText_continued`).
-/
import Mathlib
import SourceDigest.Proofs.Imports.NameLists

namespace SourceDigest

namespace Imports

open Text (isBlank isWord)

-- =================================================================== settings

/-- A module, with dots. -/
def IsReference (t : Text) : Prop :=
  t ≠ [] ∧ ∀ c ∈ t, isWord c = true ∨ c = '.'

/-- The words that an import starts with. -/
def keywords : List Text := ["from", "import"]

/-- A name that is imported, perhaps under another name. -/
structure Imported where
  name : Text
  alias? : Option Text
  isIdentifier_name : IsIdentifier name
  isIdentifier_alias : ∀ a ∈ alias?, IsIdentifier a
  name_notMem_keywords : name ∉ keywords
  name_ne_self : name ≠ ("self" : Text)

/-- The name as it is written. -/
def Imported.text (e : Imported) : Text := renamed e.name e.alias?

/-- Blanks and perhaps a remark. -/
def IsLineEnd (t : Text) : Prop :=
  ∃ g r, t = g ++ r ∧ IsGap g ∧ '\n' ∉ r ∧ (r = [] ∨ r.head? = some '#')

/-- What may stand around a name in parentheses: blanks, and ends of lines with
or without a remark. -/
inductive Break : Text → Prop
  | gap {g} : IsGap g → Break g
  | feed {t b} : IsLineEnd t → Break b → Break (t ++ '\n' :: b)

/-- Some names and the parenthesis behind them. -/
inductive Enclosed : List Imported → Text → Prop
  | last {e b b'} : Break b → Break b' →
      Enclosed [e] (b ++ (e.text ++ (b' ++ [')'])))
  | comma {e b g b'} : Break b → IsGap g → Break b' →
      Enclosed [e] (b ++ (e.text ++ (g ++ ',' :: (b' ++ [')']))))
  | more {e es b g t} : Break b → IsGap g → Enclosed es t →
      Enclosed (e :: es) (b ++ (e.text ++ (g ++ ',' :: t)))

/-- What may stand in front of a name without parentheses: blanks, and ends of
lines behind a backslash. -/
inductive Joint : Text → Prop
  | gap {g} : IsGap g → Joint g
  | feed {g e j} : IsGap g → e = ['\n'] ∨ e = ['\r', '\n'] → Joint j →
      Joint (g ++ '\\' :: (e ++ j))

/-- Some names without parentheses. -/
inductive Continued : List Imported → Text → Prop
  | last {e j} : Joint j → Continued [e] (j ++ e.text)
  | more {e es j g t} : Joint j → IsGap g → Continued es t →
      Continued (e :: es) (j ++ (e.text ++ (g ++ ',' :: t)))

/-- What stands in front of the names that are imported from a module. -/
inductive Heading (m : Text) : Text → Prop
  | mk {g g₁ g₂} : IsReference m → IsGap g → IsGap g₁ → g₁ ≠ [] → IsGap g₂ →
      g₂ ≠ [] → Heading m (g ++ ("from" ++ (g₁ ++ (m ++ (g₂ ++ "import")))))

/-- The names that are imported, from the end of the heading to the end of the
last line. -/
inductive Setting (es : List Imported) : Text → Prop
  | enclosed {g t tail} : IsGap g → Enclosed es t → IsLineEnd tail →
      Setting es (g ++ '(' :: (t ++ tail))
  | continued {t tail} : (∀ c, t.head? = some c → isWord c = false) →
      Continued es t → IsLineEnd tail → Setting es (t ++ tail)

-- ====================================================================== names

variable {b g j l m n t u w tail after : Text} {c : Char} {es : List Imported}

namespace Imported

variable (e : Imported)

/-- A name as it is written holds words and blanks. -/
theorem isWord_or_space (hc : c ∈ e.text) : isWord c = true ∨ c = ' ' := by
  unfold text renamed at hc
  split at hc
  · exact Or.inl (e.isIdentifier_name.2 c hc)
  · rename_i a ha
    rcases List.mem_append.1 hc with hc | hc
    · exact Or.inl (e.isIdentifier_name.2 c hc)
    · rcases List.mem_append.1 hc with hc | hc
      · have hall : " as ".toList.all (fun c => isWord c || c == ' ') = true := by
          decide +kernel
        simpa using List.all_eq_true.1 hall c hc
      · exact Or.inl ((e.isIdentifier_alias a ha).2 c hc)

theorem notMem_text (hc : isWord c = false) (hspace : c ≠ ' ') : c ∉ e.text := by
  intro hmem
  rcases e.isWord_or_space hmem with h | h
  · rw [h] at hc
    cases hc
  · exact hspace h

/-- A name as it is written ends with a character of a word. -/
theorem exists_text_eq_concat : ∃ t c, e.text = t ++ [c] ∧ isWord c = true := by
  have hlast : ∀ t : Text, IsIdentifier t → ∃ s c, t = s ++ [c] ∧ isWord c = true := by
    intro t ht
    obtain ⟨s, c, rfl⟩ := (List.eq_nil_or_concat' t).resolve_left ht.1
    exact ⟨s, c, rfl, ht.2 c (by simp)⟩
  unfold text renamed
  split
  · exact hlast _ e.isIdentifier_name
  · rename_i a ha
    obtain ⟨s, c, hs, hc⟩ := hlast a (e.isIdentifier_alias a ha)
    exact ⟨e.name ++ (" as " ++ s), c, by rw [hs]; simp, hc⟩

/-- A name as it is written starts with a character of a word. -/
theorem exists_text_eq_cons : ∃ c t, e.text = c :: t ∧ isWord c = true := by
  obtain ⟨c, t, ht⟩ := List.exists_cons_of_ne_nil e.isIdentifier_name.1
  have hc : isWord c = true := e.isIdentifier_name.2 c (by rw [ht]; simp)
  unfold text renamed
  rw [ht]
  split
  · exact ⟨c, t, rfl, hc⟩
  · exact ⟨c, _, rfl, hc⟩

/-- The name is what a list reads of it. -/
theorem namesIn_text (hg : IsSpace g) : namesIn (e.text ++ g) = [e.name] := by
  have hcomma : ',' ∉ e.text ++ g :=
    List.not_mem_append (e.notMem_text (by decide) (by decide))
      (hg.notMem (by decide))
  have hstar : e.name ≠ ['*'] := by
    intro h
    have hword := e.isIdentifier_name.2 '*' (by rw [h]; simp)
    cases hword
  have hread := nameIn?_renamed (g := []) (by simp [IsSpace])
    e.isIdentifier_name.isSolid
    (fun a ha => (e.isIdentifier_alias a ha).isSolid) hg
  rw [List.nil_append, if_neg (not_or.2 ⟨hstar, e.name_ne_self⟩)] at hread
  rw [namesIn_of_notMem hcomma]
  unfold text
  rw [hread]
  rfl

end Imported

-- ========================================================== the code of a line

/-- A solid character keeps what stands in front of it. -/
theorem withoutRemark_append (ht : '#' ∉ t) (hc : isBlank c = false)
    (hremark : c ≠ '#') (u : Text) :
    withoutRemark (t ++ c :: u) = t ++ c :: withoutRemark u := by
  unfold withoutRemark
  rw [List.append_cons, Text.before_append (by simp [ht, Ne.symm hremark]),
    List.append_assoc, List.singleton_append]
  exact Text.trimEndOf_append_cons hc t _

/-- Blanks and a remark are all of them taken off. -/
theorem withoutRemark_lineEnd (h : IsLineEnd t) : withoutRemark t = [] := by
  obtain ⟨g, r, rfl, hg, -, hr⟩ := h
  have hremark : '#' ∉ g := hg.isSpace.notMem (by decide)
  have hbefore : Text.before '#' (g ++ r) = g := by
    rcases hr with rfl | hr
    · rw [List.append_nil, Text.before_of_notMem hremark]
    · obtain ⟨r, rfl⟩ := List.head?_eq_some_iff.1 hr
      exact Text.before_append_self hremark r
  unfold withoutRemark
  rw [hbefore]
  exact Text.trimEndOf_eq_nil hg.isSpace

/-- What a name with the end of a line behind leaves is the name. -/
theorem withoutRemark_text (e : Imported) (h : IsLineEnd t) :
    withoutRemark (e.text ++ t) = e.text := by
  obtain ⟨s, c, hs, hc⟩ := e.exists_text_eq_concat
  have hremark : '#' ∉ e.text := e.notMem_text (by decide) (by decide)
  rw [hs] at hremark
  rw [hs, List.append_assoc, List.singleton_append,
    withoutRemark_append (fun hmem => hremark (List.mem_append_left _ hmem))
      (isBlank_eq_false_of_isWord hc)
      (fun heq => hremark (by rw [heq]; simp)),
    withoutRemark_lineEnd h]

/-- A blank in front stays if something else does. -/
theorem withoutRemark_cons (hc : isBlank c = true) (l : Text) :
    withoutRemark (c :: l)
      = if withoutRemark l = [] then [] else c :: withoutRemark l := by
  have hremark : '#' ∉ [c] := by
    rw [List.mem_singleton]
    rintro rfl
    cases hc
  unfold withoutRemark
  rw [← List.singleton_append, Text.before_append hremark]
  exact Text.trimEndOf_cons hc _

/-- A carriage return at the end is taken off with the blanks. -/
theorem withoutRemark_withoutReturn (l : Text) :
    withoutRemark (Text.withoutReturn l) = withoutRemark l := by
  unfold Text.withoutReturn
  split
  · rename_i hlast
    obtain ⟨l, rfl⟩ := List.getLast?_eq_some_iff.1 hlast
    have hreturn : ∀ c ∈ ['\r'], isBlank c = true := by
      rw [List.forall_mem_singleton]
      rfl
    rw [List.dropLast_concat]
    by_cases hremark : '#' ∈ l
    · obtain ⟨a, b, rfl, ha⟩ := List.eq_append_cons_of_mem hremark
      unfold withoutRemark
      rw [List.append_assoc, List.cons_append, Text.before_append_self ha,
        Text.before_append_self ha]
    · have hboth : '#' ∉ l ++ ['\r'] := by simp [hremark]
      unfold withoutRemark
      rw [Text.before_of_notMem hremark, Text.before_of_notMem hboth]
      exact (Text.trimEndOf_append_of_forall hreturn l).symm
  · rfl

/-- A line is read by its code. -/
theorem pythonLine_congr (h : withoutRemark l = withoutRemark w)
    (s : Option (Text × Continuation)) : pythonLine s l = pythonLine s w := by
  unfold pythonLine
  rw [h]

theorem pythonLine_withoutReturn (s : Option (Text × Continuation)) (l : Text) :
    pythonLine s (Text.withoutReturn l) = pythonLine s l :=
  pythonLine_congr (withoutRemark_withoutReturn l) s

-- ============================================================ an open import

/-- What is in front of a list and no end of it only adds to it. -/
theorem listMore_append (ht : ')' ∉ t) (hparenthesis : c ≠ ')') (hc : c ≠ '\\')
    (how : Continuation) (u : Text) :
    listMore how (t ++ c :: u)
      = (t ++ c :: (listMore how u).1, (listMore how u).2) := by
  cases how with
  | parenthesis =>
      have hfront : ')' ∉ t ++ [c] := by simp [ht, Ne.symm hparenthesis]
      unfold listMore
      rw [List.append_cons, Text.before_append hfront, List.append_assoc,
        List.singleton_append]
      simp [ht, Ne.symm hparenthesis]
  | backslash =>
      have hcut : withoutBackslashes (t ++ c :: u)
          = t ++ c :: withoutBackslashes u :=
        Text.trimEndOf_append_cons (by simpa using hc) t u
      unfold listMore
      dsimp only
      rw [hcut, List.getLast?_append, List.getLast?_cons]
      cases u.getLast? with
      | none =>
          have hne : (some c != some '\\') = true :=
            bne_iff_ne.2 (by simpa using hc)
          simp only [Option.getD_none, Option.some_or, hne]
          rfl
      | some d => rfl

/-- A blank in front of a line is passed over. -/
theorem pythonLine_blank (m : Text) (how : Continuation) (hc : isBlank c = true)
    (l : Text) :
    pythonLine (some (m, how)) (c :: l) = pythonLine (some (m, how)) l := by
  have hspace : IsSpace [c] := by simpa [IsSpace] using hc
  have hparenthesis : c ≠ ')' := by
    rintro rfl
    cases hc
  have hbackslash : c ≠ '\\' := by
    rintro rfl
    cases hc
  unfold pythonLine
  dsimp only
  rw [withoutRemark_cons hc]
  split
  · rename_i hnil
    rw [hnil]
  · have hmore := listMore_append (t := []) (by simp) hparenthesis hbackslash how
      (withoutRemark l)
    rw [List.nil_append, List.nil_append] at hmore
    rw [hmore, ← List.singleton_append (x := c), namesIn_space_append hspace]

/-- A name with a comma behind adds itself to the rest of a line. -/
theorem pythonLine_comma (e : Imported) (m : Text) (how : Continuation)
    (hg : IsGap g) (l : Text) :
    pythonLine (some (m, how)) (e.text ++ (g ++ ',' :: l))
      = ([dotted m e.name] ++ (pythonLine (some (m, how)) l).1,
          (pythonLine (some (m, how)) l).2) := by
  have hnot : ∀ c, isWord c = false → isBlank c = false → c ≠ ' ' →
      c ∉ e.text ++ g := by
    intro c hword hblank hspace
    exact List.not_mem_append (e.notMem_text hword hspace) (hg.isSpace.notMem hblank)
  have hremark := hnot '#' (by decide) (by decide) (by decide)
  have hparenthesis := hnot ')' (by decide) (by decide) (by decide)
  have hcomma := hnot ',' (by decide) (by decide) (by decide)
  have hname := e.namesIn_text hg.isSpace
  rw [namesIn_of_notMem hcomma] at hname
  unfold pythonLine
  dsimp only
  rw [← List.append_assoc, withoutRemark_append hremark (by decide) (by decide),
    listMore_append hparenthesis (by decide) (by decide), namesIn_append hcomma,
    hname, List.map_append]
  rfl

/-- What ends a line holds no line feed. -/
theorem IsLineEnd.notMem_feed (h : IsLineEnd t) : '\n' ∉ t := by
  obtain ⟨g, r, rfl, hg, hr, -⟩ := h
  exact List.not_mem_append hg.notMem_feed hr

/-- A name with a comma behind adds itself to the rest of a text. -/
theorem scanText_comma (e : Imported) (m : Text) (how : Continuation)
    (hg : IsGap g) (u : Text) :
    scanText pythonLine (some (m, how)) (e.text ++ (g ++ ',' :: u))
      = dotted m e.name :: scanText pythonLine (some (m, how)) u := by
  have hinline : IsInline (e.text ++ (g ++ [','])) := by
    constructor
    · have hname := e.notMem_text (c := '\n') (by decide) (by decide)
      have hfeed := hg.notMem_feed
      simp [hname, hfeed]
    · rw [← List.append_assoc, List.getLast?_concat]
      decide
  have hnil : (pythonLine (some (m, how)) []).1 = [] := by cases how <;> rfl
  have hadds := scanText_append hinline (by simp) hnil (fun l _ => by
    rw [List.append_assoc, List.append_assoc]
    exact pythonLine_comma e m how hg l) u
  rw [List.append_assoc, List.append_assoc] at hadds
  exact hadds

-- ========================================================= names in parentheses

section

variable (m : Text)

/-- Blanks and ends of lines in parentheses are passed over. -/
theorem scanText_break (hb : Break b) (u : Text) :
    scanText pythonLine (some (m, .parenthesis)) (b ++ u)
      = scanText pythonLine (some (m, .parenthesis)) u := by
  induction hb with
  | gap hg => exact scanText_gap rfl (fun c hc => pythonLine_blank m _ hc) hg u
  | @feed t b ht _ ih =>
      have hline : pythonLine (some (m, .parenthesis)) t
          = ([], some (m, .parenthesis)) :=
        pythonLine_congr (w := []) (withoutRemark_lineEnd ht) _
      rw [List.append_assoc, List.cons_append,
        scanText_line (pythonLine_withoutReturn _) rfl ht.notMem_feed
          (Or.inr rfl), hline]
      exact ih

/-- The parenthesis closes the import, and the rest of its line is not read. -/
theorem scanText_close (hremark : '#' ∉ t) (hparenthesis : ')' ∉ t)
    (hfeed : '\n' ∉ t) (htail : '\n' ∉ tail)
    (hafter : after = [] ∨ after.head? = some '\n') :
    scanText pythonLine (some (m, .parenthesis)) (t ++ ')' :: (tail ++ after))
      = (namesIn t).map (dotted m) ++ scanText pythonLine none after.tail := by
  have hline : pythonLine (some (m, .parenthesis)) (t ++ ')' :: tail)
      = ((namesIn t).map (dotted m), none) := by
    unfold pythonLine
    dsimp only
    rw [withoutRemark_append hremark (by decide) (by decide)]
    unfold listMore
    dsimp only
    rw [Text.before_append_self hparenthesis, if_pos (by simp)]
  rw [← List.cons_append, ← List.append_assoc,
    scanText_line (pythonLine_withoutReturn _) rfl (by simp [hfeed, htail]) hafter,
    hline]

/-- The last name in parentheses, without a comma behind. -/
theorem scanText_last (e : Imported) (hb : Break b) (htail : '\n' ∉ tail)
    (hafter : after = [] ∨ after.head? = some '\n') :
    scanText pythonLine (some (m, .parenthesis))
        (e.text ++ (b ++ ')' :: (tail ++ after)))
      = dotted m e.name :: scanText pythonLine none after.tail := by
  cases hb with
  | gap hg =>
      have hnot : ∀ c, isWord c = false → c ≠ ' ' → c ∉ b → c ∉ e.text ++ b := by
        intro c hword hspace hblank
        exact List.not_mem_append (e.notMem_text hword hspace) hblank
      rw [← List.append_assoc, scanText_close m
        (hnot '#' (by decide) (by decide) (hg.isSpace.notMem (by decide)))
        (hnot ')' (by decide) (by decide) (hg.isSpace.notMem (by decide)))
        (hnot '\n' (by decide) (by decide) hg.notMem_feed) htail hafter,
        e.namesIn_text hg.isSpace]
      rfl
  | @feed t b ht hb =>
      have hname := e.namesIn_text (g := []) (by simp [IsSpace])
      have hparenthesis : ')' ∉ e.text := e.notMem_text (by decide) (by decide)
      rw [List.append_nil] at hname
      have hline : pythonLine (some (m, .parenthesis)) (e.text ++ t)
          = ([dotted m e.name], some (m, .parenthesis)) := by
        unfold pythonLine
        dsimp only
        rw [withoutRemark_text e ht]
        unfold listMore
        dsimp only
        rw [Text.before_of_notMem hparenthesis, hname, if_neg (by simpa)]
        rfl
      have hclose := scanText_close m (t := []) (by simp) (by simp) (by simp)
        htail hafter
      have hfeed : '\n' ∉ e.text ++ t :=
        List.not_mem_append (e.notMem_text (by decide) (by decide)) ht.notMem_feed
      rw [List.append_assoc, List.cons_append, ← List.append_assoc,
        scanText_line (pythonLine_withoutReturn _) rfl hfeed (Or.inr rfl), hline,
        List.tail_cons, scanText_break m hb]
      exact congrArg _ hclose

/-- Names in parentheses are all reported, and the import ends behind them. -/
theorem scanText_enclosed (h : Enclosed es t) (htail : '\n' ∉ tail)
    (hafter : after = [] ∨ after.head? = some '\n') :
    scanText pythonLine (some (m, .parenthesis)) (t ++ (tail ++ after))
      = es.map (fun e => dotted m e.name)
          ++ scanText pythonLine none after.tail := by
  induction h with
  | @last e b b' hb hb' =>
      rw [List.append_assoc, scanText_break m hb, List.append_assoc,
        List.append_assoc]
      exact scanText_last m e hb' htail hafter
  | @comma e b g b' hb hg hb' =>
      have hclose := scanText_close m (t := []) (by simp) (by simp) (by simp)
        htail hafter
      rw [List.append_assoc, scanText_break m hb, List.append_assoc,
        List.append_assoc, List.cons_append, scanText_comma e m _ hg,
        List.append_assoc, scanText_break m hb']
      exact congrArg _ hclose
  | @more e es b g t hb hg _ ih =>
      rw [List.append_assoc, scanText_break m hb, List.append_assoc,
        List.append_assoc, List.cons_append, scanText_comma e m _ hg, ih]
      rfl

-- ====================================================== names behind backslashes

/-- Blanks and ends of lines behind a backslash are passed over. -/
theorem scanText_joint (hj : Joint j) (u : Text) :
    scanText pythonLine (some (m, .backslash)) (j ++ u)
      = scanText pythonLine (some (m, .backslash)) u := by
  induction hj with
  | gap hg => exact scanText_gap rfl (fun c hc => pythonLine_blank m _ hc) hg u
  | @feed g e j hg he _ ih =>
      have hline : ∀ r, withoutRemark r = [] →
          pythonLine (some (m, .backslash)) (g ++ '\\' :: r)
            = ([], some (m, .backslash)) := by
        intro r hr
        have hcut : withoutBackslashes (g ++ ['\\']) = withoutBackslashes g :=
          Text.trimEndOf_append_of_forall (by simp) g
        have hnames : namesIn (withoutBackslashes g) = [] := by
          refine namesIn_space fun c hc => (hg c ?_).1
          exact (Text.trimEndOf_isPrefix ..).subset hc
        unfold pythonLine
        dsimp only
        rw [withoutRemark_append (hg.isSpace.notMem (by decide)) (by decide)
          (by decide), hr]
        unfold listMore
        dsimp only
        rw [hcut, hnames, List.getLast?_concat]
        rfl
      have hreturn : ∃ r, e = r ++ ['\n'] ∧ '\n' ∉ r ∧ withoutRemark r = [] := by
        rcases he with rfl | rfl
        · exact ⟨[], rfl, by simp, rfl⟩
        · exact ⟨['\r'], rfl, by simp, rfl⟩
      obtain ⟨r, rfl, hfeed, hr⟩ := hreturn
      have hlast : '\n' ∉ g ++ '\\' :: r := by
        have := hg.notMem_feed
        simp [hfeed, this]
      have hshape : g ++ '\\' :: (r ++ ['\n'] ++ j) ++ u
          = (g ++ '\\' :: r) ++ '\n' :: (j ++ u) := by simp
      rw [hshape, scanText_line (pythonLine_withoutReturn _) rfl hlast (Or.inr rfl),
        hline r hr, List.tail_cons, ih, List.nil_append]

/-- Names without parentheses are all reported, and the import ends with the line
of the last one. -/
theorem scanText_continued (h : Continued es t) (htail : IsLineEnd tail)
    (hafter : after = [] ∨ after.head? = some '\n') :
    scanText pythonLine (some (m, .backslash)) (t ++ (tail ++ after))
      = es.map (fun e => dotted m e.name)
          ++ scanText pythonLine none after.tail := by
  induction h with
  | @last e j hj =>
      obtain ⟨s, c, hs, hc⟩ := e.exists_text_eq_concat
      have hbackslash : c ≠ '\\' := by
        rintro rfl
        cases hc
      have hname := e.namesIn_text (g := []) (by simp [IsSpace])
      rw [List.append_nil] at hname
      have hkeep : withoutBackslashes e.text = e.text := by
        rw [hs]
        exact Text.trimEndOf_append_cons (by simpa using hbackslash) s []
      have hlast : (e.text.getLast? != some '\\') = true := by
        rw [hs, List.getLast?_concat]
        exact bne_iff_ne.2 (by simpa using hbackslash)
      have hline : pythonLine (some (m, .backslash)) (e.text ++ tail)
          = ([dotted m e.name], none) := by
        unfold pythonLine
        dsimp only
        rw [withoutRemark_text e htail]
        unfold listMore
        dsimp only
        rw [hkeep, hname, if_pos hlast]
        rfl
      have hfeed : '\n' ∉ e.text ++ tail :=
        List.not_mem_append (e.notMem_text (by decide) (by decide)) htail.notMem_feed
      rw [List.append_assoc, scanText_joint m hj, ← List.append_assoc,
        scanText_line (pythonLine_withoutReturn _) rfl hfeed hafter, hline]
      rfl
  | @more e es j g t hj hg _ ih =>
      rw [List.append_assoc, scanText_joint m hj, List.append_assoc,
        List.append_assoc, List.cons_append, scanText_comma e m _ hg, ih]
      rfl

end

end Imports

end SourceDigest
