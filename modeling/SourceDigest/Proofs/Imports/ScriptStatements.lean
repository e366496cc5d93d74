/-
Scripts as sequences of import and export statements.

A statement is known by little (`Statement`): its source, if it has one,
whether it has a list of names, how that list is set, and whether a semicolon
ends it. However it is written out (`Spells`), its lines report its source or
nothing, and whether a block is open behind them is told from the statement and
from what was open in front (`Spells.scanLines_eq`). So a script is read one
statement after the other (`Script.scanLines_eq`).

Sources are missed in two ways. A list over lines opens a block only if nothing
but blanks stand between the keyword and its brace, and outside a block its last
line is not read as the end of one. And a list of the script's own, when it goes
over lines and no semicolon ends it, leaves its block open, in which nothing but
the end of a list is read. In every other case all is reported
(`allHeard_of_tidy`), and if no source repeats, that is so exactly when no
statement is missed (`sources_reported_of_allHeard`).
-/
import Mathlib
import SourceDigest.Proofs.Imports.ScriptLines
import SourceDigest.Proofs.Occurrences

namespace SourceDigest

namespace Imports

open Text (isBlank isWord)

-- ===================================================================== pieces

/-- What stands in a statement outside its source: no quotation marks, brackets
or semicolons. -/
def IsWording (t : Text) : Prop :=
  ∀ c ∈ t, isQuote c = false ∧ isListMark c = false

instance (t : Text) : Decidable (IsWording t) :=
  decidable_of_iff (t.all (fun c => !isQuote c && !isListMark c) = true)
    (by simp [IsWording])

/-- What stands between a keyword and `from`: words that are set off from
both. -/
structure IsClause (x : Text) : Prop where
  isWording : IsWording x
  ne_nil : x ≠ []
  head : x.head?.any isWord = false
  getLast : x.getLast?.any isWord = false

/-- The end of a statement, with a semicolon or without. -/
def IsEnding (ended : Bool) (e : Text) : Prop :=
  (∀ c ∈ e, isBlank c = true ∨ c = ';') ∧ e.contains ';' = ended

instance (ended : Bool) (e : Text) : Decidable (IsEnding ended e) :=
  decidable_of_iff (e.all (fun c => isBlank c || c == ';') = true
    ∧ e.contains ';' = ended) (by simp [IsEnding])

/-- A source in quotation marks, and the end of its statement. -/
inductive Sourced (source : Text) (ended : Bool) : Text → Prop
  | mk {q e} : isQuote q = true → source ≠ [] → IsQuiet source → IsEnding ended e →
      Sourced source ended (q :: (source ++ q :: e))

/-- What stands between a keyword and a brace: blanks, nothing, or another name
and its comma. -/
inductive Lead : Bool → Text → Prop
  | space {g} : IsGap g → g ≠ [] → Lead true g
  | nothing : Lead false []
  | name {x} : IsWording x → x.head?.any isWord = false → ',' ∈ x → Lead false x

/-- What stands behind the brace that closes a list. -/
inductive Behind : Option Text → Bool → Text → Prop
  | own {ended e} : IsEnding ended e → Behind none ended e
  | source {source ended g y t} : IsGap g → IsGap y → Sourced source ended t →
      Behind (some source) ended (g ++ ("from" ++ (y ++ t)))

-- ================================================================= statements

/-- An import or export. -/
inductive Statement where
  /-- A source with no list of names in front: a default name, a namespace, all
  names of a module, or none. -/
  | single (source : Text) (ended : Bool)
  /-- A list of names, of a module or of the script itself. Only blanks may stand
  between the keyword and its brace (`spaced`), and it may go over lines
  (`broken`). -/
  | list (spaced broken : Bool) (source? : Option Text) (ended : Bool)

namespace Statement

/-- The module of a statement. -/
def source? : Statement → Option Text
  | single source _ => some source
  | list _ _ source? _ => source?

/-- The lines that a statement is written on. No line of a list but the first
starts like a statement. -/
inductive Spells : Statement → List Text → Prop
  | alone {source ended g y t} : IsGap g → IsGap y → Sourced source ended t →
      Spells (.single source ended) [g ++ ("import" ++ (y ++ t))]
  | clause {source ended g w x y t} : IsGap g → IsKeyword w → IsClause x → IsGap y →
      Sourced source ended t →
      Spells (.single source ended) [g ++ (w ++ (x ++ ("from" ++ (y ++ t))))]
  | line {spaced source? ended g w x n t} : IsGap g → IsKeyword w → Lead spaced x →
      IsWording n → Behind source? ended t →
      Spells (.list spaced false source? ended)
        [g ++ (w ++ (x ++ '\x7b' :: (n ++ '\x7d' :: t)))]
  | lines {spaced source? ended g w x f r n t} : IsGap g → IsKeyword w →
      Lead spaced x → IsWording f → (∀ l ∈ r, IsWording l ∧ ¬ StartsStatement l) →
      IsWording n → Behind source? ended t → ¬ StartsStatement (n ++ '\x7d' :: t) →
      Spells (.list spaced true source? ended)
        ((g ++ (w ++ (x ++ '\x7b' :: f))) :: (r ++ [n ++ '\x7d' :: t]))

/-- The lines of a script: those of its statements, with blank ones between
them. -/
inductive Script : List Statement → List Text → Prop
  | nil : Script [] []
  | blank {sts g ls} : IsGap g → Script sts ls → Script sts (g :: ls)
  | statement {st sts ls ls'} : Spells st ls → Script sts ls' →
      Script (st :: sts) (ls ++ ls')

-- ============================================================== what is heard

/-- Whether the source of a statement is reported, when a block is open in front
or not. -/
def isHeard (open_ : Bool) : Statement → Bool
  | single _ _ => !open_
  | list spaced broken _ _ => open_ || spaced || !broken

/-- Whether a block is open behind a statement. -/
def leavesOpen (open_ : Bool) : Statement → Bool
  | single source ended => open_ && !(source.contains ';' || ended)
  | list spaced broken source? ended =>
      (open_ || spaced && broken) && source?.isNone && !ended

/-- What is reported of a statement. -/
def report (open_ : Bool) (st : Statement) : List Text :=
  if st.isHeard open_ then st.source?.toList else []

/-- What is reported of a script. -/
def reportAll : Bool → List Statement → List Text
  | _, [] => []
  | open_, st :: sts => st.report open_ ++ reportAll (st.leavesOpen open_) sts

/-- No source of a script is missed. -/
def AllHeard : Bool → List Statement → Prop
  | _, [] => True
  | open_, st :: sts =>
      (st.source? ≠ none → st.isHeard open_ = true)
        ∧ AllHeard (st.leavesOpen open_) sts

instance decidableAllHeard :
    ∀ (open_ : Bool) (sts : List Statement), Decidable (AllHeard open_ sts)
  | _, [] => isTrue trivial
  | open_, st :: sts =>
      have := decidableAllHeard (st.leavesOpen open_) sts
      inferInstanceAs (Decidable (_ ∧ _))

end Statement

-- ==================================================================== wordings

variable {c q : Char} {content e f g l names source t u w x y z : Text}
  {spaced broken ended open_ : Bool} {origin? : Option Text} {ls : List Text}
  {st : Statement} {sts : List Statement}

theorem IsWording.isQuiet (h : IsWording x) : IsQuiet x := fun c hc => (h c hc).1

/-- No bracket or semicolon is in the words of a statement. -/
theorem IsWording.notMem (h : IsWording x) (hc : isListMark c = true) : c ∉ x := by
  intro hmem
  rw [(h c hmem).2] at hc
  cases hc

/-- Two wordings in a row are one. -/
theorem IsWording.append (hx : IsWording x) (hy : IsWording y) :
    IsWording (x ++ y) := by
  intro c hc
  rcases List.mem_append.1 hc with hc | hc
  · exact hx c hc
  · exact hy c hc

/-- A gap is a wording. -/
theorem IsGap.isWording (h : IsGap g) : IsWording g := by
  intro c hc
  refine ⟨isQuote_eq_false_of_isBlank (h c hc).1, ?_⟩
  have hall : "()\x7b\x7d;".toList.all (!isBlank ·) = true := by decide
  by_contra hmark
  rw [Bool.not_eq_false] at hmark
  have hblank := List.all_eq_true.1 hall c (List.contains_iff_mem.1 hmark)
  rw [(h c hc).1] at hblank
  cases hblank

/-- So is a keyword. -/
theorem IsKeyword.isWording (h : IsKeyword w) : IsWording w := by
  rcases h with rfl | rfl <;> decide

/-- So is what leads up to a list. -/
theorem Lead.isWording (h : Lead spaced x) : IsWording x := by
  cases h with
  | space hg _ => exact hg.isWording
  | nothing => decide
  | name hx _ _ => exact hx

/-- The keyword is set off from what stands in front of a brace. -/
theorem Lead.head_any (h : Lead spaced x) (r : Text) :
    (x ++ '\x7b' :: r).head?.any isWord = false := by
  cases h with
  | space hg hne =>
      obtain ⟨c, g, rfl⟩ := List.exists_cons_of_ne_nil hne
      exact isWord_eq_false_of_isBlank (hg c (List.mem_cons_self ..)).1
  | nothing => exact (by decide : isWord '\x7b' = false)
  | @name x _ hhead hcomma =>
      obtain ⟨c, x, rfl⟩ := List.exists_cons_of_ne_nil (List.ne_nil_of_mem hcomma)
      exact hhead

theorem IsEnding.isQuiet (h : IsEnding ended e) : IsQuiet e := by
  intro c hc
  rcases h.1 c hc with hblank | rfl
  · exact isQuote_eq_false_of_isBlank hblank
  · rfl

theorem contains_append (x y : Text) (c : Char) :
    (x ++ y).contains c = (x.contains c || y.contains c) := by
  simp [List.contains_eq_mem, Bool.decide_or]

-- ===================================================================== sources

namespace Sourced

/-- Behind quiet text the source stands between the first quotes. -/
theorem quoted_eq (h : Sourced source ended t) (hx : IsQuiet x) :
    quoted (x ++ t) = source := by
  obtain ⟨hq, -, hsource, -⟩ := h
  exact Imports.quoted_eq hx hq hsource hq _

/-- A semicolon is in the source or ends the statement. -/
theorem contains_semicolon (h : Sourced source ended t) :
    t.contains ';' = (source.contains ';' || ended) := by
  obtain @⟨q, e, hq, -, -, -, hended⟩ := h
  have hne : (';' == q) = false := by
    rw [beq_eq_false_iff_ne]
    rintro rfl
    cases hq
  rw [List.contains_cons, hne, Bool.false_or, contains_append, List.contains_cons, hne,
    Bool.false_or, hended]

/-- Two quotes stand behind no character but those in front of the source. -/
theorem not_hasQuotesBehind (h : Sourced source ended t) (hc : isQuote c = false)
    (hx : c ∉ x) : ¬ HasQuotesBehind c (x ++ t) := by
  obtain ⟨hq, -, hsource, he⟩ := h
  exact not_hasQuotesBehind_of_notMem hc hx hq hsource he.isQuiet

/-- A statement without a list is not heard in an open block. -/
theorem scriptLine_open (h : Sourced source ended t) (hx : IsWording x) :
    scriptLine true (x ++ t) = ([], !(source.contains ';' || ended)) := by
  have hsemicolon : x.contains ';' = false := by
    simpa using hx.notMem (c := ';') (by decide)
  rw [scriptLine_open_of_not (h.not_hasQuotesBehind (by decide) (hx.notMem (by decide))),
    contains_append, hsemicolon, Bool.false_or, h.contains_semicolon]

/-- An import of a source alone is heard outside a block. -/
theorem scriptLine_alone (h : Sourced source ended t) (hg : IsGap g) (hy : IsGap y) :
    scriptLine false (g ++ ("import" ++ (y ++ t))) = ([source], false) := by
  have hquiet : IsQuiet (g ++ ("import".toList ++ y)) :=
    hg.isSpace.isQuiet.append ((by decide : IsQuiet "import".toList).append
      hy.isSpace.isQuiet)
  have hquoted := h.quoted_eq hquiet
  simp only [List.append_assoc] at hquoted
  obtain @⟨q, e, hq, hne, hsource, -⟩ := h
  have hstarts : Starts (g ++ ("import".toList ++ (y ++ q :: (source ++ q :: e))))
      (y ++ q :: (source ++ q :: e)) := ⟨g, _, hg.isSpace, Or.inl rfl, rfl⟩
  have hfrom : scriptFrom.isIn
      (g ++ ("import".toList ++ (y ++ q :: (source ++ q :: e)))) = false := by
    by_contra hin
    rw [Bool.not_eq_false] at hin
    obtain ⟨u, hu, -, hf⟩ := starts_of_scriptFrom hin
    obtain rfl := hu.unique hstarts
    rw [takeWhile_quiet hy.isSpace.isQuiet,
      List.takeWhile_cons_of_neg (by simp [hq]), List.append_nil] at hf
    have hblank := hy.isSpace _ hf
    cases hblank
  rw [scriptLine_of_bare hfrom (isIn_scriptBare hg.isSpace hy.isSpace hq hsource hne),
    hquoted]

/-- So is any other with words that are set off from `from`. -/
theorem scriptLine_from (h : Sourced source ended t) (hg : IsGap g) (hw : IsKeyword w)
    (hx : IsQuiet x) (hne : x ≠ []) (hhead : x.head?.any isWord = false)
    (hlast : x.getLast?.any isWord = false) (hy : IsGap y) :
    scriptLine false (g ++ (w ++ (x ++ ("from" ++ (y ++ t))))) = ([source], false) := by
  have hquiet : IsQuiet (g ++ (w ++ (x ++ ("from".toList ++ y)))) :=
    hg.isSpace.isQuiet.append (hw.isQuiet.append (hx.append
      ((by decide : IsQuiet "from".toList).append hy.isSpace.isQuiet)))
  have hquoted := h.quoted_eq hquiet
  simp only [List.append_assoc] at hquoted
  obtain @⟨q, e, hq, hsome, hsource, -⟩ := h
  rw [scriptLine_of_from (isIn_scriptFrom hg.isSpace hw hx hne hhead hlast hy.isSpace
    hq hsource hsome), hquoted]

end Sourced

-- ======================================================================= lists

namespace Behind

/-- The brace that closes a list ends an open block, unless the list is the
script's own and goes without a semicolon. -/
theorem scriptLine_open (h : Behind origin? ended t) (hx : '\x7d' ∉ x)
    (hquiet : IsQuiet x) (hsemicolon : ';' ∉ x) :
    scriptLine true (x ++ '\x7d' :: t)
      = (origin?.toList, origin?.isNone && !ended) := by
  cases h with
  | @own _ e he =>
      have hline : IsQuiet (x ++ '\x7d' :: t) :=
        hquiet.append ((by decide : IsQuiet ['\x7d']).append he.isQuiet)
      have hnone : x.contains ';' = false := by simpa using hsemicolon
      have hbrace : (';' == '\x7d') = false := rfl
      rw [scriptLine_open_of_not (not_hasQuotesBehind_of_quiet hline), contains_append,
        hnone, List.contains_cons, hbrace, Bool.false_or, Bool.false_or, he.2]
      rfl
  | source hg hy ht =>
      obtain ⟨hq, hne, hsource, -⟩ := ht
      rw [scriptLine_open_of_capture (capture?_scriptBlockEnd hx hg.isSpace hy.isSpace hq
        hsource hne)]
      rfl

/-- Outside a block it is passed over when the line starts no statement. -/
theorem scriptLine_closed (h : Behind origin? ended t) (hx : IsWording x)
    (hstarts : ¬ StartsStatement (x ++ '\x7d' :: t)) :
    scriptLine false (x ++ '\x7d' :: t) = ([], false) := by
  refine scriptLine_of_not_starts hstarts ?_
  cases h with
  | own he =>
      exact not_hasQuotesBehind_of_quiet
        (hx.isQuiet.append ((by decide : IsQuiet ['\x7d']).append he.isQuiet))
  | @source _ _ g y t hg hy ht =>
      have hfront : '(' ∉ x ++ '\x7d' :: (g ++ ("from".toList ++ y)) := by
        simp only [List.mem_append, List.mem_cons, not_or]
        exact ⟨hx.notMem (by decide), by decide, hg.isWording.notMem (by decide),
          by decide, hy.isWording.notMem (by decide)⟩
      have hnot := ht.not_hasQuotesBehind (by decide) hfront
      simp only [List.append_assoc, List.cons_append] at hnot
      exact hnot

/-- A list on one line is heard. -/
theorem scriptLine_line (h : Behind origin? ended t) (hg : IsGap g) (hw : IsKeyword w)
    (hx : Lead spaced x) (hnames : IsWording names) :
    scriptLine false (g ++ (w ++ (x ++ '\x7b' :: (names ++ '\x7d' :: t))))
      = (origin?.toList, false) := by
  have hopen : IsQuiet ['\x7b'] := by decide
  have hclose : IsQuiet ['\x7d'] := by decide
  cases h with
  | own he =>
      have hline : IsQuiet (g ++ (w ++ (x ++ '\x7b' :: (names ++ '\x7d' :: t)))) :=
        hg.isSpace.isQuiet.append (hw.isQuiet.append (hx.isWording.isQuiet.append
          (hopen.append (hnames.isQuiet.append (hclose.append he.isQuiet)))))
      have hblock : scriptBlockStart.isIn
          (g ++ (w ++ (x ++ '\x7b' :: (names ++ '\x7d' :: t)))) = false := by
        by_contra hin
        rw [Bool.not_eq_false] at hin
        obtain ⟨u, y, r, hu, -, hsplit, -, hy, hr⟩ := starts_of_scriptBlockStart hin
        obtain rfl := hu.unique ⟨g, w, hg.isSpace, hw, rfl⟩
        have hfront := congrArg (Text.before '\x7b') hsplit
        rw [Text.before_append_self (hx.isWording.notMem (by decide)),
          Text.before_append_self hy] at hfront
        obtain rfl := hfront
        have hrest := (List.cons.inj (List.append_cancel_left hsplit)).2
        exact hr (by rw [← hrest]; simp)
      rw [scriptLine_of_quiet hline, hblock]
      rfl
  | @source _ _ y z t hy hz ht =>
      have hquiet : IsQuiet (x ++ '\x7b' :: (names ++ '\x7d' :: y)) :=
        hx.isWording.isQuiet.append (hopen.append (hnames.isQuiet.append
          (hclose.append hy.isSpace.isQuiet)))
      have hlast : (x ++ '\x7b' :: (names ++ '\x7d' :: y)).getLast?.any isWord
          = false := by
        rw [← List.cons_append, ← List.append_assoc,
          List.getLast?_append_of_ne_nil _ (by simp)]
        obtain rfl | ⟨y, c, rfl⟩ := List.eq_nil_or_concat' y
        · decide
        · rw [← List.cons_append, List.getLast?_concat]
          exact isWord_eq_false_of_isBlank (hy c (by simp)).1
      have hread := ht.scriptLine_from hg hw hquiet (by simp) (hx.head_any _) hlast hz
      simp only [List.append_assoc, List.cons_append] at hread
      exact hread

end Behind

/-- The first line of a broken list opens a block if only blanks stand in front of
the brace. -/
theorem scriptLine_head (hg : IsGap g) (hw : IsKeyword w) (hx : Lead spaced x)
    (hf : IsWording f) (open_ : Bool) :
    scriptLine open_ (g ++ (w ++ (x ++ '\x7b' :: f))) = ([], open_ || spaced) := by
  have hquiet : IsQuiet (g ++ (w ++ (x ++ '\x7b' :: f))) :=
    hg.isSpace.isQuiet.append (hw.isQuiet.append (hx.isWording.isQuiet.append
      ((by decide : IsQuiet ['\x7b']).append hf.isQuiet)))
  cases open_ with
  | true =>
      have hsemicolon : (g ++ (w ++ (x ++ '\x7b' :: f))).contains ';' = false := by
        have hmem : ';' ∉ g ++ (w ++ (x ++ '\x7b' :: f)) := by
          simp only [List.mem_append, List.mem_cons, not_or]
          exact ⟨hg.isWording.notMem (by decide), hw.isWording.notMem (by decide),
            hx.isWording.notMem (by decide), by decide, hf.notMem (by decide)⟩
        simpa using hmem
      rw [scriptLine_open_of_not (not_hasQuotesBehind_of_quiet hquiet), hsemicolon]
      rfl
  | false =>
      rw [scriptLine_of_quiet hquiet, Bool.false_or]
      congr 1
      cases hx with
      | space hx hne =>
          exact isIn_scriptBlockStart hg.isSpace hw hx.isSpace hne (hf.notMem (by decide))
      | nothing =>
          by_contra hin
          rw [Bool.not_eq_false] at hin
          obtain ⟨u, -, -, hu, hblank, -⟩ := starts_of_scriptBlockStart hin
          obtain rfl := hu.unique ⟨g, w, hg.isSpace, hw, rfl⟩
          cases hblank
      | @name x hx _ hcomma =>
          by_contra hin
          rw [Bool.not_eq_false] at hin
          obtain ⟨u, y, r, hu, -, hsplit, hnot, hy, -⟩ := starts_of_scriptBlockStart hin
          obtain rfl := hu.unique ⟨g, w, hg.isSpace, hw, rfl⟩
          have hfront := congrArg (Text.before '\x7b') hsplit
          rw [Text.before_append_self (hx.notMem (by decide)),
            Text.before_append_self hy] at hfront
          exact hnot (hfront ▸ hcomma)

/-- A further line of a list changes nothing. -/
theorem scriptLine_row (hl : IsWording l) (hstarts : ¬ StartsStatement l)
    (open_ : Bool) : scriptLine open_ l = ([], open_) := by
  have hquotes : ∀ c, ¬ HasQuotesBehind c l :=
    fun c => not_hasQuotesBehind_of_quiet hl.isQuiet
  cases open_ with
  | true =>
      have hsemicolon : l.contains ';' = false := by
        simpa using hl.notMem (c := ';') (by decide)
      rw [scriptLine_open_of_not (hquotes _), hsemicolon]
      rfl
  | false => exact scriptLine_of_not_starts hstarts (hquotes _)

theorem not_startsStatement_of_gap (hg : IsGap g) : ¬ StartsStatement g := by
  rintro ⟨u, ⟨g', w, -, hw, rfl⟩, -⟩
  obtain ⟨c, v, rfl, hc⟩ := hw.exists_eq_cons
  have hblank := (hg c (by simp)).1
  rw [hc] at hblank
  cases hblank

-- ===================================================================== scripts

theorem scanLines_cons (line : Text) (more : List Text) :
    scanLines scriptLine open_ (line :: more)
      = (scriptLine open_ line).1 ++ scanLines scriptLine (scriptLine open_ line).2 more :=
  rfl

/-- Rows of a block that start no statement report nothing and leave it as it
is. -/
theorem scanLines_rows {rows : List Text}
    (h : ∀ row ∈ rows, IsWording row ∧ ¬ StartsStatement row) (more : List Text) :
    scanLines scriptLine open_ (rows ++ more) = scanLines scriptLine open_ more := by
  induction rows with
  | nil => rfl
  | cons row rows ih =>
      obtain ⟨⟨hrow, hstarts⟩, hrows⟩ := List.forall_mem_cons.1 h
      rw [List.cons_append, scanLines_cons, scriptLine_row hrow hstarts, ih hrows]
      rfl

namespace Statement

-- Each line that a statement may be written on, with a block open in front or not.

/-- The line of a source alone. -/
theorem scriptLine_alone (hg : IsGap g) (hy : IsGap y) (ht : Sourced source ended t)
    (open_ : Bool) :
    scriptLine open_ (g ++ ("import" ++ (y ++ t)))
      = ((single source ended).report open_, (single source ended).leavesOpen open_) := by
  cases open_ with
  | true =>
      have hfront : IsWording (g ++ ("import".toList ++ y)) :=
        hg.isWording.append ((by decide : IsWording "import".toList).append hy.isWording)
      have hline := ht.scriptLine_open hfront
      simp only [List.append_assoc] at hline
      exact hline
  | false => exact ht.scriptLine_alone hg hy

/-- The line of a source with a clause in front of it. -/
theorem scriptLine_clause (hg : IsGap g) (hw : IsKeyword w) (hx : IsClause x)
    (hy : IsGap y) (ht : Sourced source ended t) (open_ : Bool) :
    scriptLine open_ (g ++ (w ++ (x ++ ("from" ++ (y ++ t)))))
      = ((single source ended).report open_, (single source ended).leavesOpen open_) := by
  cases open_ with
  | true =>
      have hfront : IsWording (g ++ (w ++ (x ++ ("from".toList ++ y)))) :=
        hg.isWording.append (hw.isWording.append (hx.isWording.append
          ((by decide : IsWording "from".toList).append hy.isWording)))
      have hline := ht.scriptLine_open hfront
      simp only [List.append_assoc] at hline
      exact hline
  | false =>
      exact ht.scriptLine_from hg hw hx.isWording.isQuiet hx.ne_nil hx.head hx.getLast hy

/-- A statement on one line reports its source, if it has one. -/
theorem report_unbroken (spaced ended open_ : Bool) :
    (list spaced false origin? ended).report open_ = origin?.toList := by
  show (if open_ || spaced || true then origin?.toList else []) = _
  rw [Bool.or_true, if_pos rfl]

/-- One over several lines reports it if a block was open or is opened by
it. -/
theorem report_broken (spaced ended open_ : Bool) :
    (list spaced true origin? ended).report open_
      = if open_ || spaced then origin?.toList else [] := by
  show (if open_ || spaced || false then origin?.toList else []) = _
  rw [Bool.or_false]

/-- A statement on one line leaves an open block open if it has neither a
source nor an end. -/
theorem leavesOpen_unbroken (spaced ended open_ : Bool) :
    (list spaced false origin? ended).leavesOpen open_
      = (open_ && origin?.isNone && !ended) := by
  show ((open_ || spaced && false) && origin?.isNone && !ended) = _
  rw [Bool.and_false, Bool.or_false]

/-- So does one over several lines, and it may have opened the block itself. -/
theorem leavesOpen_broken (spaced ended open_ : Bool) :
    (list spaced true origin? ended).leavesOpen open_
      = ((open_ || spaced) && origin?.isNone && !ended) := by
  show ((open_ || spaced && true) && origin?.isNone && !ended) = _
  rw [Bool.and_true]

/-- The line of a list that is not broken. -/
theorem scriptLine_unbroken (hg : IsGap g) (hw : IsKeyword w) (hx : Lead spaced x)
    (hnames : IsWording names) (ht : Behind origin? ended t) (open_ : Bool) :
    scriptLine open_ (g ++ (w ++ (x ++ '\x7b' :: (names ++ '\x7d' :: t))))
      = (origin?.toList, open_ && origin?.isNone && !ended) := by
  cases open_ with
  | true =>
      have hfront : ∀ c, isListMark c = true → c ≠ '\x7b' →
          c ∉ g ++ (w ++ (x ++ '\x7b' :: names)) := by
        intro c hc hne
        simp only [List.mem_append, List.mem_cons, not_or]
        exact ⟨hg.isWording.notMem hc, hw.isWording.notMem hc,
          hx.isWording.notMem hc, hne, hnames.notMem hc⟩
      have hquiet : IsQuiet (g ++ (w ++ (x ++ '\x7b' :: names))) :=
        hg.isSpace.isQuiet.append (hw.isQuiet.append (hx.isWording.isQuiet.append
          ((by decide : IsQuiet ['\x7b']).append hnames.isQuiet)))
      have hline := ht.scriptLine_open (hfront _ (by decide) (by decide)) hquiet
        (hfront _ (by decide) (by decide))
      simp only [List.append_assoc, List.cons_append] at hline
      exact hline
  | false => exact ht.scriptLine_line hg hw hx hnames

/-- The last line of a broken list. -/
theorem scriptLine_last (hnames : IsWording names) (ht : Behind origin? ended t)
    (hstarts : ¬ StartsStatement (names ++ '\x7d' :: t)) (open_ : Bool) :
    scriptLine open_ (names ++ '\x7d' :: t)
      = (if open_ then origin?.toList else [], open_ && origin?.isNone && !ended) := by
  cases open_ with
  | true =>
      exact ht.scriptLine_open (hnames.notMem (by decide)) hnames.isQuiet
        (hnames.notMem (by decide))
  | false => exact ht.scriptLine_closed hnames hstarts

/-- **A statement is read as a whole:** what its lines report, and whether a block
is open behind them, is told from the statement. -/
theorem Spells.scanLines_eq (h : Spells st ls) (open_ : Bool) (more : List Text) :
    scanLines scriptLine open_ (ls ++ more)
      = st.report open_ ++ scanLines scriptLine (st.leavesOpen open_) more := by
  cases h with
  | alone hg hy ht =>
      rw [List.singleton_append, scanLines_cons, scriptLine_alone hg hy ht]
  | clause hg hw hx hy ht =>
      rw [List.singleton_append, scanLines_cons, scriptLine_clause hg hw hx hy ht]
  | line hg hw hx hnames ht =>
      rw [List.singleton_append, scanLines_cons,
        scriptLine_unbroken hg hw hx hnames ht, report_unbroken, leavesOpen_unbroken]
  | lines hg hw hx hfirst hrows hnames ht hstarts =>
      rw [List.cons_append, scanLines_cons, scriptLine_head hg hw hx hfirst,
        List.nil_append, List.append_assoc, scanLines_rows hrows, List.singleton_append,
        scanLines_cons, scriptLine_last hnames ht hstarts, report_broken,
        leavesOpen_broken]

/-- So a script is read one statement after the other. -/
theorem Script.scanLines_eq (h : Script sts ls) (open_ : Bool) :
    scanLines scriptLine open_ ls = reportAll open_ sts := by
  induction h generalizing open_ with
  | nil => rfl
  | blank hg _ ih =>
      rw [scanLines_cons, scriptLine_row hg.isWording (not_startsStatement_of_gap hg), ih]
      rfl
  | statement hst _ ih => rw [hst.scanLines_eq, ih, reportAll]

/-- What is reported are sources of the script, in order. -/
theorem reportAll_sublist (open_ : Bool) (sts : List Statement) :
    (reportAll open_ sts).Sublist (sts.filterMap source?) := by
  induction sts generalizing open_ with
  | nil => exact List.Sublist.refl []
  | cons st sts ih =>
      have hsources : (st :: sts).filterMap source?
          = st.source?.toList ++ sts.filterMap source? := by
        rw [List.filterMap_cons]
        cases st.source? <;> rfl
      rw [hsources, reportAll]
      refine List.Sublist.append ?_ (ih _)
      unfold report
      split
      · exact List.Sublist.refl _
      · exact List.nil_sublist _

/-- They are all of them if none is missed, and in no other case. -/
theorem reportAll_eq_iff (open_ : Bool) (sts : List Statement) :
    reportAll open_ sts = sts.filterMap source? ↔ AllHeard open_ sts := by
  induction sts generalizing open_ with
  | nil => exact iff_of_true rfl trivial
  | cons st sts ih =>
      rw [reportAll, AllHeard, ← ih, List.filterMap_cons]
      unfold report
      cases hsource : st.source? with
      | none => simp
      | some source =>
          by_cases hheard : st.isHeard open_ = true
          · simp [hheard]
          · have hmissed : reportAll (st.leavesOpen open_) sts
                ≠ source :: sts.filterMap source? := by
              intro heq
              have hle := (reportAll_sublist (st.leavesOpen open_) sts).length_le
              rw [heq, List.length_cons] at hle
              omega
            simp [hheard, hmissed]

/-- A statement whose list, if it goes over lines, follows the keyword, and ends
with a semicolon if it is the script's own. -/
def IsTidy : Statement → Prop
  | single _ _ => True
  | list spaced broken source? ended =>
      broken = true → spaced = true ∧ (source? = none → ended = true)

/-- Behind tidy statements no block is open, so none is missed. -/
theorem allHeard_of_tidy (h : ∀ st ∈ sts, st.IsTidy) : AllHeard false sts := by
  induction sts with
  | nil => trivial
  | cons st sts ih =>
      obtain ⟨hst, hsts⟩ := List.forall_mem_cons.1 h
      have hclosed : st.leavesOpen false = false := by
        cases st with
        | single source ended => rfl
        | list spaced broken source? ended =>
            cases broken with
            | false => simp [leavesOpen]
            | true =>
                cases source? with
                | none => simp [leavesOpen, (hst rfl).2 rfl]
                | some source => simp [leavesOpen]
      refine ⟨fun _ => ?_, by rw [hclosed]; exact ih hsts⟩
      cases st with
      | single source ended => rfl
      | list spaced broken source? ended =>
          cases broken with
          | false => simp [isHeard]
          | true => simp [isHeard, (hst rfl).1]

/-- **The sources of a script are reported if no statement is missed.** When no
source repeats, that is the only case. -/
theorem sources_reported_of_allHeard (h : Script sts (Text.lines content)) :
    (AllHeard false sts →
        scan .javaScript content = firstOccurrences (sts.filterMap source?))
      ∧ ((sts.filterMap source?).Nodup →
        scan .javaScript content = firstOccurrences (sts.filterMap source?) →
        AllHeard false sts) := by
  have hscan : scan .javaScript content = firstOccurrences (reportAll false sts) := by
    rw [← h.scanLines_eq]
    rfl
  constructor
  · intro hheard
    rw [hscan, (reportAll_eq_iff false sts).2 hheard]
  · intro hdistinct heq
    rw [hscan, firstOccurrences_of_nodup hdistinct,
      firstOccurrences_of_nodup (hdistinct.sublist (reportAll_sublist false sts))] at heq
    exact (reportAll_eq_iff false sts).1 heq

/-- A list of a module and one of the script itself, both over lines, and a source
alone. -/
theorem sources_reported_of_broken_lists :
    scan .javaScript
        "import \x7b\n  c,\n\x7d from './n'\nexport \x7b\n  c\n\x7d;\n\nimport \"o.css\""
      = ["./n", "o.css"]
      ∧ AllHeard false [.list true true (some "./n") false, .list true true none true,
        .single "o.css" false] := by
  have hn : Spells (.list true true (some "./n") false)
      ["import \x7b", "  c,", "\x7d from './n'"] :=
    .lines (g := []) (w := "import".toList) (x := " ".toList) (f := [])
      (by decide) (Or.inl rfl) (.space (by decide) (by simp)) (by decide)
      (r := ["  c,"]) (by decide +kernel) (n := []) (by decide)
      (.source (g := " ".toList) (y := " ".toList) (by decide) (by decide)
        (.mk (q := '\'') (e := []) rfl (by simp) (by decide) (by decide)))
      (by decide +kernel)
  have hc : Spells (.list true true none true) ["export \x7b", "  c", "\x7d;"] :=
    .lines (g := []) (w := "export".toList) (x := " ".toList) (f := [])
      (by decide) (Or.inr rfl) (.space (by decide) (by simp)) (by decide)
      (r := ["  c"]) (by decide +kernel) (n := []) (by decide)
      (.own (e := ";".toList) (by decide)) (by decide +kernel)
  have ho : Spells (.single "o.css" false) ["import \"o.css\""] :=
    .alone (g := []) (y := " ".toList) (by decide) (by decide)
      (.mk (q := '"') (e := []) rfl (by simp) (by decide) (by decide))
  have hscript : Script _ (Text.lines
      "import \x7b\n  c,\n\x7d from './n'\nexport \x7b\n  c\n\x7d;\n\nimport \"o.css\"") :=
    .statement hn (.statement hc (.blank (g := []) (by decide) (.statement ho .nil)))
  have hread := sources_reported_of_allHeard hscript
  have hfound := hread.1 (by decide +kernel)
  exact ⟨hfound, hread.2 (by decide +kernel) hfound⟩

/-- With a name in front of the brace a list over lines is not heard. -/
theorem scan_of_named_broken_list :
    Script [.list false true (some "react") true]
        (Text.lines "import React, \x7b\n  useState\n\x7d from 'react';\n")
      ∧ [list false true (some "react") true].filterMap source? = ["react"]
      ∧ scan .javaScript "import React, \x7b\n  useState\n\x7d from 'react';\n" = [] := by
  have hspelled : Spells (.list false true (some "react") true)
      ["import React, \x7b", "  useState", "\x7d from 'react';"] :=
    .lines (g := []) (w := "import".toList) (x := " React, ".toList) (f := [])
      (by decide) (Or.inl rfl) (.name (by decide) (by decide) (by decide)) (by decide)
      (r := ["  useState"]) (by decide +kernel) (n := []) (by decide)
      (.source (g := " ".toList) (y := " ".toList) (by decide) (by decide)
        (.mk (q := '\'') (e := ";".toList) rfl (by simp) (by decide) (by decide +kernel)))
      (by decide +kernel)
  exact ⟨.statement hspelled .nil, rfl, by decide +kernel⟩

end Statement

end Imports

end SourceDigest
