/-
Imports without a blank behind the keyword, and all of them.

A heading that a parenthesis or a backslash follows at once is not found
(`pythonLine_tight`). The lines behind it are then read as lines of their own.
None of them starts with a keyword, so they report nothing: the induction is on
the names again, but the state is closed now, and it matters whether a line has
begun before (`Unread`).

With the first lines that are found this gives the two sides of
`settings_read_alike_iff`.
-/
import Mathlib
import SourceDigest.Proofs.Imports.Headings
import SourceDigest.Proofs.Occurrences

namespace SourceDigest

namespace Imports

open Pattern DeclarationRules
open Text (isBlank isWord)

variable {b g h j l m n t u w tail after : Text} {c x : Char} {es : List Imported}

-- ============================================================= without a blank

section

variable {α : Type} {k : Place → Option α} {z : Text} {y : String}

/-- A word is not found at a blank. -/
theorem run_ofText_blank {w : Text} (hw : w.head?.any (!isBlank ·) = true)
    (hc : isBlank c = true) {n : Nat} {last : Option Char}
    {parts : List (Nat × Text)} :
    run (ofText w) ⟨n, last, c :: u, parts⟩ k = none := by
  refine run_ofText_of_not_lead ?_
  rintro ⟨v, hv⟩
  cases w with
  | nil => cases hw
  | cons d w =>
      rw [(List.cons.inj hv).1, List.head?_cons, Option.any_some, hc] at hw
      cases hw

/-- A word and a blank behind it are not found where others are first. -/
theorem run_spaced_of_ne (hy : y.toList.head?.any (!isBlank ·) = true)
    (hg : IsSpace g) (hz : ∀ c, z.head? = some c → isBlank c = false)
    (hword : ∀ c u, z = y.toList ++ c :: u → isBlank c = false) :
    run (indent ++ spaced y) (Place.start (g ++ z)) k = none := by
  unfold indent spaced space gap blank
  simp only [run_append, run_atStart_start]
  show run (many (char isBlank)) ⟨0, none, g ++ z, []⟩ _ = none
  rw [run_many_of_refuses hg hz fun m l c u hc => run_ofText_blank hy hc]
  by_cases hlead : y.toList <+: z
  · obtain ⟨v, rfl⟩ := hlead
    rw [run_ofText]
    refine run_many1_neg fun c hc => ?_
    obtain ⟨u, rfl⟩ := List.head?_eq_some_iff.1 hc
    exact hword c u rfl
  · exact run_ofText_of_not_lead hlead

theorem isAnchored_moduleImport : moduleImport.IsAnchored :=
  (((isAnchored_atStart.append _).append _).append _).append _

/-- No import of a module is found where the line begins with something
else. -/
theorem find?_moduleImport_of_ne (hg : IsSpace g)
    (hz : ∀ c, z.head? = some c → isBlank c = false)
    (hword : ∀ c u, z = "import".toList ++ c :: u → isBlank c = false) :
    moduleImport.find? (g ++ z) = none := by
  rw [find?_of_anchored isAnchored_moduleImport]
  exact Option.map_eq_none_iff.2 (run_spaced_of_ne (y := "import") rfl hg hz hword)

/-- A line on which neither heading is found reports nothing. -/
theorem pythonLine_of_none (hcode : withoutRemark l = t)
    (hfrom : moduleFrom.find? t = none) (himport : moduleImport.find? t = none) :
    pythonLine none l = ([], none) := by
  unfold pythonLine
  dsimp only
  rw [hcode, hfrom]
  dsimp only
  rw [capture?, himport]
  rfl

/-- Without a keyword in front nothing is reported. -/
theorem pythonLine_of_ne (hcode : withoutRemark l = g ++ z) (hg : IsSpace g)
    (hz : ∀ c, z.head? = some c → isBlank c = false)
    (hword : ∀ w ∈ keywords, ∀ c u, z = w ++ c :: u → isBlank c = false) :
    pythonLine none l = ([], none) := by
  have hfrom : moduleFrom.find? (g ++ z) = none := by
    rw [find?_of_anchored isAnchored_moduleFrom]
    refine Option.map_eq_none_iff.2 (run_spaced_of_ne (y := "from") rfl hg hz ?_)
    exact hword _ (by decide)
  exact pythonLine_of_none hcode hfrom
    (find?_moduleImport_of_ne hg hz (hword _ (by decide)))

end

/-- Neither is a heading found that has no blank behind. -/
theorem find?_moduleFrom_tight {g₁ g₂ : Text} (hm : IsReference m) (hg : IsGap g)
    (hg₁ : IsGap g₁) (hne₁ : g₁ ≠ []) (hg₂ : IsGap g₂) (hne₂ : g₂ ≠ [])
    (hx : isBlank x = false) (u : Text) :
    moduleFrom.find? (g ++ ("from".toList ++ (g₁ ++ (m ++ (g₂ ++
      ("import".toList ++ x :: u)))))) = none := by
  have hfront : ∀ c, ("from".toList ++ (g₁ ++ (m ++ (g₂ ++ ("import".toList ++
      x :: u))))).head? = some c → isBlank c = false := by
    rintro c ⟨⟩
    rfl
  rw [find?_of_anchored isAnchored_moduleFrom]
  refine Option.map_eq_none_iff.2 ?_
  unfold endAt? moduleFrom indent spaced space gap blank
  simp only [run_append, run_atStart_start]
  show run (many (char isBlank)) ⟨0, none, g ++ _, []⟩ _ = none
  -- each stretch of the heading is taken whole, and the blank behind is missing
  rw [run_many_of_refuses hg.isSpace hfront
      fun m l c u hc => run_ofText_blank rfl hc,
    run_ofText,
    run_many1_of_refuses hg₁.isSpace hne₁ (hm.isBlank_head _)
      fun m l c u hc => run_many1_neg (by simpa using hc),
    run_part,
    run_many1_of_refuses hm.all_not_isBlank hm.1 (hg₂.not_isBlank_head hne₂ _)
      fun m l c u hc => run_many1_neg (by simpa using hc),
    run_many1_of_refuses hg₂.isSpace hne₂ (by rintro c ⟨⟩; rfl)
      fun m l c u hc => run_ofText_blank rfl hc,
    run_ofText]
  exact run_many1_neg (by simpa using hx)

/-- A heading with no blank behind is none. -/
theorem Heading.pythonLine_tight (hh : Heading m h) (hx : isBlank x = false)
    (hremark : x ≠ '#') (l : Text) :
    pythonLine none (h ++ x :: l) = ([], none) := by
  have hcode := withoutRemark_append hh.notMem_remark hx hremark l
  obtain @⟨g, g₁, g₂, hm, hg, hg₁, hne₁, hg₂, hne₂⟩ := hh
  simp only [List.append_assoc] at hcode
  simp only [List.append_assoc]
  refine pythonLine_of_none hcode
    (find?_moduleFrom_tight hm hg hg₁ hne₁ hg₂ hne₂ hx _)
    (find?_moduleImport_of_ne hg.isSpace ?_ ?_)
  · rintro c ⟨⟩
    rfl
  · rintro c u ⟨⟩

/-- A name is no keyword, whatever stands behind it. -/
theorem Imported.isBlank_eq_false_of_keyword (e : Imported) {v : Text}
    (hv : ∀ c, v.head? = some c → isWord c = false) :
    ∀ w ∈ keywords, ∀ c u, e.text ++ v = w ++ c :: u → isBlank c = false := by
  intro w hw c u heq
  by_contra hblank
  have hc := isWord_eq_false_of_isBlank (Bool.not_eq_false _ ▸ hblank)
  have hstops : ∀ (n v : Text), n.all isWord = true →
      (∀ c, v.head? = some c → isWord c = false) →
      (n ++ v).takeWhile isWord = n := by
    intro n v hn hv
    rw [List.takeWhile_append_of_pos (List.all_eq_true.1 hn)]
    cases v with
    | nil => simp
    | cons d v => rw [List.takeWhile_cons_of_neg (by simp [hv d rfl]), List.append_nil]
  have hkeyword : w.all isWord = true := by
    have hall : keywords.all (fun w => w.all isWord) = true := by decide +kernel
    exact List.all_eq_true.1 hall w hw
  have hname : ∃ v', e.text ++ v = e.name ++ v'
      ∧ ∀ c, v'.head? = some c → isWord c = false := by
    unfold text renamed
    split
    · exact ⟨v, rfl, hv⟩
    · rename_i a ha
      refine ⟨(" as " ++ a) ++ v, by rw [List.append_assoc], ?_⟩
      rintro c ⟨⟩
      decide
  obtain ⟨v', hsplit, hv'⟩ := hname
  have htake := congrArg (List.takeWhile isWord) (hsplit.symm.trans heq)
  rw [hstops _ _ (List.all_eq_true.2 e.isIdentifier_name.2) hv',
    hstops _ _ hkeyword (by rintro d ⟨⟩; exact hc)] at htake
  exact e.name_notMem_keywords (htake ▸ hw)

/-- A line that starts with a name reports nothing. -/
theorem pythonLine_name (e : Imported) {v : Text} (hg : IsSpace g)
    (hcode : withoutRemark l = g ++ (e.text ++ v))
    (hv : ∀ c, v.head? = some c → isWord c = false) :
    pythonLine none l = ([], none) := by
  refine pythonLine_of_ne hcode hg ?_ (e.isBlank_eq_false_of_keyword hv)
  obtain ⟨d, t, ht, hword⟩ := e.exists_text_eq_cons
  intro c hc
  rw [ht] at hc
  cases hc
  exact isBlank_eq_false_of_isWord hword

/-- Nothing is reported before a text is over that stands after blanks, and
nothing if it stands after a remark. -/
structure Unread (u : Text) (found : List Text) : Prop where
  fresh : ∀ g, IsGap g → scanText pythonLine none (g ++ u) = found
  behind : ∀ w, '\n' ∉ w → scanText pythonLine none ('#' :: (w ++ u)) = found

section

variable {found : List Text}

/-- A line that is a remark is passed over. -/
theorem scanText_remark (hw : '\n' ∉ w)
    (hafter : after = [] ∨ after.head? = some '\n') :
    scanText pythonLine none ('#' :: (w ++ after))
      = scanText pythonLine none after.tail := by
  have hline : pythonLine none ('#' :: w) = ([], none) :=
    pythonLine_congr (w := []) rfl none
  rw [← List.cons_append,
    scanText_line (pythonLine_withoutReturn _) rfl (by simpa using hw) hafter, hline]
  rfl

namespace Unread

/-- A line without keyword is passed over. -/
theorem of_line (hline : '\n' ∉ t)
    (hstep : ∀ g, IsGap g → pythonLine none (g ++ t) = ([], none))
    (hafter : after = [] ∨ after.head? = some '\n')
    (hfound : scanText pythonLine none after.tail = found) :
    Unread (t ++ after) found := by
  constructor
  · intro g hg
    have hwhole : '\n' ∉ g ++ t :=
      List.not_mem_append hg.notMem_feed hline
    rw [← List.append_assoc, scanText_line (pythonLine_withoutReturn _) rfl hwhole
      hafter, hstep g hg]
    exact hfound
  · intro w hw
    have hwhole : '\n' ∉ w ++ t :=
      List.not_mem_append hw hline
    rw [← List.append_assoc, scanText_remark hwhole hafter]
    exact hfound

/-- A gap in front changes nothing. -/
theorem of_gap (h : Unread u found) (hg : IsGap g) : Unread (g ++ u) found := by
  constructor
  · intro g' hg'
    rw [← List.append_assoc]
    exact h.fresh _ (hg'.append hg)
  · intro w hw
    rw [← List.append_assoc]
    refine h.behind _ ?_
    exact List.not_mem_append hw hg.notMem_feed

theorem scanText_eq (h : Unread u found) : scanText pythonLine none u = found :=
  h.fresh [] (by simp [IsGap])

/-- Neither does a break. -/
theorem of_break (h : Unread u found) (hb : Break b) : Unread (b ++ u) found := by
  induction hb with
  | gap hg => exact h.of_gap hg
  | @feed t b ht _ ih =>
      rw [List.append_assoc, List.cons_append]
      refine of_line ht.notMem_feed (fun g hg => ?_) (Or.inr rfl) ih.scanText_eq
      obtain ⟨g', r, rfl, hg', hr⟩ := ht
      have hend : IsLineEnd (g ++ (g' ++ r)) :=
        ⟨g ++ g', r, (List.append_assoc ..).symm, hg.append hg', hr⟩
      exact pythonLine_congr (w := []) (withoutRemark_lineEnd hend) none

/-- Neither does a joint. -/
theorem of_joint (h : Unread u found) (hj : Joint j) : Unread (j ++ u) found := by
  induction hj with
  | gap hg => exact h.of_gap hg
  | @feed g e j hg he _ ih =>
      have hreturn : ∃ r, e = r ++ ['\n'] ∧ '\n' ∉ r := by
        rcases he with rfl | rfl
        · exact ⟨[], rfl, by simp⟩
        · exact ⟨['\r'], rfl, by simp⟩
      obtain ⟨r, rfl, hr⟩ := hreturn
      have hshape : g ++ '\\' :: (r ++ ['\n'] ++ j) ++ u
          = g ++ (('\\' :: r) ++ '\n' :: (j ++ u)) := by simp
      rw [hshape]
      refine of_gap ?_ hg
      refine of_line (by simpa using hr) (fun g hg => ?_) (Or.inr rfl) ih.scanText_eq
      refine pythonLine_of_ne (z := '\\' :: withoutRemark r)
        (withoutRemark_append (hg.isSpace.notMem (by decide)) (by decide)
          (by decide) r) hg.isSpace (by rintro c ⟨⟩; rfl) ?_
      intro w hw c u heq
      have hall : ∀ w ∈ keywords, w.head? ≠ some '\\' ∧ w ≠ [] := by decide
      have hhead := congrArg List.head? heq
      rw [List.head?_append_of_ne_nil _ (hall w hw).2] at hhead
      exact absurd hhead.symm (hall w hw).1

/-- A line that starts with a name is passed over. -/
theorem of_text (e : Imported) (hg : IsGap g) (hc : c = ',' ∨ c = ')')
    (hbehind : ∀ w, '\n' ∉ w →
      scanText pythonLine none ('#' :: (w ++ u)) = found) :
    Unread (e.text ++ (g ++ c :: u)) found := by
  have hmark : isBlank c = false ∧ c ≠ '#' ∧ '\n' ≠ c ∧ isWord c = false := by
    rcases hc with rfl | rfl <;> decide
  obtain ⟨hblank, hremark, hreturn, hword⟩ := hmark
  have hstop : ∀ v d, (g ++ c :: v).head? = some d → isWord d = false := by
    intro v d hd
    cases g with
    | nil =>
        cases hd
        exact hword
    | cons b g =>
        cases hd
        exact isWord_eq_false_of_isBlank (hg d (List.mem_cons_self ..)).1
  have hfeed : '\n' ∉ e.text ++ g :=
    List.not_mem_append (e.notMem_text (by decide) (by decide)) hg.notMem_feed
  constructor
  · intro g₀ hg₀
    have hnot : '#' ∉ g₀ ++ (e.text ++ g) := by
      rw [List.mem_append, List.mem_append, not_or, not_or]
      exact ⟨hg₀.isSpace.notMem (by decide), e.notMem_text (by decide) (by decide),
        hg.isSpace.notMem (by decide)⟩
    have hfront : '\n' ∉ g₀ ++ (e.text ++ g) :=
      List.not_mem_append hg₀.notMem_feed hfeed
    -- behind the name the line may go on as a remark does
    have hline : ∀ l, '\n' ∉ l → pythonLine none (g₀ ++ (e.text ++ g) ++ [c] ++ l)
        = ([] ++ (pythonLine none ([] ++ ['#'] ++ l)).1,
            (pythonLine none ([] ++ ['#'] ++ l)).2) := by
      intro l _
      have hcode := withoutRemark_append hnot hblank hremark l
      simp only [List.append_assoc] at hcode
      have hstep := pythonLine_name e hg₀.isSpace hcode (hstop _)
      have hdead : pythonLine none ([] ++ ['#'] ++ l) = ([], none) :=
        pythonLine_congr (w := []) rfl none
      rw [hdead, List.append_assoc, List.append_assoc, List.append_assoc]
      exact hstep
    have hadds := scanText_exchange (isInline_concat hfront hblank)
      (isInline_concat (t := []) (c := '#') (by simp) rfl) (by simp) (by simp)
      hline u
    have hrest := hbehind [] (by simp)
    simp only [List.append_assoc, List.nil_append, List.singleton_append]
      at hadds hrest
    rw [hadds, hrest]
  · intro w hw
    have hwhole : '\n' ∉ w ++ (e.text ++ g ++ [c]) := by
      rw [List.mem_append, List.mem_append, List.mem_singleton]
      simp only [hw, hfeed, hreturn, or_self, not_false_eq_true]
    have hrest := hbehind _ hwhole
    simpa only [List.append_assoc, List.singleton_append] using hrest

/-- So is a line that ends with a name. -/
theorem of_last (e : Imported) (ht : IsLineEnd t)
    (hafter : after = [] ∨ after.head? = some '\n')
    (hfound : scanText pythonLine none after.tail = found) :
    Unread (e.text ++ (t ++ after)) found := by
  rw [← List.append_assoc]
  refine of_line ?_ (fun g hg => ?_) hafter hfound
  · exact List.not_mem_append (e.notMem_text (by decide) (by decide)) ht.notMem_feed
  · obtain ⟨s, c, hs, hc⟩ := e.exists_text_eq_concat
    have hremark : '#' ∉ e.text := e.notMem_text (by decide) (by decide)
    rw [hs, List.mem_append, List.mem_singleton, not_or] at hremark
    have hnot : '#' ∉ g ++ s :=
      List.not_mem_append (hg.isSpace.notMem (by decide)) hremark.1
    have hcode := withoutRemark_append hnot (isBlank_eq_false_of_isWord hc)
      (Ne.symm hremark.2) t
    rw [withoutRemark_lineEnd ht, List.append_assoc, List.append_assoc, ← hs,
      ← List.append_nil e.text] at hcode
    refine pythonLine_name e (v := []) hg.isSpace (l := g ++ (e.text ++ t)) ?_
      (by simp)
    rw [← hcode, hs]
    simp

/-- So is the line of the parenthesis. -/
theorem of_close (htail : '\n' ∉ tail)
    (hafter : after = [] ∨ after.head? = some '\n') :
    Unread (')' :: (tail ++ after)) (scanText pythonLine none after.tail) := by
  rw [← List.cons_append]
  refine of_line (by simpa using htail) (fun g hg => ?_) hafter rfl
  refine pythonLine_of_ne
    (withoutRemark_append (hg.isSpace.notMem (by decide)) (by decide) (by decide)
      tail) hg.isSpace (by rintro c ⟨⟩; rfl) ?_
  intro w hw c u heq
  have hall : ∀ w ∈ keywords, w.head? ≠ some ')' ∧ w ≠ [] := by decide
  have hhead := congrArg List.head? heq
  rw [List.head?_append_of_ne_nil _ (hall w hw).2] at hhead
  exact absurd hhead.symm (hall w hw).1

/-- Names in parentheses, up to the end of the line of the closing one. -/
theorem of_enclosed (h : Enclosed es t) (htail : '\n' ∉ tail)
    (hafter : after = [] ∨ after.head? = some '\n') :
    Unread (t ++ (tail ++ after)) (scanText pythonLine none after.tail) := by
  have hclose := of_close htail hafter
  induction h with
  | @last e b b' hb hb' =>
      rw [List.append_assoc, List.append_assoc, List.append_assoc,
        List.singleton_append]
      refine of_break ?_ hb
      cases hb' with
      | gap hg =>
          refine of_text e hg (Or.inr rfl) fun w hw => ?_
          have hwhole : '\n' ∉ w ++ tail :=
            List.not_mem_append hw htail
          rw [← List.append_assoc]
          exact scanText_remark hwhole hafter
      | @feed t b ht hb' =>
          rw [List.append_assoc, List.cons_append]
          exact of_last e ht (Or.inr rfl) (hclose.of_break hb').scanText_eq
  | @comma e b g b' hb hg hb' =>
      rw [List.append_assoc, List.append_assoc, List.append_assoc, List.cons_append,
        List.append_assoc, List.singleton_append]
      exact of_break (of_text e hg (Or.inl rfl) (hclose.of_break hb').behind) hb
  | @more e es b g t hb hg _ ih =>
      rw [List.append_assoc, List.append_assoc, List.append_assoc, List.cons_append]
      exact of_break (of_text e hg (Or.inl rfl) ih.behind) hb

/-- Names without parentheses, up to the end of the line of the last one. -/
theorem of_continued (h : Continued es t) (htail : IsLineEnd tail)
    (hafter : after = [] ∨ after.head? = some '\n') :
    Unread (t ++ (tail ++ after)) (scanText pythonLine none after.tail) := by
  induction h with
  | @last e j hj =>
      rw [List.append_assoc]
      exact of_joint (of_last e htail hafter rfl) hj
  | @more e es j g t hj hg _ ih =>
      rw [List.append_assoc, List.append_assoc, List.append_assoc, List.cons_append]
      exact of_joint (of_text e hg (Or.inl rfl) ih.behind) hj

end Unread

/-- Names with no blank in front are passed over. -/
theorem scanText_tight (hh : Heading m h) (ht : Setting es t)
    (hblank : t.head?.any isBlank = false)
    (hafter : after = [] ∨ after.head? = some '\n') :
    scanText pythonLine none (h ++ (t ++ after))
      = scanText pythonLine none after.tail := by
  have hgap : ∀ {g x u}, IsGap g → t = g ++ x :: u → g = [] := by
    intro g x u hg heq
    cases g with
    | nil => rfl
    | cons c g =>
        rw [heq, List.cons_append, List.head?_cons, Option.any_some,
          (hg c (List.mem_cons_self ..)).1] at hblank
        cases hblank
  -- the line of the heading is as good as a remark
  have hdead : ∀ {x} u, isBlank x = false → x ≠ '#' →
      scanText pythonLine none (h ++ x :: u)
        = scanText pythonLine none ('#' :: x :: u) := by
    intro x u hx hremark
    have hline : ∀ l, '\n' ∉ l → pythonLine none (h ++ [x] ++ l)
        = ([] ++ (pythonLine none (['#'] ++ [x] ++ l)).1,
            (pythonLine none (['#'] ++ [x] ++ l)).2) := by
      intro l _
      have hremarks : pythonLine none (['#'] ++ [x] ++ l) = ([], none) :=
        pythonLine_congr (w := []) rfl none
      rw [hremarks, List.append_assoc, List.singleton_append,
        hh.pythonLine_tight hx hremark]
      rfl
    have hadds := scanText_exchange (isInline_concat hh.notMem_feed hx)
      (isInline_concat (t := ['#']) (by simp) hx) (by simp) (by simp) hline u
    rw [List.append_assoc, List.singleton_append] at hadds
    exact hadds
  cases ht with
  | @enclosed g t tail hg ht htail =>
      obtain rfl := hgap hg rfl
      have hrest := (Unread.of_enclosed ht htail.notMem_feed hafter).behind ['(']
        (by simp)
      rw [List.nil_append, List.cons_append, List.append_assoc,
        hdead _ rfl (by decide)]
      exact hrest
  | @continued t tail _ ht htail =>
      have hrest := (Unread.of_continued ht htail hafter).behind [] (by simp)
      obtain ⟨g, x, u, rfl, hg, hx, hremark, -⟩ := ht.exists_eq_cons
      obtain rfl := hgap hg (List.append_assoc ..)
      rw [List.nil_append, List.nil_append, List.cons_append] at hrest
      rw [List.nil_append, List.cons_append, List.cons_append, hdead _ hx hremark]
      simpa only [List.append_assoc] using hrest

end

-- ================================================================ all settings

/-- **An import is read in the same way however it is set, if a blank stands
behind its last keyword.** The module comes first, then every name as part of
it, and what stands on the lines after the import is read as it would be without
it. With no blank there, as in front of a parenthesis or a backslash, the import
is not read. -/
theorem settings_read_alike_iff (hh : Heading m h) (ht : Setting es t) :
    (∀ after, after = [] ∨ after.head? = some '\n' →
      scan .python (h ++ (t ++ after))
        = firstOccurrences (m :: es.map (fun e => dotted m e.name)
            ++ ofLines .python (Text.lines after.tail)))
      ↔ t.head?.any isBlank = true := by
  constructor
  · intro hread
    by_contra hblank
    rw [Bool.not_eq_true] at hblank
    have halone : scanText pythonLine none (h ++ (t ++ [])) = [] :=
      scanText_tight hh ht hblank (Or.inl rfl)
    have hnone : scan .python (h ++ (t ++ [])) = [] :=
      congrArg firstOccurrences halone
    have hmem : m ∈ firstOccurrences (m :: es.map (fun e => dotted m e.name)
        ++ ofLines .python (Text.lines ([] : Text).tail)) := by
      rw [mem_firstOccurrences]
      simp
    rw [← hread [] (Or.inl rfl), hnone] at hmem
    cases hmem
  · intro hblank after hafter
    exact congrArg firstOccurrences (scanText_setting hh ht hblank hafter)

/-- A name that is not renamed. -/
def pathName : Imported :=
  ⟨"path", none, by decide, by simp, by decide, by decide⟩

/-- A name that is. -/
def separatorName : Imported :=
  ⟨"sep", some "s", by decide, by simp; decide, by decide, by decide⟩

theorem heading_os : Heading "os" "from os import" :=
  @Heading.mk "os" [] " " " " ⟨by decide, by simp; decide⟩ (by decide)
    (by decide) (by decide) (by decide) (by decide)

theorem isLineEnd_nil : IsLineEnd [] :=
  ⟨[], [], rfl, by decide, by simp, Or.inl rfl⟩

/-- Two names on two lines, with a remark, in front of another import. -/
theorem settings_read_alike_on_two_lines :
    scan .python
        "from os import (path,  # both\n    sep as s\n)\nfrom . import os\n"
      = ["os", "os.path", "os.sep", ".", ".os"] := by
  have hend : IsLineEnd "  # both" :=
    ⟨"  ", "# both", by decide, by decide, by decide, Or.inr rfl⟩
  have ht : Setting [pathName, separatorName] " (path,  # both\n    sep as s\n)" :=
    .enclosed (g := " ") (by decide)
      (.more (b := []) (g := []) (.gap (by decide)) (by decide)
        (.last (.feed hend (.gap (g := "    ") (by decide)))
          (.feed isLineEnd_nil (.gap (g := []) (by decide))))) isLineEnd_nil
  have hread := (settings_read_alike_iff heading_os ht).2 rfl
    "\nfrom . import os\n" (Or.inr rfl)
  refine hread.trans ?_
  decide +kernel

/-- With a backslash right behind the keyword an import is set well, but not
read. -/
theorem scan_of_tight_backslash :
    Heading "os" "from os import" ∧ Setting [pathName] "\\\n    path"
      ∧ scan .python "from os import\\\n    path\n" = [] := by
  refine ⟨heading_os, ?_, by decide +kernel⟩
  have hj : Joint "\\\n    " :=
    .feed (g := []) (by decide) (Or.inl rfl) (.gap (g := "    ") (by decide))
  exact @Setting.continued _ "\\\n    path" [] (by rintro c ⟨⟩; rfl) (.last hj)
    isLineEnd_nil

end Imports

end SourceDigest
