/-
The first line of a `from` import.

The heading is found with the blank behind it, and what stands behind that is
the start of the list (`find?_moduleFrom`). A list that starts on a line is
read as one that was begun before and goes on there (`listStart_parenthesis`,
`listStart_of_ne`). So the line reports the module, and the rest of it is as if
the import had been open before, with the names that follow on its first line
(`scanText_parenthesis`, `scanText_of_ne`).
-/
import Mathlib
import SourceDigest.Proofs.Imports.FromImports
import SourceDigest.Proofs.Pattern.Runs

namespace SourceDigest

namespace Imports

open Pattern DeclarationRules
open Text (isBlank isWord)

variable {b g h j l m n t u w tail after : Text} {c x : Char} {es : List Imported}

-- ================================================================ the first line

/-- There is no blank in a reference to a module. -/
theorem IsReference.isBlank_eq_false (hm : IsReference m) (hc : c ∈ m) :
    isBlank c = false := by
  rcases hm.2 c hc with h | rfl
  · exact isBlank_eq_false_of_isWord h
  · rfl

theorem IsReference.all_not_isBlank (hm : IsReference m) :
    ∀ c ∈ m, (!isBlank c) = true := by
  intro c hc
  rw [hm.isBlank_eq_false hc]
  rfl

/-- A reference ends the blanks in front of it. -/
theorem IsReference.isBlank_head (hm : IsReference m) (u : Text) :
    ∀ c, (m ++ u).head? = some c → isBlank c = false := by
  intro c hc
  rw [List.head?_append_of_ne_nil _ hm.1] at hc
  exact hm.isBlank_eq_false (List.mem_of_mem_head? hc)

/-- Blanks end what stands in front of them. -/
theorem IsGap.not_isBlank_head (hg : IsGap g) (hne : g ≠ []) (u : Text) :
    ∀ c, (g ++ u).head? = some c → (!isBlank c) = false := by
  intro c hc
  rw [List.head?_append_of_ne_nil _ hne] at hc
  rw [(hg c (List.mem_of_mem_head? hc)).1]
  rfl

theorem isAnchored_moduleFrom : moduleFrom.IsAnchored :=
  ((((((isAnchored_atStart.append _).append _).append _).append _).append
    _).append _).append _

/-- The module and what stands behind the heading are found. -/
theorem find?_moduleFrom (hh : Heading m h) (hg : IsGap g) (hne : g ≠ [])
    (hx : isBlank x = false) (hfeed : '\n' ∉ x :: u) :
    ∃ found, moduleFrom.find? (h ++ (g ++ x :: u)) = some found
      ∧ found.part? 1 = some m ∧ found.part? 2 = some (x :: u) := by
  obtain @⟨g₀, g₁, g₂, hm, hg₀, hg₁, hne₁, hg₂, hne₂⟩ := hh
  have hany : ∀ c ∈ x :: u, (c != '\n') = true := fun c hc =>
    bne_iff_ne.2 fun heq => hfeed (heq ▸ hc)
  have hends : ∃ n l, endAt? moduleFrom (Place.start (g₀ ++ ("from".toList ++ (g₁ ++
      (m ++ (g₂ ++ ("import".toList ++ (g ++ x :: u)))))))) = some ⟨n, l, [],
        [(2, x :: u), (1, m)]⟩ := by
    apply Exists.intro
    apply Exists.intro
    unfold endAt? moduleFrom indent spaced space gap blank
    simp only [run_append, run_atStart_start]
    refine run_many_of_some hg₀.isSpace (by rintro c ⟨⟩; rfl) ?_
    rw [run_ofText]
    refine run_many1_of_some hg₁.isSpace hne₁ (hm.isBlank_head _) ?_
    rw [run_part]
    refine run_many1_of_some hm.all_not_isBlank hm.1 (hg₂.not_isBlank_head hne₂ _) ?_
    rw [between_append]
    refine run_many1_of_some hg₂.isSpace hne₂ (by rintro c ⟨⟩; rfl) ?_
    rw [run_ofText]
    refine run_many1_of_some hg.isSpace hne (by simpa using hx) ?_
    rw [run_part, ← List.append_nil (x :: u)]
    refine run_many_of_some hany (by simp) ?_
    rw [between_append, List.append_nil]
    rfl
  obtain ⟨n, l, hends⟩ := hends
  refine ⟨⟨0, n, [(2, x :: u), (1, m)]⟩, ?_, rfl, rfl⟩
  simp only [List.append_assoc]
  rw [find?_of_anchored isAnchored_moduleFrom, hends]
  rfl

/-- Without its remark a line is a front part of itself. -/
theorem withoutRemark_isPrefix (l : Text) : withoutRemark l <+: l :=
  (Text.trimEndOf_isPrefix ..).trans (List.takeWhile_prefix _)

/-- Where no blank stands in front there is nothing more to trim. -/
theorem trim_cons_withoutRemark (hx : isBlank x = false) (l : Text) :
    Text.trim (x :: withoutRemark l) = x :: withoutRemark l := by
  have hfront : ∀ c ∈ [x], isBlank c = false := by simpa using hx
  have htrim := Text.trimOf_append (by simp) hfront (withoutRemark l)
  rw [List.singleton_append, List.singleton_append] at htrim
  unfold withoutRemark at htrim ⊢
  exact htrim.trans (congrArg _ (Text.trimEndOf_trimEndOf ..))

namespace Heading

/-- No heading holds what ends a line or starts a remark. -/
theorem notMem (hh : Heading m h) (hword : isWord c = false) (hdot : c ≠ '.')
    (hc : isBlank c = false ∨ c = '\n') : c ∉ h := by
  obtain @⟨g, g₁, g₂, hm, hg, hg₁, -, hg₂, -⟩ := hh
  have hgap : ∀ g, IsGap g → c ∉ g := by
    intro g hg hmem
    rcases hc with hc | hc
    · rw [(hg c hmem).1] at hc
      cases hc
    · exact (hg c hmem).2 hc
  have hmodule : c ∉ m := by
    intro hmem
    rcases hm.2 c hmem with h | h
    · rw [h] at hword
      cases hword
    · exact hdot h
  have hliteral : ∀ w : Text, w.all isWord = true → c ∉ w := by
    intro w hw hmem
    rw [List.all_eq_true.1 hw c hmem] at hword
    cases hword
  have hfrom := hliteral "from" (by decide +kernel)
  have himport := hliteral "import" (by decide +kernel)
  simp only [List.mem_append, hgap g hg, hgap g₁ hg₁, hgap g₂ hg₂, hmodule, hfrom,
    himport, or_self, not_false_eq_true]

/-- A heading holds no remark. -/
theorem notMem_remark (hh : Heading m h) : '#' ∉ h :=
  hh.notMem (by decide) (by decide) (Or.inl rfl)

/-- A heading is one line. -/
theorem notMem_feed (hh : Heading m h) : '\n' ∉ h :=
  hh.notMem (by decide) (by decide) (Or.inr rfl)

/-- The first line reports the module and reads the list that starts on it. -/
theorem pythonLine_eq (hh : Heading m h) (hg : IsGap g) (hne : g ≠ [])
    (hx : isBlank x = false) (hremark : x ≠ '#') (hl : '\n' ∉ l) :
    pythonLine none (h ++ (g ++ x :: l))
      = (m :: (namesIn (listStart (x :: withoutRemark l)).1).map (dotted m),
          (listStart (x :: withoutRemark l)).2.map fun how => (m, how)) := by
  have hfront : '#' ∉ h ++ g :=
    List.not_mem_append hh.notMem_remark (hg.isSpace.notMem (by decide))
  have hfeed : '\n' ∉ x :: withoutRemark l := by
    rw [List.mem_cons, not_or]
    refine ⟨?_, fun hmem => hl ((withoutRemark_isPrefix l).subset hmem)⟩
    rintro rfl
    cases hx
  obtain ⟨found, hfound, hmodule, hnames⟩ := find?_moduleFrom hh hg hne hx hfeed
  unfold pythonLine
  dsimp only
  rw [← List.append_assoc, withoutRemark_append hfront hx hremark,
    List.append_assoc, hfound]
  dsimp only
  rw [hmodule, hnames, Option.getD_some, Option.getD_some,
    trim_cons_withoutRemark hx]

end Heading

/-- A list that starts with a parenthesis is read as one that goes on behind. -/
theorem listStart_parenthesis (t : Text) :
    listStart ('(' :: t)
      = ((listMore .parenthesis t).1,
          if (listMore .parenthesis t).2 then none else some .parenthesis) := by
  unfold listMore
  dsimp only
  rw [listStart]
  split
  · rfl
  · rename_i hclosed
    rw [Text.before_of_notMem (by simpa using hclosed)]

/-- Any other list is read as one that goes on behind a backslash. -/
theorem listStart_of_ne (hx : x ≠ '(') (t : Text) :
    listStart (x :: t)
      = ((listMore .backslash (x :: t)).1,
          if (listMore .backslash (x :: t)).2 then none
          else some .backslash) := by
  have hother : ∀ rest, x :: t = '(' :: rest → False :=
    fun rest heq => hx (List.cons.inj heq).1
  unfold listMore
  dsimp only
  rw [listStart.eq_2 _ hother]
  split
  · rename_i hlast
    rw [eq_of_beq hlast]
    rfl
  · rename_i hlast
    have hkeep : withoutBackslashes (x :: t) = x :: t := by
      obtain ⟨s, c, hs⟩ :=
        (List.eq_nil_or_concat' (x :: t)).resolve_left (List.cons_ne_nil x t)
      rw [hs, List.getLast?_concat] at hlast
      rw [hs]
      exact Text.trimEndOf_append_cons (by simpa using hlast) s []
    have hends : ((x :: t).getLast? != some '\\') = true := by
      simpa using hlast
    rw [hkeep, if_pos hends]

namespace Heading

/-- The line that a parenthesis is opened on is read as if it was open before. -/
theorem scanText_parenthesis (hh : Heading m h) (hg : IsGap g) (hne : g ≠ [])
    (u : Text) :
    scanText pythonLine none (h ++ (g ++ '(' :: u))
      = m :: scanText pythonLine (some (m, .parenthesis)) u := by
  have hfeed : '\n' ∉ h ++ g :=
    List.not_mem_append hh.notMem_feed hg.notMem_feed
  have hline : ∀ l, '\n' ∉ l → pythonLine none (h ++ g ++ ['('] ++ l)
      = ([m] ++ (pythonLine (some (m, .parenthesis)) l).1,
          (pythonLine (some (m, .parenthesis)) l).2) := by
    intro l hl
    rw [List.append_assoc, List.append_assoc, List.singleton_append,
      hh.pythonLine_eq hg hne rfl (by decide) hl, listStart_parenthesis]
    unfold pythonLine
    dsimp only
    cases (listMore .parenthesis (withoutRemark l)).2 <;> rfl
  have hadds := scanText_append (isInline_concat hfeed rfl) (by simp) rfl hline u
  rwa [List.append_assoc, List.append_assoc, List.singleton_append] at hadds

/-- Any other first line is read as if a backslash was in front of it. -/
theorem scanText_of_ne (hh : Heading m h) (hg : IsGap g) (hne : g ≠ [])
    (hx : isBlank x = false) (hremark : x ≠ '#') (hparenthesis : x ≠ '(')
    (u : Text) :
    scanText pythonLine none (h ++ (g ++ x :: u))
      = m :: scanText pythonLine (some (m, .backslash)) (x :: u) := by
  have hfeed : '\n' ∉ h ++ g :=
    List.not_mem_append hh.notMem_feed hg.notMem_feed
  have hline : ∀ l, '\n' ∉ l → pythonLine none (h ++ g ++ [x] ++ l)
      = ([m] ++ (pythonLine (some (m, .backslash)) ([] ++ [x] ++ l)).1,
          (pythonLine (some (m, .backslash)) ([] ++ [x] ++ l)).2) := by
    intro l hl
    have hcode := withoutRemark_append (t := []) (by simp) hx hremark l
    rw [List.nil_append, List.nil_append] at hcode
    rw [List.append_assoc, List.append_assoc, List.nil_append,
      List.singleton_append, hh.pythonLine_eq hg hne hx hremark hl,
      listStart_of_ne hparenthesis]
    unfold pythonLine
    dsimp only
    rw [hcode]
    cases (listMore .backslash (x :: withoutRemark l)).2 <;> rfl
  have hadds := scanText_exchange (isInline_concat hfeed hx)
    (isInline_concat (t := []) (by simp) hx) (by simp) (by simp) hline u
  rwa [List.append_assoc, List.append_assoc, List.nil_append,
    List.singleton_append] at hadds

end Heading

/-- Without parentheses a name or a backslash is first. -/
theorem Continued.exists_eq_cons (h : Continued es t) :
    ∃ g x u, t = g ++ x :: u ∧ IsGap g ∧ isBlank x = false ∧ x ≠ '#' ∧ x ≠ '(' := by
  have hfirst : ∀ {j} (e : Imported) (v : Text), Joint j →
      ∃ g x u, j ++ (e.text ++ v) = g ++ x :: u ∧ IsGap g ∧ isBlank x = false
        ∧ x ≠ '#' ∧ x ≠ '(' := by
    intro j e v hj
    cases hj with
    | gap hg =>
        obtain ⟨c, t, ht, hc⟩ := e.exists_text_eq_cons
        refine ⟨j, c, t ++ v, by rw [ht]; rfl, hg, isBlank_eq_false_of_isWord hc,
          ?_, ?_⟩
        · rintro rfl
          cases hc
        · rintro rfl
          cases hc
    | @feed g r j hg =>
        exact ⟨g, '\\', r ++ (j ++ (e.text ++ v)), by simp, hg, rfl, by decide,
          by decide⟩
  cases h with
  | @last e j hj =>
      have hname := hfirst e [] hj
      rwa [List.append_nil] at hname
  | @more e es j g t hj => exact hfirst e _ hj

/-- Names with a blank in front are all read, and so is what stands after them. -/
theorem scanText_setting (hh : Heading m h) (ht : Setting es t)
    (hblank : t.head?.any isBlank = true)
    (hafter : after = [] ∨ after.head? = some '\n') :
    scanText pythonLine none (h ++ (t ++ after))
      = m :: es.map (fun e => dotted m e.name)
          ++ scanText pythonLine none after.tail := by
  cases ht with
  | @enclosed g t tail hg ht htail =>
      have hne : g ≠ [] := by
        rintro rfl
        cases hblank
      rw [List.append_assoc, List.cons_append, List.append_assoc,
        hh.scanText_parenthesis hg hne,
        scanText_enclosed m ht htail.notMem_feed hafter]
      rfl
  | @continued t tail _ ht htail =>
      have hnames := scanText_continued m ht htail hafter
      obtain ⟨g, x, u, rfl, hg, hx, hremark, hparenthesis⟩ := ht.exists_eq_cons
      have hne : g ≠ [] := by
        rintro rfl
        rw [List.nil_append, List.cons_append, List.head?_cons, Option.any_some,
          hx] at hblank
        cases hblank
      have hgap := scanText_gap (s := some (m, .backslash)) rfl
        (fun c hc => pythonLine_blank m _ hc) hg (x :: (u ++ (tail ++ after)))
      rw [List.append_assoc, List.cons_append, hgap] at hnames
      rw [List.append_assoc, List.append_assoc, List.cons_append,
        hh.scanText_of_ne hg hne hx hremark hparenthesis, hnames]
      rfl

end Imports

end SourceDigest
