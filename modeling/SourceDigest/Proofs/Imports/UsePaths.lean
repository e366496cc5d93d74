/-
The first line of a `use` declaration.

A visibility is taken as a whole or the declaration is not found at all
(`run_visibility`), and so is the path: behind each of its characters but the
last there is nothing that a path may end with (`find?_usePath`). What the line
reports is settled by what stands behind the path. The end of the declaration
or a further name end it (`rustLine_name`), a star is none of its endings
(`rustLine_all`), and behind a brace the rest of the line is read as if the
group had been open before (`rustLine_group`).
-/
import Mathlib
import SourceDigest.Proofs.Imports.NameLists
import SourceDigest.Proofs.Pattern.Runs

namespace SourceDigest

namespace Imports

open Pattern DeclarationRules
open Text (isBlank isWord)

variable {c : Char}

-- ====================================================================== paths

/-- A name, with the evidence that it is one. -/
structure Identifier where
  text : Text
  isIdentifier : IsIdentifier text

/-- The names of a path with colons between them. -/
def pathText (path : List Identifier) : Text :=
  Text.join "::" (path.map Identifier.text)

/-- A path is its first name and what follows behind two colons. -/
theorem pathText_cons {i : Identifier} {path : List Identifier} (hne : path ≠ []) :
    pathText (i :: path) = i.text ++ ("::" ++ pathText path) := by
  unfold pathText
  rw [List.map_cons, Text.join_cons _ _ (by simpa using hne), List.append_assoc]

/-- Paths are put together by two colons. -/
theorem pathText_append {p q : List Identifier} (hp : p ≠ []) (hq : q ≠ []) :
    pathText (p ++ q) = pathText p ++ ("::" ++ pathText q) := by
  unfold pathText
  rw [List.map_append, Text.join_append _ (by simpa using hp) (by simpa using hq),
    List.append_assoc]

/-- A path holds characters of words and colons. -/
theorem isWord_or_colon {path : List Identifier} (hc : c ∈ pathText path) :
    isWord c = true ∨ c = ':' := by
  induction path with
  | nil => cases hc
  | cons i path ih =>
      by_cases hne : path = []
      · subst hne
        exact Or.inl (i.isIdentifier.2 c hc)
      · rw [pathText_cons hne] at hc
        rcases List.mem_append.1 hc with hc | hc
        · exact Or.inl (i.isIdentifier.2 c hc)
        · have hcolons : c ∈ [':', ':'] ++ pathText path := hc
          rcases List.mem_append.1 hcolons with hc | hc
          · exact Or.inr (by simpa using hc)
          · exact ih hc

/-- A path ends with a character of a word. -/
theorem exists_pathText_eq_concat {path : List Identifier} (hne : path ≠ []) :
    ∃ t c, pathText path = t ++ [c] ∧ isWord c = true := by
  obtain ⟨front, i, rfl⟩ := (List.eq_nil_or_concat' path).resolve_left hne
  obtain ⟨t, c, hi⟩ := (List.eq_nil_or_concat' i.text).resolve_left i.isIdentifier.1
  have hc : isWord c = true := i.isIdentifier.2 c (by rw [hi]; simp)
  by_cases hfront : front = []
  · subst hfront
    exact ⟨t, c, hi, hc⟩
  · refine ⟨pathText front ++ ("::" ++ t), c, ?_, hc⟩
    have hlast : pathText [i] = i.text := rfl
    rw [pathText_append hfront (by simp), hlast, hi, List.append_assoc,
      List.append_assoc]

/-- A path starts with a character of a word. -/
theorem exists_pathText_eq_cons {path : List Identifier} (hne : path ≠ []) :
    ∃ c t, pathText path = c :: t ∧ isWord c = true := by
  obtain ⟨i, path, rfl⟩ := List.exists_cons_of_ne_nil hne
  obtain ⟨c, t, hi⟩ := List.exists_cons_of_ne_nil i.isIdentifier.1
  have hc : isWord c = true := i.isIdentifier.2 c (by rw [hi]; simp)
  by_cases hpath : path = []
  · subst hpath
    exact ⟨c, t, hi, hc⟩
  · refine ⟨c, t ++ ("::" ++ pathText path), ?_, hc⟩
    rw [pathText_cons hpath, hi, List.cons_append]

/-- A path holds characters of words and colons only. -/
theorem notMem_pathText {path : List Identifier} (hword : isWord c = false)
    (hcolon : c ≠ ':') : c ∉ pathText path := by
  intro hmem
  rcases isWord_or_colon hmem with h | h
  · rw [h] at hword
    cases hword
  · exact hcolon h

/-- There is no blank in a path. -/
theorem isSolid_pathText {path : List Identifier} (hne : path ≠ []) :
    IsSolid (pathText path) := by
  constructor
  · obtain ⟨c, t, ht, -⟩ := exists_pathText_eq_cons hne
    rw [ht]
    exact List.cons_ne_nil c t
  · intro c hc
    rcases isWord_or_colon hc with h | rfl
    · exact ⟨isBlank_eq_false_of_isWord h, isListMark_eq_false_of_isWord h⟩
    · decide

-- ================================================================= visibilities

/-- What may stand in front of a declaration. -/
inductive IsVisibility : Text → Prop
  | none : IsVisibility []
  | all {g} : IsGap g → g ≠ [] → IsVisibility ("pub" ++ g)
  | scope {s g} : ')' ∉ s → '\n' ∉ s → IsGap g → g ≠ [] →
      IsVisibility ("pub" ++ ("(" ++ (s ++ (")" ++ g))))

variable {α : Type} {n : Nat} {last : Option Char} {parts : List (Nat × Text)}
  {k : Place → Option α} {f g h l r t u v z : Text}

theorem IsVisibility.notMem_feed (hv : IsVisibility v) : '\n' ∉ v := by
  have hpub : '\n' ∉ ("pub" : Text) := by decide
  have hopen : '\n' ∉ ("(" : Text) := by decide
  have hclose : '\n' ∉ (")" : Text) := by decide
  cases hv with
  | none => simp
  | all hg _ => exact List.not_mem_append hpub hg.notMem_feed
  | scope _ hs hg _ =>
      simp only [List.mem_append, hpub, hopen, hs, hclose, hg.notMem_feed, or_self,
        not_false_eq_true]

section

variable (hz : ∀ c, z.head? = some c → isBlank c = false)
  (hblank : ∀ m last c u, isBlank c = true → k ⟨m, last, c :: u, parts⟩ = none)
  (hk : ∀ u, k ⟨n, last, 'p' :: u, parts⟩ = none)
include hz hblank hk

/-- The keyword for what all may see is read with the gap behind it. -/
theorem run_visibility_all (hg : IsGap g) (hne : g ≠ []) :
    run visibility ⟨n, last, "pub".toList ++ (g ++ z), parts⟩ k
      = k ⟨n + 3 + g.length, g.getLast?.or (some 'b'), z, parts⟩ := by
  have hopen : ¬ ("(" : Text) <+: g ++ z := by
    rintro ⟨u, hu⟩
    obtain ⟨c, g, rfl⟩ := List.exists_cons_of_ne_nil hne
    have hc := (hg c (List.mem_cons_self ..)).1
    rw [← (List.cons.inj hu).1] at hc
    cases hc
  unfold visibility
  rw [run_opt, run_append, run_append, run_ofText, run_opt, run_append, run_append,
    run_ofText_of_not_lead hopen, Option.none_or]
  unfold space blank
  rw [run_many1_of_refuses hg.isSpace hne hz hblank]
  have hfront : k ⟨n, last, "pub".toList ++ (g ++ z), parts⟩ = none := hk _
  rw [hfront, Option.or_none]
  rfl

/-- So is the one with a scope in brackets. -/
theorem run_visibility_scope {s : Text} (hs : ')' ∉ s) (hg : IsGap g) (hne : g ≠ []) :
    run visibility
        ⟨n, last, "pub".toList ++ ("(".toList ++ (s ++ (")".toList ++ (g ++ z)))), parts⟩ k
      = k ⟨n + 3 + 1 + s.length + 1 + g.length, g.getLast?.or (some ')'), z, parts⟩ := by
  have hstop : ∀ c, (")".toList ++ (g ++ z)).head? = some c →
      (!(")".toList.contains c)) = false := by
    rintro c ⟨⟩
    rfl
  have hscope : ∀ c ∈ s, (!(")".toList.contains c)) = true := by
    intro c hc
    have hne : c ≠ ')' := fun h => hs (h ▸ hc)
    simpa using hne
  have hclose : ∀ (k' : Place → Option α) m l c u,
      (!(")".toList.contains c)) = true →
        run (ofText ")") ⟨m, l, c :: u, parts⟩ k' = none := by
    intro k' m l c u hc
    refine run_ofText_of_not_lead ?_
    rintro ⟨w, hw⟩
    rw [← (List.cons.inj hw).1] at hc
    cases hc
  have hspace : ∀ k' : Place → Option α, run space
      ⟨n + "pub".toList.length, "pub".toList.getLast?.or last,
        "(".toList ++ (s ++ (")".toList ++ (g ++ z))), parts⟩ k' = none :=
    fun k' => run_many1_neg (by rintro c ⟨⟩; rfl)
  unfold visibility
  rw [run_opt, run_append, run_append, run_ofText, run_opt, run_append, run_append,
    run_ofText]
  unfold noneOf
  rw [run_many_of_refuses hscope hstop (hclose _), run_ofText, hspace, Option.or_none]
  unfold space blank
  rw [run_many1_of_refuses hg.isSpace hne hz hblank]
  have hfront : k ⟨n, last, "pub".toList ++ ("(".toList ++ (s ++ (")".toList ++
      (g ++ z)))), parts⟩ = none := hk _
  rw [hfront, Option.or_none]
  rfl

end

/-- A visibility is taken as a whole if what is behind it is found neither at a
blank nor in front of it. -/
theorem run_visibility (n : Nat) (last : Option Char) (hv : IsVisibility v)
    (hz : ∀ c, z.head? = some c → isBlank c = false) (hpub : ¬ ("pub" : Text) <+: z)
    (hblank : ∀ m last c u, isBlank c = true → k ⟨m, last, c :: u, parts⟩ = none)
    (hk : ∀ u, k ⟨n, last, 'p' :: u, parts⟩ = none) :
    ∃ m last', run visibility ⟨n, last, v ++ z, parts⟩ k
      = k ⟨m, last', z, parts⟩ := by
  cases hv with
  | none =>
      refine ⟨n, last, ?_⟩
      unfold visibility
      rw [run_opt, run_append, run_append, List.nil_append, run_ofText_of_not_lead hpub,
        Option.none_or]
  | all hg hne =>
      rw [List.append_assoc]
      exact ⟨_, _, run_visibility_all hz hblank hk hg hne⟩
  | scope hs _ hg hne =>
      simp only [List.append_assoc]
      exact ⟨_, _, run_visibility_scope hz hblank hk hs hg hne⟩

-- ===================================================================== headings

/-- What stands in front of the path of a declaration. -/
inductive UseHeading : Text → Prop
  | mk {g v g₁} : IsGap g → IsVisibility v → IsGap g₁ → g₁ ≠ [] →
      UseHeading (g ++ (v ++ ("use" ++ g₁)))

theorem UseHeading.notMem_feed (hf : UseHeading f) : '\n' ∉ f := by
  obtain @⟨g, v, g₁, hg, hv, hg₁, -⟩ := hf
  have huse : '\n' ∉ ("use" : Text) := by decide
  simp only [List.mem_append, hg.notMem_feed, hv.notMem_feed, huse, hg₁.notMem_feed,
    or_self, not_false_eq_true]

/-- The blanks and the visibility in front are taken as a whole. -/
theorem run_indent_visibility (hg : IsGap g) (hv : IsVisibility v)
    (hz : ∀ c, z.head? = some c → isBlank c = false) (hpub : ¬ ("pub" : Text) <+: z)
    (hblank : ∀ m last c u, isBlank c = true → k ⟨m, last, c :: u, []⟩ = none)
    (hk : ∀ m last u, k ⟨m, last, 'p' :: u, []⟩ = none) :
    ∃ m last, run (indent ++ visibility) (Place.start (g ++ (v ++ z))) k
      = k ⟨m, last, z, []⟩ := by
  have hfront : ∀ c, (v ++ z).head? = some c → isBlank c = false := by
    intro c hc
    cases hv with
    | none => exact hz c hc
    | all _ _ =>
        cases hc
        rfl
    | scope _ _ _ _ =>
        cases hc
        rfl
  have hwhole : ∀ m last c u, isBlank c = true →
      run visibility ⟨m, last, c :: u, []⟩ k = none := by
    intro m last c u hc
    have hnot : ¬ ("pub" : Text) <+: c :: u := by
      rintro ⟨w, hw⟩
      rw [← (List.cons.inj hw).1] at hc
      cases hc
    unfold visibility
    rw [run_opt, run_append, run_append, run_ofText_of_not_lead hnot,
      Option.none_or, hblank m last c u hc]
  obtain ⟨m, last, hrun⟩ := run_visibility g.length (g.getLast?.or none) hv hz hpub
    hblank (hk _ _)
  refine ⟨m, last, ?_⟩
  unfold indent gap blank
  rw [run_append, run_append, run_atStart_start]
  show run (many (char isBlank)) ⟨0, none, g ++ (v ++ z), []⟩ _ = _
  rw [run_many_of_refuses hg.isSpace hfront hwhole, Nat.zero_add]
  exact hrun

/-- A word is not in front if its first letter is not. -/
theorem not_prefix_of_head {w : Text} {d : Char} (hw : w.head? = some d)
    (hc : c ≠ d) : ¬ w <+: c :: u := by
  obtain ⟨w, rfl⟩ := List.head?_eq_some_iff.1 hw
  rintro ⟨v, hv⟩
  exact hc (List.cons.inj hv).1.symm

/-- A keyword is not found where another character is first. -/
theorem run_keyword_of_ne {y : String} {d : Char} (hy : y.toList.head? = some d)
    (hd : isBlank d = false ∧ d ≠ 'p') (hg : IsGap g) (hv : IsVisibility v)
    (hc : isBlank c = false) (hcd : c ≠ d) (hcp : c ≠ 'p') :
    run (indent ++ visibility ++ spaced y) (Place.start (g ++ (v ++ c :: u))) k
      = none := by
  have hrefuses : ∀ m last e w, e ≠ d →
      run (spaced y) ⟨m, last, e :: w, []⟩ k = none :=
    fun m last e w he => run_ofText_of_not_lead (not_prefix_of_head hy he)
  obtain ⟨m, last, hrun⟩ := run_indent_visibility (z := c :: u)
    (k := fun e => run (spaced y) e k) hg hv (by rintro e ⟨⟩; exact hc)
    (not_prefix_of_head rfl hcp)
    (fun m last e w he => hrefuses m last e w fun h => by
      rw [h, hd.1] at he
      cases he)
    fun m last w => hrefuses m last 'p' w (Ne.symm hd.2)
  exact hrun.trans (hrefuses m last c u hcd)

theorem isAnchored_moduleDeclaration : moduleDeclaration.IsAnchored :=
  (((((isAnchored_atStart.append _).append _).append _).append _).append _).append _

/-- What another keyword declares is not found. -/
theorem find?_moduleDeclaration (hf : UseHeading f) (t : Text) :
    moduleDeclaration.find? (f ++ t) = none := by
  obtain @⟨g, v, g₁, hg, hv, hg₁, hne₁⟩ := hf
  rw [find?_of_anchored isAnchored_moduleDeclaration]
  refine Option.map_eq_none_iff.2 ?_
  simp only [List.append_assoc]
  exact run_keyword_of_ne (y := "mod") (u := "se".toList ++ (g₁ ++ t)) rfl (by decide)
    hg hv rfl (by decide) (by decide)

-- ======================================================== the end of a path

/-- What ends the path of a declaration. -/
def pathEnding : Pattern :=
  "::\x7b" ++ part 2 (many any) <|> gap ++ ";" <|> space ++ "as" ++ blank

/-- A character of a path. -/
def pathChar : Pattern := wordOr ":"

theorem isAnchored_usePath : usePath.IsAnchored :=
  ((((isAnchored_atStart.append _).append _).append _).append _).append _

/-- Behind a heading the path is looked for. -/
theorem endAt?_usePath (hf : UseHeading f)
    (ht : ∀ c, t.head? = some c → isBlank c = false) :
    ∃ m last, endAt? usePath (Place.start (f ++ t))
      = run (part 1 (pathChar ++ fewest pathChar) ++ pathEnding) ⟨m, last, t, []⟩
          some := by
  obtain @⟨g, v, g₁, hg, hv, hg₁, hne₁⟩ := hf
  have hpath : ∀ m last c u, isBlank c = true →
      run (part 1 (pathChar ++ fewest pathChar) ++ pathEnding) ⟨m, last, c :: u, []⟩
        some = none := by
    intro m last c u hc
    have hcolon : c ≠ ':' := by
      rintro rfl
      cases hc
    unfold pathChar wordOr
    rw [run_append, run_part, run_append]
    refine run_char_neg ?_
    rintro d ⟨⟩
    rw [isWord_eq_false_of_isBlank hc]
    simpa using hcolon
  have huse : ∀ m last c u, c ≠ 'u' → ∀ k : Place → Option Place,
      run ("use" : Pattern) ⟨m, last, c :: u, []⟩ k = none :=
    fun m last c u hc k => run_ofText_of_not_lead (not_prefix_of_head rfl hc)
  obtain ⟨m, last, hrun⟩ := run_indent_visibility (z := "use".toList ++ (g₁ ++ t))
    (k := fun e => run ("use" : Pattern) e fun e => run space e fun e =>
      run (part 1 (pathChar ++ fewest pathChar) ++ pathEnding) e some) hg hv
    (by rintro c ⟨⟩; rfl) (not_prefix_of_head (u := "se".toList ++ (g₁ ++ t)) rfl
      (by decide))
    (fun m last c u hc => huse m last c u (by rintro rfl; cases hc) _)
    (fun m last u => huse m last 'p' u (by decide) _)
  refine ⟨m + 3 + g₁.length, g₁.getLast?.or (some 'e'), ?_⟩
  rw [run_ofText] at hrun
  unfold space blank at hrun
  rw [run_many1_of_refuses hg₁.isSpace hne₁ ht hpath] at hrun
  simp only [List.append_assoc]
  exact hrun

/-- Nothing ends at a character that may not. -/
theorem run_pathEnding_of_ne (hc : isBlank c = false) (hsemicolon : c ≠ ';')
    (hbrace : ¬ ("::\x7b" : Text) <+: c :: u) :
    run pathEnding ⟨n, last, c :: u, parts⟩ k = none := by
  have hstop : ∀ d, (c :: u).head? = some d → isBlank d = false := by
    rintro d ⟨⟩
    exact hc
  unfold pathEnding
  rw [run_orElse, run_orElse, run_append, run_ofText_of_not_lead hbrace,
    Option.none_or, run_append, run_append, run_append]
  unfold gap space blank
  rw [run_many_stop hstop, run_many1_neg hstop, Option.or_none]
  exact run_ofText_of_not_lead (not_prefix_of_head rfl hsemicolon)

/-- The end of the declaration ends its path. -/
theorem run_pathEnding_end (hg : IsGap g) :
    run pathEnding ⟨n, last, g ++ ";".toList, parts⟩ some
      = some ⟨n + g.length + 1, some ';', [], parts⟩ := by
  have hbrace : ¬ ("::\x7b" : Text) <+: g ++ ";".toList := by
    intro hlead
    have hmem : ':' ∈ g ++ ";".toList := hlead.subset (by decide)
    rcases List.mem_append.1 hmem with h | h
    · exact hg.isSpace.notMem (by decide) h
    · exact absurd h (by decide)
  have hsemicolon : run (many (char isBlank)) ⟨n, last, g ++ ";".toList, parts⟩
      (fun e => run (";" : Pattern) e some)
      = some ⟨n + g.length + 1, some ';', [], parts⟩ :=
    run_many_of_some hg.isSpace (by rintro c ⟨⟩; rfl) rfl
  unfold pathEnding
  rw [run_orElse, run_orElse, run_append, run_ofText_of_not_lead hbrace,
    Option.none_or, run_append]
  unfold gap blank
  rw [hsemicolon, Option.some_or]

/-- So does a further name. -/
theorem run_pathEnding_renamed (t : Text) :
    run pathEnding ⟨n, last, " as ".toList ++ t, parts⟩ some
      = some ⟨n + 4, some ' ', t, parts⟩ := by
  have hblank : ∀ c ∈ [' '], isBlank c = true := by
    rw [List.forall_mem_singleton]
    rfl
  have hsemicolon : run (many (char isBlank))
      ⟨n, last, [' '] ++ ("as".toList ++ ' ' :: t), parts⟩
      (fun e => run (";" : Pattern) e some) = none := by
    rw [run_many_of_refuses hblank (by rintro c ⟨⟩; rfl)]
    · exact run_ofText_of_not_lead (not_prefix_of_head rfl (by decide))
    · intro m l c u hc
      exact run_ofText_of_not_lead
        (not_prefix_of_head rfl (by rintro rfl; cases hc))
  have hrenamed : run (many1 (char isBlank))
      ⟨n, last, [' '] ++ ("as".toList ++ ' ' :: t), parts⟩
      (fun e => run ("as" : Pattern) e fun e => run (char isBlank) e some)
      = some ⟨n + 4, some ' ', t, parts⟩ := by
    refine run_many1_of_some hblank (by simp) (by rintro c ⟨⟩; rfl) ?_
    rw [run_ofText, run_char_pos rfl]
    rfl
  have hbrace : ¬ ("::\x7b" : Text) <+: " as ".toList ++ t :=
    not_prefix_of_head (u := "as ".toList ++ t) rfl (by decide)
  unfold pathEnding
  rw [run_orElse, run_orElse, run_append, run_ofText_of_not_lead hbrace,
    Option.none_or, run_append]
  unfold gap space blank
  exact (congrArg (Option.or · _) hsemicolon).trans hrenamed

/-- A brace ends a path too, and the rest of the line is kept. -/
theorem run_pathEnding_group (hl : '\n' ∉ l) :
    run pathEnding ⟨n, last, "::\x7b".toList ++ l, parts⟩ some
      = some ⟨n + 3 + l.length, l.getLast?.or (some '\x7b'), [],
          (2, l) :: parts⟩ := by
  have hany : ∀ c ∈ l, (c != '\n') = true := fun c hc =>
    bne_iff_ne.2 fun heq => hl (heq ▸ hc)
  have hgroup : run ("::\x7b" ++ part 2 (many any) : Pattern)
      ⟨n, last, "::\x7b".toList ++ l, parts⟩ some
      = some ⟨n + 3 + l.length, l.getLast?.or (some '\x7b'), [],
          (2, l) :: parts⟩ := by
    rw [run_append, run_ofText, run_part, ← List.append_nil l]
    refine run_many_of_some hany (by simp) ?_
    rw [between_append, List.append_nil]
    rfl
  unfold pathEnding
  rw [run_orElse, hgroup, Option.some_or]

variable {path : List Identifier}

/-- A path does not begin with a blank. -/
theorem isBlank_head_pathText (hne : path ≠ []) (r : Text) :
    ∀ d, (pathText path ++ r).head? = some d → isBlank d = false := by
  intro d hd
  obtain ⟨c, t, ht, hc⟩ := exists_pathText_eq_cons hne
  rw [ht] at hd
  cases hd
  exact isBlank_eq_false_of_isWord hc

/-- A path is taken up to the first place that it may end at. -/
theorem find?_usePath (hf : UseHeading f) (hne : path ≠ [])
    (hgoes : ∀ h c u, pathText path = h ++ c :: u →
      ¬ ("::\x7b" : Text) <+: c :: u ++ r)
    (hends : ∀ m last, ∃ e, run pathEnding ⟨m, last, r, [(1, pathText path)]⟩ some
      = some e ∧ e.parts = parts) :
    ∃ found, usePath.find? (f ++ (pathText path ++ r)) = some found
      ∧ found.parts = parts := by
  obtain ⟨c, t, ht, hc⟩ := exists_pathText_eq_cons hne
  obtain ⟨m, last, hrun⟩ := endAt?_usePath hf (isBlank_head_pathText hne r)
  have hchar : ∀ d ∈ pathText path,
      (isWord d || ":".toList.contains d) = true := by
    intro d hd
    rcases isWord_or_colon hd with h | rfl
    · rw [h]
      rfl
    · decide
  have hrest : ∀ d ∈ t, (isWord d || ":".toList.contains d) = true := fun d hd =>
    hchar d (by rw [ht]; exact List.mem_cons_of_mem c hd)
  have hwhole : (⟨m, last, pathText path ++ r, []⟩ : Place).between
      ⟨m + 1 + t.length, t.getLast?.or (some c), r, []⟩ = pathText path := by
    have hlength : m + 1 + t.length = m + (pathText path).length := by
      rw [ht, List.length_cons]
      omega
    rw [hlength]
    exact between_append (pathText path)
  obtain ⟨e, he, hparts⟩ := hends (m + 1 + t.length) (t.getLast?.or (some c))
  have hend : endAt? usePath (Place.start (f ++ (pathText path ++ r))) = some e := by
    rw [hrun]
    unfold pathChar wordOr
    rw [run_append, run_part, run_append]
    have hafter : ∀ (m : Nat) l h d u, t = h ++ d :: u → ∀ w : Text,
        run pathEnding ⟨m, l, d :: u ++ r, [(1, w)]⟩ some = none := by
      intro m l h d u hu w
      have hd : d ∈ pathText path := by
        rw [ht, hu]
        simp
      refine run_pathEnding_of_ne ((isSolid_pathText hne).2 d hd).1 ?_
        (hgoes (c :: h) d u (by rw [ht, hu, List.cons_append]))
      rintro rfl
      exact notMem_pathText (by decide) (by decide) hd
    rw [ht] at hwhole he ⊢
    rw [List.cons_append, run_char_pos (hchar c (by rw [ht]; simp)),
      run_fewest_of_refuses hrest fun m l h d u hu => hafter m l h d u hu _]
    refine run_fewest_of_some ?_
    rw [List.cons_append] at hwhole
    rw [hwhole]
    exact he
  refine ⟨⟨0, e.passed, e.parts⟩, ?_, hparts⟩
  rw [find?_of_anchored isAnchored_usePath, hend]
  rfl

/-- A path with a star behind is not found. -/
theorem find?_usePath_all (hf : UseHeading f) (hne : path ≠ []) (hr : '\x7b' ∉ r) :
    usePath.find? (f ++ (pathText path ++ ("::*" ++ r))) = none := by
  obtain ⟨c, t, ht, hc⟩ := exists_pathText_eq_cons hne
  obtain ⟨m, last, hrun⟩ := endAt?_usePath hf (isBlank_head_pathText hne ("::*" ++ r))
  have hchar : ∀ d ∈ pathText path ++ [':', ':'],
      (isWord d || ":".toList.contains d) = true ∧ isBlank d = false ∧ d ≠ ';'
        ∧ d ≠ '\x7b' := by
    intro d hd
    have hword : isWord d = true ∨ d = ':' := by
      rcases List.mem_append.1 hd with hd | hd
      · exact isWord_or_colon hd
      · exact Or.inr (by simpa using hd)
    rcases hword with h | rfl
    · refine ⟨by rw [h]; rfl, isBlank_eq_false_of_isWord h, ?_, ?_⟩ <;>
        · rintro rfl
          cases h
    · decide
  have hsplit : pathText path ++ ("::*".toList ++ r)
      = c :: ((t ++ [':', ':']) ++ '*' :: r) := by
    rw [ht, List.cons_append, List.append_assoc]
    rfl
  have hmem : ∀ d ∈ t ++ [':', ':'], d ∈ pathText path ++ [':', ':'] := by
    intro d hd
    rw [ht, List.cons_append]
    exact List.mem_cons_of_mem c hd
  rw [find?_of_anchored isAnchored_usePath, hrun, hsplit]
  refine Option.map_eq_none_iff.2 ?_
  unfold pathChar wordOr
  rw [run_append, run_part, run_append,
    run_char_pos (hchar c (by rw [ht]; simp)).1,
    run_fewest_of_refuses fun d hd => (hchar d (hmem d hd)).1]
  · rw [run_fewest_stop (by rintro d ⟨⟩; decide)]
    exact run_pathEnding_of_ne (by decide) (by decide)
      (not_prefix_of_head rfl (by decide))
  · intro m l h d u hu
    obtain ⟨-, hblank, hsemicolon, -⟩ := hchar d (hmem d (by rw [hu]; simp))
    refine run_pathEnding_of_ne hblank hsemicolon fun hbrace => ?_
    have hin : '\x7b' ∈ d :: u ++ '*' :: r := hbrace.subset (by decide)
    rcases List.mem_append.1 hin with hin | hin
    · exact (hchar _ (hmem _ (by rw [hu]; exact List.mem_append_right _ hin))).2.2.2 rfl
    · rcases List.mem_cons.1 hin with hin | hin
      · cases hin
      · exact hr hin

-- ===================================================================== the line

/-- A declaration of one name reports its path. -/
theorem rustLine_name (hf : UseHeading f) (hne : path ≠ []) {alias? : Option Text}
    (halias : ∀ a ∈ alias?, IsIdentifier a) (hg : IsGap g) :
    rustLine none (f ++ (renamed (pathText path) alias? ++ (g ++ ";")))
      = ([pathText path], none) := by
  obtain ⟨r, hr, hbrace, hends⟩ : ∃ r,
      renamed (pathText path) alias? ++ (g ++ ";".toList) = pathText path ++ r
        ∧ '\x7b' ∉ r ∧ ∀ m last, ∃ e,
          run pathEnding ⟨m, last, r, [(1, pathText path)]⟩ some = some e
            ∧ e.parts = [(1, pathText path)] := by
    have hgap : '\x7b' ∉ g ++ ";".toList :=
      List.not_mem_append (hg.isSpace.notMem (by decide)) (by decide)
    cases alias? with
    | none => exact ⟨_, rfl, hgap, fun m last => ⟨_, run_pathEnding_end hg, rfl⟩⟩
    | some a =>
        have halone : '\x7b' ∉ a := (halias a rfl).notMem (by decide)
        have has : '\x7b' ∉ " as ".toList := by decide
        refine ⟨" as ".toList ++ (a ++ (g ++ ";".toList)), ?_, ?_,
          fun m last => ⟨_, run_pathEnding_renamed _, rfl⟩⟩
        · unfold renamed
          simp only [List.append_assoc]
        · rw [List.mem_append, List.mem_append, not_or, not_or]
          exact ⟨has, halone, hgap⟩
  have hgoes : ∀ h c u, pathText path = h ++ c :: u →
      ¬ ("::\x7b" : Text) <+: c :: u ++ r := by
    intro h c u hu hlead
    rcases List.mem_append.1 (hlead.subset (by decide : '\x7b' ∈ _)) with hin | hin
    · exact notMem_pathText (by decide) (by decide)
        (hu ▸ List.mem_append_right h hin : '\x7b' ∈ pathText path)
    · exact hbrace hin
  obtain ⟨found, hfound, hparts⟩ := find?_usePath hf hne hgoes hends
  unfold rustLine
  dsimp only
  rw [hr, capture?, find?_moduleDeclaration hf, hfound]
  dsimp only [Option.bind_none]
  unfold Match.part?
  rw [hparts]
  rfl

/-- A declaration of all names of a module reports nothing. -/
theorem rustLine_all (hf : UseHeading f) (hne : path ≠ []) (hr : '\x7b' ∉ r) :
    rustLine none (f ++ (pathText path ++ ("::*" ++ r))) = ([], none) := by
  unfold rustLine
  dsimp only
  rw [capture?, find?_moduleDeclaration hf, find?_usePath_all hf hne hr]
  rfl

/-- A declaration of a group reports the path of the group, and the rest of the
line is read as if the group was open before. -/
theorem rustLine_group (hf : UseHeading f) (hne : path ≠ []) (hl : '\n' ∉ l) :
    rustLine none (f ++ (pathText path ++ ("::\x7b" ++ l)))
      = ([pathText path] ++ (rustLine (some (pathText path)) l).1,
          (rustLine (some (pathText path)) l).2) := by
  have hgoes : ∀ h c u, pathText path = h ++ c :: u →
      ¬ ("::\x7b" : Text) <+: c :: u ++ ("::\x7b".toList ++ l) := by
    rintro h c u hu ⟨w, hw⟩
    obtain ⟨t, d, ht, hd⟩ := exists_pathText_eq_concat hne
    have hlast : (c :: u).getLast? = some d := by
      have hboth := congrArg List.getLast? (hu.symm.trans ht)
      rwa [List.getLast?_concat, List.getLast?_append_of_ne_nil _ (by simp)] at hboth
    have hcolon : d ≠ ':' := by
      rintro rfl
      cases hd
    have hbrace : '\x7b' ∉ c :: u := fun hmem =>
      notMem_pathText (by decide) (by decide)
        (hu ▸ List.mem_append_right h hmem : '\x7b' ∈ pathText path)
    -- the last character of the path would be one of the colons
    replace hw : ':' :: ':' :: '\x7b' :: w
        = c :: (u ++ ':' :: ':' :: '\x7b' :: l) := hw
    obtain ⟨hfirst, hrest⟩ := List.cons.inj hw
    cases u with
    | nil => exact hcolon (hfirst ▸ (Option.some.inj hlast).symm)
    | cons e u =>
        obtain ⟨hsecond, hrest⟩ := List.cons.inj hrest
        cases u with
        | nil => exact hcolon (hsecond ▸ (Option.some.inj hlast).symm)
        | cons e' u =>
            obtain ⟨hthird, -⟩ := List.cons.inj hrest
            exact hbrace (by simp [← hthird])
  obtain ⟨found, hfound, hparts⟩ := find?_usePath hf hne hgoes
    fun m last => ⟨_, run_pathEnding_group hl, rfl⟩
  unfold rustLine
  dsimp only
  rw [capture?, find?_moduleDeclaration hf, hfound]
  dsimp only [Option.bind_none]
  unfold Match.part?
  rw [hparts]
  rfl

/-- A line of neither keyword reports nothing. -/
theorem rustLine_slash (l : Text) : rustLine none ('/' :: l) = ([], none) := by
  have hkeyword : ∀ (y : String) (d : Char), y.toList.head? = some d →
      isBlank d = false ∧ d ≠ 'p' → '/' ≠ d → ∀ k : Place → Option Place,
      run (indent ++ visibility ++ spaced y) (Place.start ('/' :: l)) k = none :=
    fun y d hy hd hslash k => run_keyword_of_ne (g := []) (v := []) hy hd (by decide)
      .none rfl hslash (by decide)
  have hmod : moduleDeclaration.find? ('/' :: l) = none := by
    rw [find?_of_anchored isAnchored_moduleDeclaration]
    refine Option.map_eq_none_iff.2 ?_
    unfold endAt? moduleDeclaration
    rw [run_append, run_append, run_append]
    exact hkeyword "mod" 'm' rfl (by decide) (by decide) _
  have huse : usePath.find? ('/' :: l) = none := by
    rw [find?_of_anchored isAnchored_usePath]
    refine Option.map_eq_none_iff.2 ?_
    unfold endAt? usePath
    rw [run_append, run_append]
    exact hkeyword "use" 'u' rfl (by decide) (by decide) _
  unfold rustLine
  dsimp only
  rw [capture?, hmod, huse]
  rfl

end Imports

end SourceDigest
