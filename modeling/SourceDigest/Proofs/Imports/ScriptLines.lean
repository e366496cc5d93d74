/-
What a line of a script is found to be.

Every source is taken from between two quotation marks, and what a pattern
takes in front of it holds none. So the source is what is quoted first
(`quoted`, `part_of_run_quoted`), and on a line without quotation marks there is
none. What else a line must hold to be found is read off the patterns: a keyword
at its start that is a word of its own (`StartsStatement`), or a brace or a
parenthesis in front of its quotation marks (`HasQuotesBehind`). The last
section puts these together for a line inside a block and for one outside.
-/
import Mathlib
import SourceDigest.Proofs.Imports.NameLists
import SourceDigest.Proofs.Pattern.Runs
import SourceDigest.Proofs.Pattern.Stretches

namespace SourceDigest

namespace Imports

open Pattern DeclarationRules
open Text (isBlank isWord)

variable {α : Type} {a : α} {p : Pattern} {k : Place → Option α} {s e : Place}
  {m n : Nat} {last : Option Char} {parts : List (Nat × Text)} {c q q' : Char}
  {g l r source t u w x y : Text}

-- ============================================================ quotation marks

/-- A quotation mark of a source. -/
def isQuote (c : Char) : Bool := "'\"".toList.contains c

/-- A text without quotation marks. -/
def IsQuiet (t : Text) : Prop := ∀ c ∈ t, isQuote c = false

instance (t : Text) : Decidable (IsQuiet t) :=
  decidable_of_iff (t.all (!isQuote ·) = true) (by simp [IsQuiet])

/-- What stands between the first two quotation marks. -/
def quoted (t : Text) : Text :=
  ((t.dropWhile (!isQuote ·)).drop 1).takeWhile (!isQuote ·)

/-- How many quotation marks there are. -/
def quotes (t : Text) : Nat := t.countP isQuote

theorem IsQuiet.append (hx : IsQuiet x) (hy : IsQuiet y) : IsQuiet (x ++ y) := by
  intro c hc
  rcases List.mem_append.1 hc with hc | hc
  · exact hx c hc
  · exact hy c hc

theorem IsQuiet.quotes_eq_zero (h : IsQuiet t) : quotes t = 0 :=
  List.countP_eq_zero.2 fun c hc => by simp [h c hc]

theorem quotes_append (x y : Text) : quotes (x ++ y) = quotes x + quotes y :=
  List.countP_append

/-- A quote counts as one. -/
theorem quotes_cons_of_isQuote (hq : isQuote q = true) (t : Text) :
    quotes (q :: t) = quotes t + 1 :=
  List.countP_cons_of_pos hq

/-- No blank is a quotation mark. -/
theorem isQuote_eq_false_of_isBlank (hc : isBlank c = true) :
    isQuote c = false := by
  have hall : "'\"".toList.all (!isBlank ·) = true := by decide +kernel
  by_contra hquote
  rw [Bool.not_eq_false] at hquote
  have hblank := List.all_eq_true.1 hall c (List.contains_iff_mem.1 hquote)
  rw [hc] at hblank
  cases hblank

theorem isWord_eq_false_of_isQuote (hq : isQuote q = true) : isWord q = false := by
  have hall : "'\"".toList.all (!isWord ·) = true := by decide +kernel
  have hword := List.all_eq_true.1 hall q (List.contains_iff_mem.1 hq)
  rwa [Bool.not_eq_true'] at hword

theorem IsSpace.isQuiet (h : IsSpace g) : IsQuiet g :=
  fun c hc => isQuote_eq_false_of_isBlank (h c hc)

/-- Quiet text is passed over up to the first quote. -/
theorem takeWhile_quiet (hx : IsQuiet x) (t : Text) :
    (x ++ t).takeWhile (!isQuote ·) = x ++ t.takeWhile (!isQuote ·) :=
  List.takeWhile_append_of_pos fun c hc => by simp [hx c hc]

/-- Between the first two quotes stands the source. -/
theorem quoted_eq (hx : IsQuiet x) (hq : isQuote q = true)
    (hsource : IsQuiet source) (hq' : isQuote q' = true) (t : Text) :
    quoted (x ++ q :: (source ++ q' :: t)) = source := by
  unfold quoted
  rw [List.dropWhile_append_of_pos fun c hc => by simp [hx c hc],
    List.dropWhile_cons_of_neg (by simp [hq]), List.drop_one, List.tail_cons,
    takeWhile_quiet hsource, List.takeWhile_cons_of_neg (by simp [hq']),
    List.append_nil]

-- ==================================================================== sources

/-- What is found as a source stands between two quotation marks. -/
theorem exists_of_run_quotedPart
    (h : run quotedPart ⟨n, last, t, parts⟩ k = some a) :
    ∃ q source q' u m, t = q :: (source ++ q' :: u) ∧ isQuote q = true
      ∧ IsQuiet source ∧ isQuote q' = true
      ∧ k ⟨m, some q', u, (1, source) :: parts⟩ = some a := by
  unfold quotedPart oneOf noneOf at h
  simp only [run_append, run_part] at h
  obtain ⟨q, u, rfl, hq, h⟩ := exists_of_run_char h
  obtain ⟨source, r, rfl, -, hsource, h⟩ := exists_of_run_many1 h
  obtain ⟨q', u, rfl, hq', h⟩ := exists_of_run_char h
  rw [between_append] at h
  exact ⟨q, source, q', u, _, rfl, hq, fun c hc => by simpa [isQuote] using hsource c hc,
    hq', h⟩

/-- A source is found where one stands. -/
theorem isSome_run_quotedPart (hq : isQuote q = true) (hne : source ≠ [])
    (hsource : IsQuiet source) (hq' : isQuote q' = true)
    (hk : ∀ m, (k ⟨m, some q', u, (1, source) :: parts⟩).isSome) :
    (run quotedPart ⟨n, last, q :: (source ++ q' :: u), parts⟩ k).isSome := by
  unfold quotedPart oneOf noneOf
  simp only [run_append, run_part]
  rw [run_char_pos (by exact hq)]
  refine isSome_run_many1 (fun c hc => ?_) hne ?_
  · have hnot := hsource c hc
    unfold isQuote at hnot
    rw [hnot]
    rfl
  · rw [run_char_pos (by exact hq'), between_append]
    exact hk _

/-- A pattern with a source at its end takes the first two quotation marks, if
what is in front takes none. -/
theorem part_of_run_quoted (hp : p.TakesOnly (isQuote · = false))
    (h : endAt? (p ++ quotedPart) s = some e) :
    2 ≤ quotes s.rest
      ∧ e.parts.find? (fun kept => kept.1 == 1) = some (1, quoted s.rest) := by
  obtain ⟨⟨n, last, t, parts⟩, ⟨x, hx, -, -, hquiet⟩, h⟩ := answers_run hp _ _ _ h
  obtain ⟨q, source, q', u, m, rfl, hq, hsource, hq', h⟩ :=
    exists_of_run_quotedPart h
  obtain rfl := Option.some.inj h
  rw [hx, quoted_eq hquiet hq hsource hq']
  refine ⟨?_, rfl⟩
  rw [quotes_append, quotes_cons_of_isQuote hq, quotes_append,
    quotes_cons_of_isQuote hq']
  omega

/-- So it is told what such a pattern keeps when it is held to the start. -/
theorem capture?_quoted (hp : p.TakesOnly (isQuote · = false))
    (hanchored : (p ++ quotedPart).IsAnchored)
    (h : (p ++ quotedPart).isIn l = true) :
    (p ++ quotedPart).capture? 1 l = some (quoted l) ∧ 2 ≤ quotes l := by
  rw [isIn_of_anchored hanchored] at h
  obtain ⟨e, he⟩ := Option.isSome_iff_exists.1 h
  obtain ⟨hquotes, hpart⟩ := part_of_run_quoted hp he
  refine ⟨?_, hquotes⟩
  unfold capture?
  rw [find?_of_anchored hanchored, he]
  show (e.parts.find? fun kept => kept.1 == 1).map Prod.snd = _
  rw [hpart]
  rfl

/-- A pattern that is not in a line captures nothing there. -/
theorem capture?_of_not_isIn (h : p.isIn l = false) (i : Nat) :
    p.capture? i l = none := by
  unfold isIn at h
  unfold capture?
  rw [Option.isSome_eq_false_iff, Option.isNone_iff_eq_none] at h
  rw [h]
  rfl

-- =================================================================== keywords

/-- A keyword that a statement starts with. -/
def IsKeyword (w : Text) : Prop := w = "import".toList ∨ w = "export".toList

/-- A line starts with a keyword, and this stands behind it. -/
def Starts (l u : Text) : Prop :=
  ∃ g w, IsSpace g ∧ IsKeyword w ∧ l = g ++ (w ++ u)

/-- A line starts with a keyword, and the word ends there. -/
def StartsStatement (l : Text) : Prop :=
  ∃ u, Starts l u ∧ u.head?.any isWord = false

/-- No keyword begins with a blank. -/
theorem IsKeyword.exists_eq_cons (hw : IsKeyword w) :
    ∃ c u, w = c :: u ∧ isBlank c = false := by
  rcases hw with rfl | rfl
  · exact ⟨'i', "mport".toList, rfl, rfl⟩
  · exact ⟨'e', "xport".toList, rfl, rfl⟩

/-- Both keywords have six letters. -/
theorem IsKeyword.length_eq (hw : IsKeyword w) : w.length = 6 := by
  rcases hw with rfl | rfl <;> rfl

/-- And both end in the same one. -/
theorem IsKeyword.getLast?_or (hw : IsKeyword w) (last : Option Char) :
    w.getLast?.or last = some 't' := by
  rcases hw with rfl | rfl <;> rfl

theorem IsKeyword.isQuiet (hw : IsKeyword w) : IsQuiet w := by
  rcases hw with rfl | rfl <;> decide

/-- Blanks in front of a keyword are passed over up to it. -/
theorem dropWhile_keyword (hg : IsSpace g) (hw : IsKeyword w) (u : Text) :
    (g ++ (w ++ u)).dropWhile isBlank = w ++ u := by
  obtain ⟨c, v, rfl, hc⟩ := hw.exists_eq_cons
  rw [List.dropWhile_append_of_pos hg, List.cons_append,
    List.dropWhile_cons_of_neg (by simp [hc])]

/-- Behind the blanks of a line there is one keyword at most. -/
theorem Starts.unique (h : Starts l u) (h' : Starts l t) : u = t := by
  obtain ⟨g, w, hg, hw, rfl⟩ := h
  obtain ⟨g', w', hg', hw', heq⟩ := h'
  have hboth := congrArg (List.dropWhile isBlank) heq
  rw [dropWhile_keyword hg hw, dropWhile_keyword hg' hw'] at hboth
  exact (List.append_inj hboth (by rw [hw.length_eq, hw'.length_eq])).2

/-- A line starts a statement if it has a keyword in front, behind blanks, and
no word goes on behind it. -/
theorem startsStatement_iff (l : Text) :
    StartsStatement l ↔ IsKeyword ((l.dropWhile isBlank).take 6)
      ∧ ((l.dropWhile isBlank).drop 6).head?.any isWord = false := by
  constructor
  · rintro ⟨u, ⟨g, w, hg, hw, rfl⟩, hu⟩
    rw [dropWhile_keyword hg hw, List.take_left' hw.length_eq,
      List.drop_left' hw.length_eq]
    exact ⟨hw, hu⟩
  · rintro ⟨hw, hu⟩
    refine ⟨_, ⟨l.takeWhile isBlank, _, fun c hc => List.mem_takeWhile_imp hc, hw, ?_⟩,
      hu⟩
    rw [List.take_append_drop, List.takeWhile_append_dropWhile]

instance (w : Text) : Decidable (IsKeyword w) :=
  inferInstanceAs (Decidable (_ ∨ _))

instance (l : Text) : Decidable (StartsStatement l) :=
  decidable_of_iff _ (startsStatement_iff l).symm

/-- Where a pattern begins with a keyword, the line does. -/
theorem exists_of_run_keyword
    (h : run indent (Place.start l)
      (fun e => run (words ["import", "export"]) e k) = some a) :
    ∃ u m, Starts l u ∧ k ⟨m, some 't', u, []⟩ = some a := by
  unfold indent gap blank at h
  simp only [run_append, run_atStart_start] at h
  obtain ⟨g, r, rfl, hg, h⟩ := exists_of_run_many h
  have hwords : run (words ["import", "export"])
      ⟨g.length, g.getLast?.or none, r, []⟩ k
      = (run (ofText "import".toList) ⟨g.length, g.getLast?.or none, r, []⟩ k).or
          (run (ofText "export".toList) ⟨g.length, g.getLast?.or none, r, []⟩ k) :=
    run_orElse _ _ _ _
  rw [Nat.zero_add, hwords, Option.or_eq_some_iff] at h
  obtain ⟨w, hw, hword⟩ : ∃ w, IsKeyword w
      ∧ run (ofText w) ⟨g.length, g.getLast?.or none, r, []⟩ k = some a := by
    rcases h with h | ⟨-, h⟩
    · exact ⟨_, Or.inl rfl, h⟩
    · exact ⟨_, Or.inr rfl, h⟩
  obtain ⟨u, rfl, hk⟩ := exists_of_run_ofText hword
  rw [hw.getLast?_or] at hk
  exact ⟨u, _, ⟨g, w, hg, hw, rfl⟩, hk⟩

/-- And it is found on a line that does. -/
theorem isSome_run_keyword (hg : IsSpace g) (hw : IsKeyword w)
    (hk : ∀ m, (k ⟨m, some 't', u, []⟩).isSome) :
    (run indent (Place.start (g ++ (w ++ u)))
      (fun e => run (words ["import", "export"]) e k)).isSome := by
  unfold indent gap blank
  simp only [run_append, run_atStart_start]
  refine isSome_run_many hg ?_
  show (run (words ["import", "export"]) _ k).isSome
  have hwords : ∀ s : Place, run (words ["import", "export"]) s k
      = (run (ofText "import".toList) s k).or (run (ofText "export".toList) s k) :=
    fun s => run_orElse _ _ _ _
  rw [hwords, Option.isSome_or, Bool.or_eq_true]
  have hone : ∀ n last, (run (ofText w) ⟨n, last, w ++ u, []⟩ k).isSome := by
    intro n last
    rw [run_ofText, hw.getLast?_or]
    exact hk _
  rcases hw with rfl | rfl
  · exact Or.inl (hone _ _)
  · exact Or.inr (hone _ _)

-- ======================================================== imports with a source

theorem isAnchored_scriptFrom : scriptFrom.IsAnchored :=
  (((((((isAnchored_atStart.append _).append _).append _).append _).append _).append
    _).append _).append _

theorem isAnchored_scriptBare : scriptBare.IsAnchored :=
  (((isAnchored_atStart.append _).append _).append _).append _

theorem takesOnly_indent : indent.TakesOnly (isQuote · = false) :=
  ⟨trivial, fun _ => isQuote_eq_false_of_isBlank⟩

/-- What a quiet text takes is quiet. -/
theorem takesOnly_quiet (hw : IsQuiet w) : (ofText w).TakesOnly (isQuote · = false) :=
  takesOnly_ofText hw

/-- The source of an import is what is quoted first on its line. -/
theorem capture?_scriptFrom (h : scriptFrom.isIn l = true) :
    scriptFrom.capture? 1 l = some (quoted l) ∧ 2 ≤ quotes l := by
  refine capture?_quoted ?_ isAnchored_scriptFrom h
  have hnone : (noneOf "'\"").TakesOnly (isQuote · = false) := by
    intro c hc
    simpa [isQuote] using hc
  exact ⟨⟨⟨⟨⟨⟨takesOnly_indent, takesOnly_quiet (by decide), takesOnly_quiet (by decide)⟩,
    trivial⟩, hnone⟩, trivial⟩, takesOnly_quiet (by decide)⟩,
    fun _ => isQuote_eq_false_of_isBlank⟩

/-- A line that imports without names captures its source, and has two
quotes. -/
theorem capture?_scriptBare (h : scriptBare.isIn l = true) :
    scriptBare.capture? 1 l = some (quoted l) ∧ 2 ≤ quotes l := by
  refine capture?_quoted ?_ isAnchored_scriptBare h
  exact ⟨⟨takesOnly_indent, takesOnly_quiet (by decide)⟩,
    fun _ => isQuote_eq_false_of_isBlank⟩

/-- An import with `from` starts a statement, and has an `f` in front of its
quotation marks. -/
theorem starts_of_scriptFrom (h : scriptFrom.isIn l = true) :
    ∃ u, Starts l u ∧ u.head?.any isWord = false
      ∧ 'f' ∈ u.takeWhile (!isQuote ·) := by
  rw [isIn_of_anchored isAnchored_scriptFrom] at h
  obtain ⟨e, he⟩ := Option.isSome_iff_exists.1 h
  unfold endAt? scriptFrom at he
  simp only [run_append] at he
  obtain ⟨u, m, hu, hedge⟩ := exists_of_run_keyword he
  obtain ⟨hend, hmore⟩ := exists_of_run_wordEdge hedge
  have hnone : (fewest (noneOf "'\"")).TakesOnly (isQuote · = false) := by
    intro c hc
    simpa [isQuote] using hc
  obtain ⟨⟨n, last, t, parts⟩, ⟨x, hx, -, -, hquiet⟩, hedge⟩ :=
    answers_run hnone _ _ _ hmore
  obtain ⟨-, hfrom⟩ := exists_of_run_wordEdge hedge
  obtain ⟨t, rfl, -⟩ := exists_of_run_ofText hfrom
  refine ⟨u, hu, ?_, ?_⟩
  · have hword : isWord 't' = true := by decide
    have hne : (isWord 't' != u.head?.any isWord) = true := hend
    rw [hword] at hne
    simpa using hne
  · have hu : u = x ++ 'f' :: ("rom".toList ++ t) := hx
    rw [hu, takeWhile_quiet hquiet, List.takeWhile_cons_of_pos (by decide)]
    simp

/-- An import of a source alone starts a statement. -/
theorem startsStatement_of_scriptBare (h : scriptBare.isIn l = true) :
    StartsStatement l := by
  rw [isIn_of_anchored isAnchored_scriptBare] at h
  obtain ⟨e, he⟩ := Option.isSome_iff_exists.1 h
  unfold endAt? scriptBare indent gap blank at he
  simp only [run_append, run_atStart_start] at he
  obtain ⟨g, r, rfl, hg, hword⟩ := exists_of_run_many he
  obtain ⟨u, rfl, hgap⟩ := exists_of_run_ofText hword
  refine ⟨u, ⟨g, _, hg, Or.inl rfl, rfl⟩, ?_⟩
  obtain ⟨g', t, rfl, hg', hsource⟩ := exists_of_run_many hgap
  obtain ⟨q, source, q', v, m, rfl, hq, -⟩ := exists_of_run_quotedPart hsource
  cases g' with
  | nil => exact isWord_eq_false_of_isQuote hq
  | cons c g' => exact isWord_eq_false_of_isBlank (hg' c (List.mem_cons_self ..))

/-- An import with `from` is found. -/
theorem isIn_scriptFrom (hg : IsSpace g) (hw : IsKeyword w) (hx : IsQuiet x)
    (hne : x ≠ []) (hhead : x.head?.any isWord = false)
    (hlast : x.getLast?.any isWord = false) (hy : IsSpace y) (hq : isQuote q = true)
    (hsource : IsQuiet source) (hsome : source ≠ []) :
    scriptFrom.isIn
      (g ++ (w ++ (x ++ ("from" ++ (y ++ q :: (source ++ q :: t)))))) = true := by
  rw [isIn_of_anchored isAnchored_scriptFrom]
  unfold endAt? scriptFrom
  simp only [run_append]
  refine isSome_run_keyword hg hw fun m => ?_
  rw [run_wordEdge]
  · refine isSome_run_fewest (g := x) (fun c hc => ?_) ?_
    · have hnot := hx c hc
      unfold isQuote at hnot
      rw [hnot]
      rfl
    · rw [run_wordEdge, run_ofText]
      · exact isSome_run_many hy (isSome_run_quotedPart hq hsome hsource hq fun m => rfl)
      · unfold Place.isWordEdge
        obtain ⟨u, c, rfl⟩ := (List.eq_nil_or_concat' x).resolve_left hne
        rw [List.getLast?_concat] at hlast ⊢
        have hc : isWord c = false := hlast
        show (isWord c != isWord 'f') = true
        rw [hc]
        decide
  · unfold Place.isWordEdge
    obtain ⟨c, u, rfl⟩ := List.exists_cons_of_ne_nil hne
    have hc : isWord c = false := hhead
    show (isWord 't' != isWord c) = true
    rw [hc]
    decide

/-- An import of a source alone is found. -/
theorem isIn_scriptBare (hg : IsSpace g) (hy : IsSpace y) (hq : isQuote q = true)
    (hsource : IsQuiet source) (hsome : source ≠ []) :
    scriptBare.isIn (g ++ ("import" ++ (y ++ q :: (source ++ q :: t)))) = true := by
  rw [isIn_of_anchored isAnchored_scriptBare]
  unfold endAt? scriptBare indent
  simp only [run_append, run_atStart_start]
  refine isSome_run_many hg ?_
  rw [run_ofText]
  exact isSome_run_many hy (isSome_run_quotedPart hq hsome hsource hq fun m => rfl)

-- ===================================================================== blocks

theorem isAnchored_scriptBlockStart : scriptBlockStart.IsAnchored :=
  ((((((isAnchored_atStart.append _).append _).append _).append _).append
    _).append _).append _

/-- Where a block is opened, a blank is behind the keyword, words at most are in
front of the first brace, and no brace is closed. -/
theorem starts_of_scriptBlockStart (h : scriptBlockStart.isIn l = true) :
    ∃ u y r, Starts l u ∧ u.head?.any isBlank = true ∧ u = y ++ '\x7b' :: r
      ∧ ',' ∉ y ∧ '\x7b' ∉ y ∧ '\x7d' ∉ r := by
  rw [isIn_of_anchored isAnchored_scriptBlockStart] at h
  obtain ⟨e, he⟩ := Option.isSome_iff_exists.1 h
  unfold endAt? scriptBlockStart at he
  simp only [run_append] at he
  obtain ⟨u, m, hu, hspace⟩ := exists_of_run_keyword he
  obtain ⟨g, t, rfl, hne, hg, hmaybe⟩ := exists_of_run_many1 hspace
  have hother : ∀ c, isBlank c = true → c ≠ ',' ∧ c ≠ '\x7b' := by
    intro c hc
    constructor <;> (rintro rfl; cases hc)
  have htype : ∀ c ∈ "type".toList, c ≠ ',' ∧ c ≠ '\x7b' := by
    have hall : "type".toList.all (fun c => c != ',' && c != '\x7b') = true := by decide
    intro c hc
    simpa using List.all_eq_true.1 hall c hc
  have htakes : (maybe "type").TakesOnly fun c => c ≠ ',' ∧ c ≠ '\x7b' :=
    ⟨⟨takesOnly_ofText htype, hother, hother⟩, trivial⟩
  obtain ⟨⟨n, last, t, parts⟩, ⟨x, rfl, -, -, hx⟩, hbrace⟩ :=
    answers_run htakes _ _ _ hmaybe
  obtain ⟨r, rfl, hmany⟩ := exists_of_run_ofText (w := ['\x7b']) hbrace
  obtain ⟨row, r, rfl, hrow, hend⟩ := exists_of_run_many hmany
  obtain rfl : r = [] := (exists_of_run_atEnd hend).1
  refine ⟨_, g ++ x, row, hu, ?_, by simp, ?_, ?_, ?_⟩
  · obtain ⟨c, g, rfl⟩ := List.exists_cons_of_ne_nil hne
    exact hg c (List.mem_cons_self ..)
  · exact List.not_mem_append (fun hc => (hother _ (hg _ hc)).1 rfl)
      (fun hc => (hx _ hc).1 rfl)
  · exact List.not_mem_append (fun hc => (hother _ (hg _ hc)).2 rfl)
      (fun hc => (hx _ hc).2 rfl)
  · intro hc
    have hnot := hrow _ hc
    revert hnot
    decide

/-- A keyword, blanks and a brace open a block that the line does not close. -/
theorem isIn_scriptBlockStart (hg : IsSpace g) (hw : IsKeyword w) (hx : IsSpace x)
    (hne : x ≠ []) (hr : '\x7d' ∉ r) :
    scriptBlockStart.isIn (g ++ (w ++ (x ++ '\x7b' :: r))) = true := by
  rw [isIn_of_anchored isAnchored_scriptBlockStart]
  unfold endAt? scriptBlockStart
  simp only [run_append]
  refine isSome_run_keyword hg hw fun m => isSome_run_many1 hx hne ?_
  unfold maybe
  rw [run_opt, Option.isSome_or, Bool.or_eq_true]
  refine Or.inr ?_
  have hopen : ∀ n last, run (ofText "\x7b".toList) ⟨n, last, '\x7b' :: r, []⟩
      (fun e => run (many (noneOf "\x7d")) e fun e => run atEnd e some)
      = run (many (noneOf "\x7d")) ⟨n + 1, some '\x7b', r, []⟩
          (fun e => run atEnd e some) :=
    fun n last => run_ofText ['\x7b']
  have hrow : ∀ c ∈ r, (!"\x7d".toList.contains c) = true := by
    intro c hc
    have hne : c ≠ '\x7d' := fun heq => hr (heq ▸ hc)
    simpa using hne
  rw [hopen, ← List.append_nil r]
  exact isSome_run_many hrow rfl

-- ======================================================= sources behind marks

/-- Two quotation marks are behind some mark of this kind. -/
def HasQuotesBehind (c : Char) (l : Text) : Prop :=
  ∃ x y, l = x ++ c :: y ∧ 2 ≤ quotes y

/-- Two quotes behind a character at any place are two behind it. -/
theorem hasQuotesBehind_of_suffix (h : c :: y <:+ l) (hy : 2 ≤ quotes y) :
    HasQuotesBehind c l := by
  obtain ⟨x, rfl⟩ := h
  exact ⟨x, y, rfl, hy⟩

/-- What closes a block holds no quotes up to the source. -/
theorem takesOnly_blockEnd : ("\x7d" ++ gap ++ "from" ++ gap : Pattern).TakesOnly
    (isQuote · = false) := by
  have hgap : gap.TakesOnly (isQuote · = false) :=
    fun _ => isQuote_eq_false_of_isBlank
  exact ⟨⟨⟨takesOnly_quiet (by decide), hgap⟩, takesOnly_quiet (by decide)⟩, hgap⟩

/-- The end of a block starts with a brace, and its source is what is quoted
behind. -/
theorem spec_of_endAt?_scriptBlockEnd (h : endAt? scriptBlockEnd s = some e) :
    (∃ u, s.rest = '\x7d' :: u) ∧ 2 ≤ quotes s.rest
      ∧ e.parts.find? (fun kept => kept.1 == 1) = some (1, quoted s.rest) := by
  refine ⟨?_, part_of_run_quoted takesOnly_blockEnd h⟩
  unfold endAt? scriptBlockEnd at h
  simp only [run_append] at h
  obtain ⟨u, hu, -⟩ := exists_of_run_ofText (w := ['\x7d']) h
  exact ⟨u, hu⟩

/-- Without such a brace no block ends. -/
theorem isIn_scriptBlockEnd_eq_false (h : ¬ HasQuotesBehind '\x7d' l) :
    scriptBlockEnd.isIn l = false := by
  by_contra hin
  rw [Bool.not_eq_false] at hin
  unfold isIn find? at hin
  rw [Option.isSome_map, Option.isSome_iff_exists] at hin
  obtain ⟨⟨m, e⟩, hfind⟩ := hin
  obtain ⟨s, hs, -, hend⟩ := exists_endAt_of_findFrom? hfind
  obtain ⟨⟨u, hu⟩, hquotes, -⟩ := spec_of_endAt?_scriptBlockEnd hend
  rw [hu] at hs hquotes
  have hnone : quotes ('\x7d' :: u) = quotes u :=
    List.countP_cons_of_neg (by decide)
  exact h (hasQuotesBehind_of_suffix hs (hnone ▸ hquotes))

/-- The source of a block is what is quoted behind its brace. -/
theorem capture?_scriptBlockEnd (hx : '\x7d' ∉ x) (hg : IsSpace g) (hy : IsSpace y)
    (hq : isQuote q = true) (hsource : IsQuiet source) (hsome : source ≠ []) :
    scriptBlockEnd.capture? 1
      (x ++ '\x7d' :: (g ++ ("from" ++ (y ++ q :: (source ++ q :: t)))))
      = some source := by
  have hrefuses : ∀ n last u, ∀ c ∈ x,
      endAt? scriptBlockEnd ⟨n, last, c :: u, []⟩ = none := by
    intro n last u c hc
    rw [Option.eq_none_iff_forall_ne_some]
    intro e he
    obtain ⟨⟨v, hv⟩, -⟩ := spec_of_endAt?_scriptBlockEnd he
    obtain rfl : c = '\x7d' := (List.cons.inj hv).1
    exact hx hc
  have hends : ∀ n last, (endAt? scriptBlockEnd ⟨n, last,
      '\x7d' :: (g ++ ("from" ++ (y ++ q :: (source ++ q :: t)))), []⟩).isSome := by
    intro n last
    unfold endAt? scriptBlockEnd
    simp only [run_append]
    have hbrace : ∀ (u : Text) (k : Place → Option Place),
        run (ofText "\x7d".toList) ⟨n, last, '\x7d' :: u, []⟩ k
          = k ⟨n + 1, some '\x7d', u, []⟩ :=
      fun u k => run_ofText ['\x7d']
    rw [hbrace]
    refine isSome_run_many hg ?_
    rw [run_ofText]
    exact isSome_run_many hy (isSome_run_quotedPart hq hsome hsource hq fun m => rfl)
  obtain ⟨e, he⟩ := Option.isSome_iff_exists.1 (hends (0 + x.length) (x.getLast?.or none))
  have hquiet : IsQuiet ('\x7d' :: (g ++ ("from".toList ++ y))) := by
    have hbrace : IsQuiet ['\x7d'] := by decide
    have hfrom : IsQuiet "from".toList := by decide
    exact hbrace.append (hg.isQuiet.append (hfrom.append hy.isQuiet))
  have hquoted := quoted_eq hquiet hq hsource hq t
  simp only [List.cons_append, List.append_assoc] at hquoted
  obtain ⟨-, -, hpart⟩ := spec_of_endAt?_scriptBlockEnd he
  unfold capture? find?
  rw [findFrom?_append_of_refuses hrefuses, findFrom?, he]
  show (e.parts.find? fun kept => kept.1 == 1).map Prod.snd = _
  rw [hpart, hquoted]
  rfl

/-- A call has a parenthesis in front of its quotation marks. -/
theorem findAll_scriptCall_eq_nil (h : ¬ HasQuotesBehind '(' l) :
    scriptCall.findAll l = [] := by
  have hnone : findFrom? scriptCall (Place.start l).passed (Place.start l).last
      (Place.start l).rest = none := by
    rw [Option.eq_none_iff_forall_ne_some]
    rintro ⟨m, e⟩ hfind
    obtain ⟨s, hs, -, hend⟩ := exists_endAt_of_findFrom? hfind
    unfold endAt? scriptCall at hend
    simp only [run_append] at hend
    obtain ⟨-, hwords⟩ := exists_of_run_wordEdge hend
    obtain ⟨e₁, h₁, hgap⟩ := answers_run (takesOnly_true _) _ _ _ hwords
    obtain ⟨e₂, h₂, hopen⟩ := answers_run (takesOnly_true _) _ _ _ hgap
    obtain ⟨u, hu, hgap⟩ := exists_of_run_ofText (w := ['(']) hopen
    obtain ⟨e₃, h₃, hsource⟩ := answers_run (takesOnly_true _) _ _ _ hgap
    obtain ⟨q, source, q', v, m, hv, hq, -, hq', -⟩ := exists_of_run_quotedPart hsource
    have hquotes : 2 ≤ quotes e₃.rest := by
      rw [hv, quotes_cons_of_isQuote hq, quotes_append, quotes_cons_of_isQuote hq']
      omega
    have hbehind : '(' :: u <:+ l := by
      have hsuffix := (h₂.suffix.trans h₁.suffix).trans hs
      rwa [hu] at hsuffix
    exact h (hasQuotesBehind_of_suffix hbehind
      (hquotes.trans (h₃.suffix.sublist.countP_le)))
  unfold findAll
  rw [findAllFrom, hnone]

/-- In a quiet line there are no quotes behind anything. -/
theorem not_hasQuotesBehind_of_quiet (hl : IsQuiet l) : ¬ HasQuotesBehind c l := by
  rintro ⟨x, y, rfl, hy⟩
  have hnone := hl.quotes_eq_zero
  have hle : quotes y ≤ quotes (x ++ c :: y) :=
    ((List.suffix_cons c y).sublist.trans (List.sublist_append_right ..)).countP_le
  omega

/-- Behind what stands in a source there is one quotation mark only. -/
theorem not_hasQuotesBehind_of_notMem (hc : isQuote c = false) (hx : c ∉ x)
    (hq : isQuote q = true) (hsource : IsQuiet source) (ht : IsQuiet t) :
    ¬ HasQuotesBehind c (x ++ q :: (source ++ q :: t)) := by
  rintro ⟨z, y, heq, hy⟩
  have hne : q ≠ c := by
    rintro rfl
    rw [hq] at hc
    cases hc
  rcases List.append_eq_append_iff.1 heq with ⟨v, rfl, hv⟩ | ⟨v, rfl, hv⟩
  · cases v with
    | nil => exact hne (List.cons.inj hv).1
    | cons d v =>
        have hrest : source ++ q :: t = v ++ c :: y := (List.cons.inj hv).2
        have hcount := congrArg quotes hrest
        have hle : quotes y ≤ quotes (c :: y) := (List.sublist_cons_self c y).countP_le
        rw [quotes_append, quotes_append, quotes_cons_of_isQuote hq,
          hsource.quotes_eq_zero, ht.quotes_eq_zero] at hcount
        omega
  · cases v with
    | nil => exact hne (List.cons.inj hv).1.symm
    | cons d v =>
        obtain rfl := (List.cons.inj hv).1
        exact hx (by simp)

-- ====================================================================== lines

/-- A line in an open block without an end of it. -/
theorem scriptLine_open_of_not (h : ¬ HasQuotesBehind '\x7d' l) :
    scriptLine true l = ([], !l.contains ';') := by
  unfold scriptLine
  rw [if_pos rfl, capture?_of_not_isIn (isIn_scriptBlockEnd_eq_false h)]

/-- A line that ends an open block. -/
theorem scriptLine_open_of_capture (h : scriptBlockEnd.capture? 1 l = some source) :
    scriptLine true l = ([source], false) := by
  unfold scriptLine
  rw [if_pos rfl, h]

/-- A line outside a block, told from what is found on it. -/
theorem scriptLine_closed (l : Text) :
    scriptLine false l
      = match (scriptFrom.capture? 1 l).or (scriptBare.capture? 1 l) with
        | some source => ([source], false)
        | none =>
          if scriptBlockStart.isIn l then ([], true)
          else ((scriptCall.findAll l).filterMap (·.part? 1), false) := rfl

/-- A line that names its source reports it and leaves no block open. -/
theorem scriptLine_of_from (h : scriptFrom.isIn l = true) :
    scriptLine false l = ([quoted l], false) := by
  rw [scriptLine_closed, (capture?_scriptFrom h).1]
  rfl

/-- So does a line that imports without names. -/
theorem scriptLine_of_bare (hfrom : scriptFrom.isIn l = false)
    (h : scriptBare.isIn l = true) : scriptLine false l = ([quoted l], false) := by
  rw [scriptLine_closed, capture?_of_not_isIn hfrom, (capture?_scriptBare h).1]
  rfl

/-- Without a quotation mark a line opens a block at most. -/
theorem scriptLine_of_quiet (hl : IsQuiet l) :
    scriptLine false l = ([], scriptBlockStart.isIn l) := by
  have hquotes := hl.quotes_eq_zero
  have hfrom : scriptFrom.isIn l = false := by
    by_contra h
    rw [Bool.not_eq_false] at h
    have htwo := (capture?_scriptFrom h).2
    omega
  have hbare : scriptBare.isIn l = false := by
    by_contra h
    rw [Bool.not_eq_false] at h
    have htwo := (capture?_scriptBare h).2
    omega
  rw [scriptLine_closed, capture?_of_not_isIn hfrom, capture?_of_not_isIn hbare,
    findAll_scriptCall_eq_nil (not_hasQuotesBehind_of_quiet hl)]
  cases scriptBlockStart.isIn l <;> rfl

/-- A line that starts no statement and holds no call is passed over. -/
theorem scriptLine_of_not_starts (h : ¬ StartsStatement l)
    (hcall : ¬ HasQuotesBehind '(' l) : scriptLine false l = ([], false) := by
  have hfrom : scriptFrom.isIn l = false := by
    by_contra hin
    rw [Bool.not_eq_false] at hin
    obtain ⟨u, hu, hword, -⟩ := starts_of_scriptFrom hin
    exact h ⟨u, hu, hword⟩
  have hbare : scriptBare.isIn l = false := by
    by_contra hin
    rw [Bool.not_eq_false] at hin
    exact h (startsStatement_of_scriptBare hin)
  have hblock : scriptBlockStart.isIn l = false := by
    by_contra hin
    rw [Bool.not_eq_false] at hin
    obtain ⟨u, -, -, hu, hblank, -⟩ := starts_of_scriptBlockStart hin
    refine h ⟨u, hu, ?_⟩
    cases u with
    | nil => rfl
    | cons c u => exact isWord_eq_false_of_isBlank hblank
  rw [scriptLine_closed, capture?_of_not_isIn hfrom, capture?_of_not_isIn hbare,
    findAll_scriptCall_eq_nil hcall, hblock]
  rfl

end Imports

end SourceDigest
