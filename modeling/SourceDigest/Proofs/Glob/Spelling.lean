/-
What the units of a glob spell, and that matching decides it.

# The two readings

A shape is matched row by row: for every place of a path at once it is
worked out whether the units from there on cover the rest. Beside it
stands the plain reading of an expression: a unit stands for certain
texts (`Token.Spells`), units in a row stand for what they stand for one
after the other (`Spelled`), and a shape ends where nothing is left, or
before a slash when it covers what lies below (`Shape.Ends`).

# Why they agree

A row is the table of a predicate along a path: its entries say where the
predicate holds of what is left (`Tells`). Each operation on rows is an
operation on predicates (`tells_behindOne`, `tells_behindMany`,
`tells_either`), so each unit puts its own texts in front of the predicate
behind it (`tells_row`). Folding over the units gives `covers_iff`, from
which everything about matching is argued on texts alone.
-/
import Mathlib
import SourceDigest.Glob

namespace SourceDigest

namespace Glob

variable {ignoreCase : Bool}

-- ================================================================ vocabulary

/-- The texts of one character that passes a test. -/
def OneOf (ok : Char → Bool) (t : Text) : Prop := ∃ c, t = [c] ∧ ok c = true

/-- The texts all of whose characters pass a test. -/
def ManyOf (ok : Char → Bool) (t : Text) : Prop := ∀ c ∈ t, ok c = true

/-- The texts that fall into a part of one kind and then one of another. -/
def Then (first rest : Text → Prop) (t : Text) : Prop :=
  ∃ a b, t = a ++ b ∧ first a ∧ rest b

/-- The texts that a unit stands for. -/
def Token.Spells (ignoreCase : Bool) : Token → Text → Prop
  | segments => fun t => t = [] ∨ Then (ManyOf isInLine) (OneOf isSlash) t
  | anything => ManyOf isInLine
  | run => ManyOf isInSegment
  | single => OneOf isInSegment
  | char c => OneOf fun d => if ignoreCase then Text.sameLetter c d else c == d

/-- The texts that some units and then an end stand for. -/
def Spelled (ignoreCase : Bool) (ts : List Token) (last : Text → Prop) :
    Text → Prop :=
  ts.foldr (fun t rest => Then (t.Spells ignoreCase) rest) last

/-- The ends of a path that a shape may leave: nothing, or what lies below. -/
def Ends (below : Bool) (t : Text) : Prop :=
  t = [] ∨ below = true ∧ Then (OneOf isSlash) (ManyOf isInLine) t

theorem spelled_cons (t : Token) (ts : List Token) (last : Text → Prop) :
    Spelled ignoreCase (t :: ts) last
      = Then (t.Spells ignoreCase) (Spelled ignoreCase ts last) := rfl

/-- What some tokens spell with others behind them is what they spell in front
of what those do. -/
theorem spelled_append (ts us : List Token) (last : Text → Prop) :
    Spelled ignoreCase (ts ++ us) last
      = Spelled ignoreCase ts (Spelled ignoreCase us last) :=
  List.foldr_append

-- ====================================================== parts, by their front

theorem then_oneOf_nil {ok : Char → Bool} {P : Text → Prop} :
    ¬ Then (OneOf ok) P [] := by
  intro h
  obtain ⟨a, b, hab, ⟨c, rfl, -⟩, -⟩ := h
  cases hab

/-- One character in front is the first of the text. -/
theorem then_oneOf_cons {ok : Char → Bool} {P : Text → Prop} {c : Char}
    {t : Text} :
    Then (OneOf ok) P (c :: t) ↔ ok c = true ∧ P t := by
  constructor
  · intro h
    obtain ⟨a, b, hab, ⟨d, rfl, hd⟩, hb⟩ := h
    obtain ⟨rfl, rfl⟩ := List.cons.inj hab
    exact ⟨hd, hb⟩
  · intro h
    obtain ⟨hc, ht⟩ := h
    exact ⟨[c], t, rfl, ⟨c, rfl, hc⟩, ht⟩

theorem then_manyOf_nil {ok : Char → Bool} {P : Text → Prop} :
    Then (ManyOf ok) P [] ↔ P [] := by
  constructor
  · intro h
    obtain ⟨a, b, hab, -, hb⟩ := h
    obtain ⟨-, rfl⟩ := List.append_eq_nil_iff.1 hab.symm
    exact hb
  · intro h
    exact ⟨[], [], rfl, fun c hc => absurd hc List.not_mem_nil, h⟩

/-- Characters in front are none, or the first of the text and more. -/
theorem then_manyOf_cons {ok : Char → Bool} {P : Text → Prop} {c : Char}
    {t : Text} :
    Then (ManyOf ok) P (c :: t)
      ↔ P (c :: t) ∨ ok c = true ∧ Then (ManyOf ok) P t := by
  constructor
  · intro h
    obtain ⟨a, b, hab, ha, hb⟩ := h
    cases a with
    | nil =>
        left
        rw [hab]
        exact hb
    | cons d a =>
        obtain ⟨rfl, rfl⟩ := List.cons.inj hab
        right
        exact ⟨ha c (List.mem_cons_self ..),
          a, b, rfl, fun e he => ha e (List.mem_cons_of_mem _ he), hb⟩
  · intro h
    rcases h with h | ⟨hc, a, b, rfl, ha, hb⟩
    · exact ⟨[], c :: t, rfl, fun e he => absurd he List.not_mem_nil, h⟩
    · refine ⟨c :: a, b, rfl, fun e he => ?_, hb⟩
      rcases List.mem_cons.1 he with rfl | he
      · exact hc
      · exact ha e he

/-- Parts in front of parts are parts one after the other. -/
theorem then_assoc {P Q R : Text → Prop} {t : Text} :
    Then (Then P Q) R t ↔ Then P (Then Q R) t := by
  constructor
  · intro h
    obtain ⟨a, b, rfl, ⟨c, d, rfl, hc, hd⟩, hb⟩ := h
    exact ⟨c, d ++ b, List.append_assoc .., hc, d, b, rfl, hd, hb⟩
  · intro h
    obtain ⟨a, b, rfl, ha, c, d, rfl, hc, hd⟩ := h
    exact ⟨a ++ c, d, (List.append_assoc ..).symm, ⟨a, c, rfl, ha, hc⟩, hd⟩

/-- Parts of the same texts make up the same texts. -/
theorem then_congr {P P' Q Q' : Text → Prop} (hP : ∀ t, P t ↔ P' t)
    (hQ : ∀ t, Q t ↔ Q' t)
    {t : Text} : Then P Q t ↔ Then P' Q' t := by
  unfold Then
  simp only [hP, hQ]

/-- Whole segments in front are none, or some characters up to a slash. -/
theorem then_segments (ignoreCase : Bool) {P : Text → Prop} {t : Text} :
    Then (Token.segments.Spells ignoreCase) P t
      ↔ P t ∨ Then (ManyOf isInLine) (Then (OneOf isSlash) P) t := by
  rw [← then_assoc]
  constructor
  · intro h
    rcases h with ⟨a, b, rfl, rfl | ha, hb⟩
    · exact Or.inl hb
    · exact Or.inr ⟨a, b, rfl, ha, hb⟩
  · intro h
    rcases h with h | ⟨a, b, rfl, ha, hb⟩
    · exact ⟨[], t, rfl, Or.inl rfl, h⟩
    · exact ⟨a, b, rfl, Or.inr ha, hb⟩

-- ======================================================================= rows

/-- A row tells a predicate along a path: each entry says whether it holds
of what is left of the path there. -/
inductive Tells (P : Text → Prop) : Text → Row → Prop where
  | nil {b : Bool} : (b = true ↔ P []) → Tells P [] [b]
  | cons {b : Bool} {c : Char} {path : Text} {row : Row} :
      (b = true ↔ P (c :: path)) → Tells P path row →
        Tells P (c :: path) (b :: row)

/-- The first entry speaks of the whole path. -/
theorem Tells.head {P : Text → Prop} {path : Text} {row : Row}
    (h : Tells P path row) :
    row.headD false = true ↔ P path := by
  cases h with
  | nil hb => exact hb
  | cons hb _ => exact hb

/-- Rows of predicates that agree on texts. -/
theorem Tells.congr {P Q : Text → Prop} {path : Text} {row : Row}
    (h : Tells P path row)
    (hPQ : ∀ t, P t ↔ Q t) : Tells Q path row := by
  induction h with
  | nil hb => exact .nil (hb.trans (hPQ _))
  | cons hb _ ih => exact .cons (hb.trans (hPQ _)) ih

theorem tells_atEnd (path : Text) : Tells (· = []) path (atEnd path) := by
  induction path with
  | nil => exact .nil (by simp)
  | cons c path ih => exact .cons (by simp) ih

/-- The row behind a token for one character tells what the token spells in
front of the rest. -/
theorem tells_behindOne {P : Text → Prop} {path : Text} {row : Row}
    (ok : Char → Bool) (h : Tells P path row) :
    Tells (Then (OneOf ok) P) path (behindOne ok path row) := by
  induction h with
  | nil _ => exact .nil (by simp [then_oneOf_nil])
  | cons _ hrow ih =>
      refine .cons ?_ ih
      rw [then_oneOf_cons, Bool.and_eq_true, hrow.head]

/-- So does the row behind one for any number of them. -/
theorem tells_behindMany {P : Text → Prop} {path : Text} {row : Row}
    (ok : Char → Bool) (h : Tells P path row) :
    Tells (Then (ManyOf ok) P) path (behindMany ok path row) := by
  induction h with
  | nil hb => exact .nil (hb.trans then_manyOf_nil.symm)
  | cons hb _ ih =>
      refine .cons ?_ ih
      rw [then_manyOf_cons, Bool.or_eq_true, Bool.and_eq_true, hb, ih.head]

/-- Of two rows the one or the other tells. -/
theorem tells_either {P Q : Text → Prop} {path : Text} {row row' : Row}
    (h : Tells P path row) (h' : Tells Q path row') :
    Tells (fun t => P t ∨ Q t) path (either row row') := by
  induction h generalizing row' with
  | nil hb =>
      cases h' with
      | nil hb' =>
          refine .nil ?_
          rw [Bool.or_eq_true, hb, hb']
  | cons hb _ ih =>
      cases h' with
      | cons hb' hrow' =>
          refine .cons ?_ (ih hrow')
          rw [Bool.or_eq_true, hb, hb']

/-- A unit puts its own texts in front of what the row behind it tells. -/
theorem tells_row {P : Text → Prop} {path : Text} {row : Row} (t : Token)
    (h : Tells P path row) :
    Tells (Then (t.Spells ignoreCase) P) path (t.row ignoreCase path row) := by
  cases t with
  | segments =>
      refine Tells.congr ?_ fun s => (then_segments ignoreCase).symm
      exact tells_either h
        (tells_behindMany isInLine (tells_behindOne isSlash h))
  | anything => exact tells_behindMany isInLine h
  | run => exact tells_behindMany isInSegment h
  | single => exact tells_behindOne isInSegment h
  | char c => exact tells_behindOne _ h

-- =================================================================== covering

/-- The row a shape starts from tells where it may end. -/
theorem tells_endRow (s : Shape) (path : Text) :
    Tells (Ends s.coversBelow) path (s.endRow path) := by
  unfold Shape.endRow
  by_cases hs : s.coversBelow = true
  · rw [if_pos hs]
    refine Tells.congr (tells_either (tells_atEnd path)
      (tells_behindOne isSlash (tells_behindMany isInLine (tells_atEnd path))))
        fun t => ?_
    have hall : Then (ManyOf isInLine) (· = []) = ManyOf isInLine := by
      funext t
      refine propext ⟨?_, fun h => ⟨t, [], (List.append_nil t).symm, h, rfl⟩⟩
      intro h
      obtain ⟨a, b, rfl, ha, rfl⟩ := h
      rwa [List.append_nil]
    simp [Ends, hs, hall]
  · rw [if_neg hs]
    refine Tells.congr (tells_atEnd path) fun t => ?_
    simp [Ends, hs]

/-- A shape covers a path exactly when its units and then one of its ends
spell the path. -/
theorem covers_iff (s : Shape) (path : Text) :
    s.covers ignoreCase path = true
      ↔ Spelled ignoreCase s.body (Ends s.coversBelow) path := by
  suffices h : ∀ ts : List Token,
      Tells (Spelled ignoreCase ts (Ends s.coversBelow)) path
        (ts.foldr (Token.row ignoreCase path) (s.endRow path))
          from (h s.body).head
  intro ts
  induction ts with
  | nil => exact tells_endRow s path
  | cons t ts ih => exact tells_row t ih

end Glob

end SourceDigest
