/-
How far the reading of a Python header goes, and what it takes for a string.

The line of a header is read by a small machine (`Plain.step`): in code it
counts brackets, and a remark or a colon outside of brackets stops it; each quote
opens a string or ends the one that is open. The code of a line is what the
machine gets through (`line_append`), and a line that closes the header does so
where the machine stops in code, outside of brackets (`exists_of_closed`).

The grammar knows strings in triple quotes too (`Literal.Place.step`), in which a
single quote is a character like any other. The machine is in step with the
grammar as long as in each of these a quote of its kind belongs to the end
(`Tidy`): of three quotes it takes the first two for an empty string and the
third for the beginning of one, or, at the end, the first for the end of that one
and the others for an empty one. The induction is over what stands in front of a
place (`exists_read_of_tidy`).
-/
import Mathlib
import SourceDigest.Summary.Signatures
import SourceDigest.Proofs.Lines.Strings
import SourceDigest.Proofs.Text.Parts

namespace SourceDigest

namespace Signature

open Literal (Quote Place)

-- =================================================================== brackets

/-- How many brackets are open behind a character, of whatever kind. -/
def bracketed (depth : Nat) (c : Char) : Nat :=
  if c = '(' ∨ c = '[' ∨ c = '\x7b' then depth + 1
  else if c = ')' ∨ c = ']' ∨ c = '\x7d' then depth - 1
  else depth

/-- Blanks do not change the depth. -/
theorem bracketed_of_isBlank {c : Char} (hc : Text.isBlank c = true) (depth : Nat) :
    bracketed depth c = depth := by
  unfold bracketed
  rw [if_neg, if_neg]
  · rintro (rfl | rfl | rfl) <;> revert hc <;> decide
  · rintro (rfl | rfl | rfl) <;> revert hc <;> decide

-- ==================================================================== grammar

/-- A place in a header: what its text belongs to, and how many brackets are open
in front of it. -/
structure Spot where
  place : Place
  depth : Nat

/-- Whether a place lies in code, and in no string and no remark. -/
def inCode : Place → Bool
  | .code | .doubled _ => true
  | _ => false

/-- The place behind a character. Brackets count in code alone. -/
def Spot.step (s : Spot) (c : Char) : Spot :=
  ⟨s.place.step c, if inCode s.place then bracketed s.depth c else s.depth⟩

/-- The place behind a text. -/
def spot (t : Text) : Spot := t.foldl Spot.step ⟨.code, 0⟩

theorem spot_concat (t : Text) (c : Char) : spot (t ++ [c]) = (spot t).step c := by
  unfold spot
  rw [List.foldl_append]
  rfl

/-- A bracket is open only behind one. -/
theorem exists_mem_of_depth_pos {t : Text} (h : 0 < (spot t).depth) :
    ∃ c ∈ t, c = '(' ∨ c = '[' ∨ c = '\x7b' := by
  induction t using List.reverseRecOn with
  | nil => exact absurd h (Nat.lt_irrefl 0)
  | append_singleton t c ih =>
      by_cases hopens : c = '(' ∨ c = '[' ∨ c = '\x7b'
      · exact ⟨c, by simp, hopens⟩
      · have hfront : 0 < (spot t).depth := by
          rw [spot_concat] at h
          unfold Spot.step bracketed at h
          rw [if_neg hopens] at h
          dsimp only at h
          split at h
          · split at h <;> omega
          · exact h
        obtain ⟨d, hd, hopens⟩ := ih hfront
        exact ⟨d, List.mem_append_left _ hd, hopens⟩

/-- A colon behind the text is in code and outside of brackets. -/
def IsOutmost (t : Text) : Prop := inCode (spot t).place = true ∧ (spot t).depth = 0

instance (t : Text) : Decidable (IsOutmost t) := inferInstanceAs (Decidable (_ ∧ _))

-- ==================================================================== machine

/-- What the reading of a header takes its place to be in. -/
inductive Mode where
  | code
  | within (q : Quote)
  | escaped (q : Quote)
deriving DecidableEq

namespace Mode

/-- Behind a character of code. -/
def ofCode (c : Char) : Mode :=
  if c = Quote.double.char then within .double
  else if c = Quote.single.char then within .single
  else code

/-- Behind a character of a string. -/
def ofString (q : Quote) (c : Char) : Mode :=
  if c = '\\' then escaped q else if c = q.char then code else within q

def quote? : Mode → Option Char
  | code => none
  | within q | escaped q => some q.char

def isEscaped : Mode → Bool
  | escaped _ => true
  | _ => false

end Mode

/-- A reader of a header that takes each quote by itself. -/
structure Plain where
  mode : Mode
  depth : Nat
deriving DecidableEq

namespace Plain

variable {s s' : Plain} {t u g : Text} {c : Char}

/-- Reads a character, unless the code of the line ends in front of it. -/
def step (s : Plain) (c : Char) : Option Plain :=
  match s.mode with
  | .code =>
    if c = '#' ∨ c = ':' ∧ s.depth = 0 then none
    else some ⟨Mode.ofCode c, bracketed s.depth c⟩
  | .within q => some ⟨Mode.ofString q c, s.depth⟩
  | .escaped q => some ⟨.within q, s.depth⟩

/-- Reads a text as far as all of it is code of the line. -/
def read (s : Plain) (t : Text) : Option Plain := t.foldlM step s

/-- The beginning of a header. -/
def start : Plain := ⟨.code, 0⟩

/-- The line of a header from where a reader stands. -/
def line (s : Plain) (t : Text) : HeaderLine :=
  headerLine s.depth s.mode.quote? s.mode.isEscaped t

theorem read_cons (s : Plain) (c : Char) (t : Text) :
    s.read (c :: t) = (s.step c).bind fun s' => s'.read t := by
  unfold read
  rw [List.foldlM_cons]
  rfl

/-- A text may be read in two parts. -/
theorem read_append (s : Plain) (t u : Text) :
    s.read (t ++ u) = (s.read t).bind fun s' => s'.read u := by
  unfold read
  rw [List.foldlM_append]
  rfl

theorem read_concat (s : Plain) (t : Text) (c : Char) :
    s.read (t ++ [c]) = (s.read t).bind fun s' => s'.step c := by
  rw [read_append]
  congr 1
  funext s'
  rw [read_cons]
  cases s'.step c <;> rfl

theorem line_nil (s : Plain) : s.line [] = ⟨[], false, s.depth⟩ := by
  unfold line
  cases s.mode <;> rfl

/-- Where reading stops the line ends, at a colon or at a remark. -/
theorem line_of_step_none (h : s.step c = none) (t : Text) :
    s.line (c :: t) = ⟨[], decide (c = ':'), s.depth⟩ := by
  obtain ⟨mode, depth⟩ := s
  cases mode with
  | code =>
      unfold step at h
      dsimp only at h
      split at h
      · rename_i hstop
        unfold line Mode.quote? Mode.isEscaped
        dsimp only
        rw [headerLine]
        rcases hstop with rfl | ⟨rfl, hdepth⟩
        · rfl
        · rw [if_neg (by decide), if_pos ⟨rfl, hdepth⟩]
          rfl
      · cases h
  | within q => cases h
  | escaped q => cases h

/-- Behind a character of code a line goes on as one in code or in a string. -/
theorem line_ofCode (depth : Nat) (c : Char) (t : Text) :
    line ⟨Mode.ofCode c, bracketed depth c⟩ t
      = if c = '\x27' ∨ c = '"' then headerLine depth (some c) false t
        else if c = '(' ∨ c = '[' ∨ c = '\x7b' then headerLine (depth + 1) none false t
        else if c = ')' ∨ c = ']' ∨ c = '\x7d' then headerLine (depth - 1) none false t
        else headerLine depth none false t := by
  by_cases hdouble : c = Quote.double.char
  · subst hdouble
    rfl
  by_cases hsingle : c = Quote.single.char
  · subst hsingle
    rfl
  have hquote : ¬ (c = '\x27' ∨ c = '"') := not_or.2 ⟨hsingle, hdouble⟩
  unfold Mode.ofCode bracketed
  rw [if_neg hdouble, if_neg hsingle, if_neg hquote]
  split
  · rfl
  split
  · rfl
  · rfl

/-- And behind a character of a string. -/
theorem line_ofString (q : Quote) (depth : Nat) (c : Char) (t : Text) :
    line ⟨Mode.ofString q c, depth⟩ t
      = if c = '\\' then headerLine depth (some q.char) true t
        else if c = q.char then headerLine depth none false t
        else headerLine depth (some q.char) false t := by
  unfold Mode.ofString
  split
  · rfl
  split
  · rfl
  · rfl

/-- Where it goes on the character is code. -/
theorem line_of_step_some (h : s.step c = some s') (t : Text) :
    s.line (c :: t) = { s'.line t with code := c :: (s'.line t).code } := by
  obtain ⟨mode, depth⟩ := s
  cases mode with
  | code =>
      unfold step at h
      dsimp only at h
      split at h
      · cases h
      rename_i hgoesOn
      obtain ⟨hremark, hcolon⟩ := not_or.1 hgoesOn
      obtain rfl := Option.some.inj h
      show headerLine depth none false (c :: t) = _
      rw [headerLine, if_neg hremark, if_neg hcolon, line_ofCode]
  | within q =>
      obtain rfl := Option.some.inj h
      show headerLine depth (some q.char) false (c :: t) = _
      rw [headerLine, line_ofString, if_neg Bool.false_ne_true]
  | escaped q =>
      obtain rfl := Option.some.inj h
      rfl

/-- What is read as code is the beginning of the code of a line. -/
theorem line_append (h : s.read t = some s') (u : Text) :
    s.line (t ++ u) = { s'.line u with code := t ++ (s'.line u).code } := by
  induction t generalizing s with
  | nil =>
      obtain rfl := Option.some.inj h
      rfl
  | cons c t ih =>
      rw [read_cons] at h
      obtain ⟨s₁, hstep, hread⟩ := Option.bind_eq_some_iff.1 h
      rw [List.cons_append, line_of_step_some hstep, ih hread]
      rfl

/-- A line closes a header where its code ends in front of a colon, outside of
brackets and strings. -/
theorem exists_of_closed (h : (s.line t).closed = true) :
    ∃ u s', t = (s.line t).code ++ ':' :: u ∧ s.read (s.line t).code = some s'
      ∧ s'.mode = .code ∧ s'.depth = 0 := by
  induction t generalizing s with
  | nil =>
      rw [line_nil] at h
      cases h
  | cons c t ih =>
      cases hstep : s.step c with
      | none =>
          rw [line_of_step_none hstep] at h ⊢
          obtain rfl : c = ':' := of_decide_eq_true h
          refine ⟨t, s, rfl, rfl, ?_⟩
          obtain ⟨mode, depth⟩ := s
          cases mode with
          | code =>
              unfold step at hstep
              dsimp only at hstep
              split at hstep
              · rename_i hstop
                exact ⟨rfl, (hstop.resolve_left (by decide)).2⟩
              · cases hstep
          | within q => cases hstep
          | escaped q => cases hstep
      | some s₁ =>
          rw [line_of_step_some hstep] at h ⊢
          obtain ⟨u, s', ht, hread, hmode, hdepth⟩ := ih h
          refine ⟨u, s', congrArg (c :: ·) ht, ?_, hmode, hdepth⟩
          rw [read_cons, hstep]
          exact hread

/-- Outside of brackets and strings a colon closes the header. -/
theorem line_colon (hmode : s.mode = .code) (hdepth : s.depth = 0) (t : Text) :
    s.line (':' :: t) = ⟨[], true, s.depth⟩ := by
  have hstep : s.step ':' = none := by
    unfold step
    rw [hmode]
    exact if_pos (.inr ⟨rfl, hdepth⟩)
  exact line_of_step_none hstep t

/-- A remark is no code. -/
theorem line_remark (hmode : s.mode = .code) (t : Text) :
    s.line ('#' :: t) = ⟨[], false, s.depth⟩ := by
  have hstep : s.step '#' = none := by
    unfold step
    rw [hmode]
    exact if_pos (.inl rfl)
  exact line_of_step_none hstep t

/-- Blanks between pieces of code change nothing. -/
theorem step_blank (hmode : s.mode = .code) (hc : Text.isBlank c = true) :
    s.step c = some s := by
  obtain ⟨mode, depth⟩ := s
  obtain rfl : mode = .code := hmode
  have hstop : ¬ (c = '#' ∨ c = ':' ∧ depth = 0) := by
    rintro (rfl | ⟨rfl, -⟩) <;> revert hc <;> decide
  have hcode : Mode.ofCode c = .code := by
    unfold Mode.ofCode
    rw [if_neg, if_neg] <;> rintro rfl <;> revert hc <;> decide
  unfold step
  dsimp only
  rw [if_neg hstop, hcode, bracketed_of_isBlank hc]

theorem read_blanks (hmode : s.mode = .code) (hg : ∀ c ∈ g, Text.isBlank c = true) :
    s.read g = some s := by
  induction g with
  | nil => rfl
  | cons c g ih =>
      obtain ⟨hc, hg⟩ := List.forall_mem_cons.1 hg
      rw [read_cons, step_blank hmode hc]
      exact ih hg

end Plain

-- ==================================================================== in step

/-- The machine takes a place for what the grammar has it in, or, in front of the
last quotes of a triple-quoted string, for what comes to the same. -/
inductive InStep : Place → Mode → Prop
  | code : InStep .code .code
  | opened (q : Quote) : InStep (.opened q) (.within q)
  | doubled (q : Quote) : InStep (.doubled q) .code
  | short (q : Quote) : InStep (.short q) (.within q)
  | shortEscape (q : Quote) : InStep (.shortEscape q) (.escaped q)
  | long (q : Quote) : InStep (.long q 0) (.within q)
  | longOne (q : Quote) : InStep (.long q 1) .code
  | longTwo (q : Quote) : InStep (.long q 2) (.within q)
  | longEscape (q : Quote) : InStep (.longEscape q) (.escaped q)

/-- The quote that is due where the end of a triple-quoted string has begun. -/
def quoteDue? : Place → Option Quote
  | .long q (_ + 1) => some q
  | _ => none

/-- A header in which no place is hidden: in a triple-quoted string each quote of
its kind belongs to its end, and no colon in front stands in code and outside of
brackets, as that of a lambda would. -/
structure Tidy (head : Text) : Prop where
  quotes : ∀ front c, front ++ [c] <+: head →
    ∀ q ∈ quoteDue? (spot front).place, c = q.char
  colons : ∀ front, front ++ [':'] <+: head → ¬ IsOutmost front
  oneLine : '\n' ∉ head ∧ '\r' ∉ head

instance (head : Text) : Decidable (Tidy head) :=
  decidable_of_iff ((∀ i < head.length,
      (∀ q ∈ quoteDue? (spot (head.take i)).place, head[i]? = some q.char)
        ∧ (head[i]? = some ':' → ¬ IsOutmost (head.take i))) ∧ '\n' ∉ head ∧ '\r' ∉ head) <| by
    constructor
    · rintro ⟨hall, hline⟩
      have hplace : ∀ front c, front ++ [c] <+: head → front.length < head.length
          ∧ head.take front.length = front ∧ head[front.length]? = some c := by
        rintro front c ⟨back, rfl⟩
        simp
      refine ⟨fun front c hfront q hq => ?_, fun front hfront => ?_, hline⟩
      · obtain ⟨hlt, htake, hget⟩ := hplace front c hfront
        have hdue := (hall _ hlt).1 q (htake.symm ▸ hq)
        exact Option.some.inj (hget.symm.trans hdue)
      · obtain ⟨hlt, htake, hget⟩ := hplace front ':' hfront
        exact htake ▸ (hall _ hlt).2 hget
    · intro h
      have hbegins : ∀ i c, head[i]? = some c → head.take i ++ [c] <+: head := by
        intro i c hget
        obtain ⟨hlt, rfl⟩ := List.getElem?_eq_some_iff.1 hget
        rw [List.take_append_getElem]
        exact List.take_prefix _ _
      refine ⟨fun i hlt => ⟨fun q hq => ?_, fun hget => ?_⟩, h.oneLine⟩
      · have hget := List.getElem?_eq_getElem hlt
        rw [hget, h.quotes _ _ (hbegins i _ hget) q hq]
      · exact h.colons _ (hbegins i ':' hget)

/-- In a line no code follows a remark. -/
theorem foldl_step_remark {t : Text} (hfeed : '\n' ∉ t) (hreturn : '\r' ∉ t) :
    ∀ depth, (t.foldl Spot.step ⟨.remark, depth⟩).place = .remark := by
  induction t with
  | nil => exact fun _ => rfl
  | cons c t ih =>
      intro depth
      rw [List.mem_cons, not_or] at hfeed hreturn
      have hc : Place.remark.step c = .remark := by
        have hends : Place.endsLine c = false := by
          unfold Place.endsLine
          simp [Ne.symm hfeed.1, Ne.symm hreturn.1]
        rw [Place.step, hends]
        rfl
      rw [List.foldl_cons, Spot.step, hc]
      exact ih hfeed.2 hreturn.2 _

/-- Behind code a remark begins. -/
theorem step_remark_of_inCode {place : Place} (hcode : inCode place = true) :
    place.step '#' = .remark := by
  cases place with
  | code => rfl
  | doubled q => cases q <;> rfl
  | _ => cases hcode

/-- No remark is in front of code on its line. -/
theorem ne_remark_of_inCode {front back : Text} (hfeed : '\n' ∉ back)
    (hreturn : '\r' ∉ back) (h : inCode (spot (front ++ back)).place = true) :
    (spot front).place ≠ .remark := by
  intro hremark
  have hspot : spot (front ++ back) = back.foldl Spot.step (spot front) := by
    unfold spot
    rw [List.foldl_append]
  have hfront : spot front = ⟨.remark, (spot front).depth⟩ := by
    rw [← hremark]
  rw [hspot, hfront, foldl_step_remark hfeed hreturn] at h
  cases h

namespace InStep

variable {place : Place} {mode : Mode} {q : Quote} {c : Char}

theorem ofCode (hc : c ≠ '#') : InStep (Place.ofCode c) (Mode.ofCode c) := by
  unfold Place.ofCode Mode.ofCode
  rw [if_neg hc]
  split
  · exact .opened _
  split
  · exact .opened _
  · exact .code

theorem ofShort (hends : Place.endsLine c = false) :
    InStep (Place.ofShort q c) (Mode.ofString q c) := by
  have hquote : q.char ≠ '\\' := by cases q <;> decide
  unfold Place.ofShort Mode.ofString
  rw [hends, Bool.or_false]
  by_cases hc : c = q.char
  · rw [if_pos (decide_eq_true hc), hc, if_neg hquote, if_pos rfl]
    exact .code
  · rw [if_neg (by simpa using hc), if_neg hc]
    split
    · exact .shortEscape q
    · exact .short q

/-- In step, both are in code or neither. -/
theorem mode_eq_code (h : InStep place mode) (hcode : inCode place = true) :
    mode = .code := by
  cases h <;> first | rfl | cases hcode

/-- A character of a line keeps machine and grammar in step, if it hides no place
and does not end the code. -/
theorem step {depth : Nat} (h : InStep place mode) (hends : Place.endsLine c = false)
    (hquotes : ∀ q ∈ quoteDue? place, c = q.char)
    (hgoesOn : inCode place = true → ¬ (c = '#' ∨ c = ':' ∧ depth = 0)) :
    ∃ s', Plain.step ⟨mode, depth⟩ c = some s' ∧ InStep (place.step c) s'.mode
      ∧ s'.depth = (Spot.step ⟨place, depth⟩ c).depth := by
  have hofCode : ∀ q : Quote, Mode.ofCode q.char = .within q := by
    intro q
    cases q <;> rfl
  have hofString : ∀ q : Quote, Mode.ofString q q.char = .code := by
    intro q
    cases q <;> rfl
  cases h with
  | code =>
      exact ⟨_, if_neg (hgoesOn rfl), ofCode (not_or.1 (hgoesOn rfl)).1, rfl⟩
  | opened q =>
      refine ⟨_, rfl, ?_, rfl⟩
      rw [Place.step]
      by_cases hc : c = q.char
      · rw [if_pos hc, hc, hofString]
        exact .doubled q
      · rw [if_neg hc]
        exact ofShort hends
  | doubled q =>
      refine ⟨_, if_neg (hgoesOn rfl), ?_, rfl⟩
      rw [Place.step]
      by_cases hc : c = q.char
      · rw [if_pos hc, hc, hofCode]
        exact .long q
      · rw [if_neg hc]
        exact ofCode (not_or.1 (hgoesOn rfl)).1
  | short q => exact ⟨_, rfl, ofShort hends, rfl⟩
  | shortEscape q => exact ⟨_, rfl, .short q, rfl⟩
  | long q =>
      refine ⟨_, rfl, ?_, rfl⟩
      rw [Place.step]
      by_cases hc : c = q.char
      · rw [if_pos hc, if_neg (by decide), hc, hofString]
        exact .longOne q
      · unfold Mode.ofString
        rw [if_neg hc, if_neg hc]
        split
        · exact .longEscape q
        · exact .long q
  | longOne q =>
      obtain rfl := hquotes q rfl
      refine ⟨⟨.within q, depth⟩, ?_, ?_, rfl⟩
      · cases q <;> rfl
      · rw [Place.step, if_pos rfl, if_neg (by decide)]
        exact .longTwo q
  | longTwo q =>
      obtain rfl := hquotes q rfl
      refine ⟨_, rfl, ?_, rfl⟩
      rw [Place.step, if_pos rfl, if_pos rfl, hofString]
      exact .code
  | longEscape q => exact ⟨_, rfl, .long q, rfl⟩

end InStep

/-- The machine gets through a tidy header, in step with the grammar. -/
theorem exists_read_of_tidy {head front : Text} (htidy : Tidy head)
    (hcloses : IsOutmost head) (hfront : front <+: head) :
    ∃ s, Plain.start.read front = some s ∧ InStep (spot front).place s.mode
      ∧ s.depth = (spot front).depth := by
  induction front using List.reverseRecOn with
  | nil => exact ⟨Plain.start, rfl, .code, rfl⟩
  | append_singleton front c ih =>
      obtain ⟨s, hread, hstep, hdepth⟩ := ih ((List.prefix_append ..).trans hfront)
      obtain ⟨back, hback⟩ := hfront
      have hsub : ∀ d ∈ c :: back, d ∈ head := by
        intro d hd
        rw [← hback, List.append_assoc]
        exact List.mem_append_right _ hd
      have hends : Place.endsLine c = false := by
        have hc := hsub c (List.mem_cons_self ..)
        unfold Place.endsLine
        rw [Bool.or_eq_false_iff, beq_eq_false_iff_ne, beq_eq_false_iff_ne]
        exact ⟨fun h => htidy.oneLine.1 (h ▸ hc), fun h => htidy.oneLine.2 (h ▸ hc)⟩
      have hgoesOn : inCode (spot front).place = true →
          ¬ (c = '#' ∨ c = ':' ∧ (spot front).depth = 0) := by
        rintro hcode (rfl | ⟨rfl, hzero⟩)
        · have hremark : (spot (front ++ ['#'])).place = .remark := by
            rw [spot_concat]
            exact step_remark_of_inCode hcode
          have hfeed : '\n' ∉ back :=
            fun h => htidy.oneLine.1 (hsub _ (List.mem_cons_of_mem _ h))
          have hreturn : '\r' ∉ back :=
            fun h => htidy.oneLine.2 (hsub _ (List.mem_cons_of_mem _ h))
          exact ne_remark_of_inCode hfeed hreturn (hback.symm ▸ hcloses.1) hremark
        · exact htidy.colons front ⟨back, hback⟩ ⟨hcode, hzero⟩
      rw [← hdepth] at hgoesOn
      obtain ⟨s', hs', hstep', hdepth'⟩ := hstep.step hends
        (htidy.quotes front c ⟨back, hback⟩) hgoesOn
      refine ⟨s', ?_, ?_, ?_⟩
      · rw [Plain.read_concat, hread]
        exact hs'
      · rw [spot_concat]
        exact hstep'
      · rw [spot_concat, hdepth', hdepth]

/-- In code it takes the place for code and counts its brackets. -/
theorem read_of_tidy {head front : Text} (htidy : Tidy head) (hcloses : IsOutmost head)
    (hfront : front <+: head) (hcode : inCode (spot front).place = true) :
    Plain.start.read front = some ⟨.code, (spot front).depth⟩ := by
  obtain ⟨⟨mode, depth⟩, hread, hstep, hdepth⟩ := exists_read_of_tidy htidy hcloses hfront
  have hmode : mode = .code := hstep.mode_eq_code hcode
  rw [hread, hmode, ← hdepth]

end Signature

end SourceDigest
