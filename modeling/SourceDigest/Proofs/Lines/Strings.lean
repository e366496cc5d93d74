/-
Triple-quoted strings, and the lines that are counted behind them.

A Python text is read here character by character, as its grammar has it
(`Literal.Place.step`): a string is opened wherever a quote stands that is in
no other string and in no remark, and a backslash takes the next character
along. A text is closed when it ends in no triple-quoted string
(`Literal.Closed`). The classes of lines are told without reading strings:
what opens a block is sought at the beginning of a line alone, what closes it
anywhere. So the two may go out of step, and then lines of code behind a
closed string are counted as comments.

They stay in step as long as no line hides what it does to strings
(`Literal.Apparent`): a string that goes on behind its line begins that line, a
triple quote that a line begins with opens a string, and a triple quote in a
string ends it. Each such line keeps the reader in the string that the
classifier takes itself to be in (`Literal.InStep.readLine`), and so do all of
them (`Literal.InStep.read`).
-/
import Mathlib
import SourceDigest.Proofs.Lines.Sums

namespace SourceDigest

namespace Literal

open LineClass (tripleQuotes)

-- ===================================================================== reading

/-- What a string stands between. -/
inductive Quote where
  | double
  | single
deriving DecidableEq

namespace Quote

def char : Quote → Char
  | double => '"'
  | single => '\x27'

/-- What a string over several lines stands between. -/
def triple (q : Quote) : Text := List.replicate 3 q.char

end Quote

/-- Where a reader of strings stands. -/
inductive Place where
  | code
  | remark
  /-- Behind one quote. -/
  | opened (q : Quote)
  /-- Behind two quotes, an empty string unless a third follows. -/
  | doubled (q : Quote)
  | short (q : Quote)
  | shortEscape (q : Quote)
  /-- In a triple-quoted string, with so many quotes of its end met. -/
  | long (q : Quote) (met : Nat)
  | longEscape (q : Quote)
deriving DecidableEq

namespace Place

def endsLine (c : Char) : Bool := c == '\n' || c == '\r'

/-- The place behind a character of code. -/
def ofCode (c : Char) : Place :=
  if c = '#' then remark
  else if c = Quote.double.char then opened .double
  else if c = Quote.single.char then opened .single
  else code

/-- The place behind a character of a string on one line. -/
def ofShort (q : Quote) (c : Char) : Place :=
  if c = q.char || endsLine c then code
  else if c = '\\' then shortEscape q
  else short q

def step : Place → Char → Place
  | code, c => ofCode c
  | remark, c => if endsLine c then code else remark
  | opened q, c => if c = q.char then doubled q else ofShort q c
  | doubled q, c => if c = q.char then long q 0 else ofCode c
  | short q, c => ofShort q c
  | shortEscape q, _ => short q
  | long q met, c =>
    if c = q.char then if met = 2 then code else long q (met + 1)
    else if c = '\\' then longEscape q
    else long q 0
  | longEscape q, _ => long q 0

/-- What closes the triple-quoted string that a place lies in. -/
def closing? : Place → Option Text
  | long q _ | longEscape q => some q.triple
  | _ => none

/-- The place behind a line and its end. -/
def readLine (place : Place) (line : Text) : Place := (line ++ ['\n']).foldl step place

/-- The place behind some lines. -/
def read (place : Place) (ls : List Text) : Place := ls.foldl readLine place

end Place

/-- Every triple-quoted string that is opened in a text is closed in it. -/
def Closed (text : Text) : Prop := (Place.code.read (Text.lines text)).closing? = none

instance (text : Text) : Decidable (Closed text) :=
  inferInstanceAs (Decidable (_ = _))

/-- A line that does not hide what it does to triple-quoted strings. -/
structure Apparent (place : Place) (line : Text) : Prop where
  /-- A string that it leaves open is the one that it begins with. -/
  begins : place.closing? = none →
    ∀ quote ∈ tripleQuotes, (place.readLine line).closing? = some quote →
      quote <+: Text.trim line ∧ ¬ quote <:+: (Text.trim line).drop 3
  /-- A triple quote that it begins with, and that it does not hold again,
  opens a string. -/
  opens : place.closing? = none →
    ∀ quote ∈ tripleQuotes, quote <+: Text.trim line →
      ¬ quote <:+: (Text.trim line).drop 3 → place = .code
  /-- The quote of a string that it lies in ends the string. -/
  ends : ∀ quote ∈ tripleQuotes, place.closing? = some quote → quote <:+: line →
    (place.readLine line).closing? = none

instance (place : Place) (line : Text) : Decidable (Apparent place line) :=
  decidable_of_iff (_ ∧ _ ∧ _)
    ⟨fun h => ⟨h.1, h.2.1, h.2.2⟩, fun h => ⟨h.begins, h.opens, h.ends⟩⟩

/-- Lines none of which hides what it does to triple-quoted strings. -/
def AllApparent : Place → List Text → Prop
  | _, [] => True
  | place, line :: ls => Apparent place line ∧ AllApparent (place.readLine line) ls

def AllApparent.decide : (place : Place) → (ls : List Text) →
    Decidable (AllApparent place ls)
  | _, [] => .isTrue trivial
  | place, line :: ls =>
    have := AllApparent.decide (place.readLine line) ls
    inferInstanceAs (Decidable (_ ∧ _))

instance (place : Place) (ls : List Text) : Decidable (AllApparent place ls) :=
  AllApparent.decide place ls

variable {q : Quote} {place : Place} {inside : Option Text} {line tail t : Text}
  {ls : List Text}

-- ====================================================================== quotes

theorem mem_tripleQuotes_iff {quote : Text} :
    quote ∈ tripleQuotes ↔ ∃ q : Quote, quote = q.triple := by
  constructor
  · intro h
    rcases List.mem_pair.1 h with rfl | rfl
    · exact ⟨.double, rfl⟩
    · exact ⟨.single, rfl⟩
  · rintro ⟨q, rfl⟩
    cases q <;> decide

theorem Quote.triple_mem (q : Quote) : q.triple ∈ tripleQuotes :=
  mem_tripleQuotes_iff.2 ⟨q, rfl⟩

/-- What closes a block is one of the triple quotes. -/
theorem Place.mem_of_closing? {quote : Text} (h : place.closing? = some quote) :
    quote ∈ tripleQuotes := by
  cases place <;> cases h <;> exact Quote.triple_mem _

/-- A text begins with one triple quote at most. -/
theorem eq_of_isPrefix {quote quote' : Text} (h : quote ∈ tripleQuotes)
    (h' : quote' ∈ tripleQuotes) (ht : quote <+: t) (ht' : quote' <+: t) :
    quote = quote' := by
  obtain ⟨q, rfl⟩ := mem_tripleQuotes_iff.1 h
  obtain ⟨q', rfl⟩ := mem_tripleQuotes_iff.1 h'
  exact (List.prefix_of_prefix_length_le ht ht' (le_of_eq rfl)).eq_of_length rfl

-- ===================================================================== strings

/-- What holds no triple quote does not end a string: the reader stays in it,
having met the quotes that the text ends with. -/
theorem foldl_step_long (h : ¬ q.triple <:+: t) :
    t.foldl Place.step (.long q 0) = .longEscape q
      ∨ ∃ met < 3, t.foldl Place.step (.long q 0) = .long q met
        ∧ List.replicate met q.char <:+ t := by
  induction t using List.reverseRecOn with
  | nil => exact .inr ⟨0, by decide, rfl, List.nil_suffix⟩
  | append_singleton t c ih =>
      rw [List.foldl_append, List.foldl_cons, List.foldl_nil]
      have hfirst : ¬ q.triple <:+: t := fun ht =>
        h (ht.trans (List.prefix_append ..).isInfix)
      have hnone : List.replicate 0 q.char <:+ t ++ [c] := List.nil_suffix
      rcases ih hfirst with hescape | ⟨met, hmet, hlong, hsuffix⟩
      · rw [hescape]
        exact .inr ⟨0, by decide, rfl, hnone⟩
      · rw [hlong, Place.step]
        by_cases hc : c = q.char
        · have hmore : List.replicate (met + 1) q.char <:+ t ++ [c] := by
            rw [List.replicate_succ', hc]
            exact (List.suffix_append_inj_of_length_eq rfl).2 ⟨hsuffix, rfl⟩
          have hne : met ≠ 2 := by
            rintro rfl
            exact h hmore.isInfix
          rw [if_pos hc, if_neg hne]
          exact .inr ⟨met + 1, by omega, rfl, hmore⟩
        · rw [if_neg hc]
          split
          · exact .inl rfl
          · exact .inr ⟨0, by decide, rfl, hnone⟩

/-- A line that holds no triple quote lies in the string as a whole. -/
theorem readLine_long (h : ¬ q.triple <:+: line) :
    (Place.long q 0).readLine line = .long q 0 := by
  have hfeed : ('\n' : Char) ≠ q.char := by cases q <;> decide
  unfold Place.readLine
  rw [List.foldl_append, List.foldl_cons, List.foldl_nil]
  rcases foldl_step_long h with hescape | ⟨met, -, hlong, -⟩
  · rw [hescape, Place.step]
  · rw [hlong, Place.step, if_neg hfeed, if_neg (by decide)]

/-- Blanks open nothing. -/
theorem foldl_step_blanks (h : ∀ c ∈ t, Text.isBlank c = true) :
    t.foldl Place.step .code = .code := by
  induction t with
  | nil => rfl
  | cons c t ih =>
      have hc : Text.isBlank c = true := h c (List.mem_cons_self ..)
      have hcode : Place.ofCode c = .code := by
        unfold Place.ofCode
        rw [if_neg, if_neg, if_neg] <;> rintro rfl <;> revert hc <;> decide
      rw [List.foldl_cons, Place.step, hcode]
      exact ih fun c hc => h c (List.mem_cons_of_mem _ hc)

/-- A triple quote at the beginning of a line opens a string, which goes on
behind the line unless the line holds its quote again. -/
theorem readLine_opens (hline : Text.trim line = q.triple ++ tail)
    (htail : ¬ q.triple <:+: tail) : Place.code.readLine line = .long q 0 := by
  obtain ⟨front, back, heq, hfront, hback⟩ := Text.exists_eq_trim line
  have hclear := LineClass.clear_of_mem_tripleQuotes q.triple_mem
  have hrest : ¬ q.triple <:+: tail ++ back := by
    intro hinfix
    have htrim := Text.isInfix_trimEndOf hclear.1 hclear.2 hinfix
    rw [Text.trimEndOf_append_of_forall hback] at htrim
    exact htail (htrim.trans (Text.trimEndOf_isPrefix ..).isInfix)
  have hquote : q.triple.foldl Place.step .code = .long q 0 := by
    cases q <;> decide
  have hread := readLine_long hrest
  unfold Place.readLine at hread ⊢
  rw [heq, hline, List.append_assoc, List.append_assoc, List.append_assoc,
    List.foldl_append, foldl_step_blanks hfront, List.foldl_append, hquote,
    ← List.append_assoc]
  exact hread

-- ===================================================================== in step

/-- The reader lies in the string that the classifier takes itself to be in, or
neither lies in one. -/
inductive InStep : Place → Option Text → Prop
  | outside {place : Place} : place.closing? = none → InStep place none
  | within (q : Quote) : InStep (.long q 0) (some q.triple)

/-- In step, both wait for the same closing. -/
theorem InStep.closing?_eq (h : InStep place inside) : place.closing? = inside := by
  cases h with
  | outside hplace => exact hplace
  | within q => rfl

/-- Outside of strings a line leaves none open that it does not begin with. -/
theorem Apparent.closing?_eq_none (h : Apparent place line)
    (hplace : place.closing? = none)
    (hquotes : ∀ quote ∈ tripleQuotes, quote <+: Text.trim line →
      quote <:+: (Text.trim line).drop 3) : (place.readLine line).closing? = none := by
  refine Option.eq_none_iff_forall_ne_some.2 fun quote hopen => ?_
  have hquote := Place.mem_of_closing? hopen
  obtain ⟨hbegins, honce⟩ := h.begins hplace quote hquote hopen
  exact honce (hquotes quote hquote hbegins)

/-- A line that hides nothing keeps them in step. -/
theorem InStep.readLine (h : InStep place inside) (hline : Apparent place line) :
    InStep (place.readLine line)
      (LineClass.of Language.python.comments inside line).2 := by
  cases h with
  | within q =>
      rw [LineClass.of_python_inside q.triple_mem]
      split
      · rename_i hholds
        exact .outside (hline.ends _ q.triple_mem rfl hholds)
      · rename_i hholds
        rw [readLine_long hholds]
        exact .within q
  | outside hplace =>
      cases hopens : LineClass.opensBlock? Language.python.comments (Text.trim line) with
      | none =>
          rw [LineClass.of_opens_none hopens]
          have hquotes := LineClass.opensBlock?_python_eq_none_iff.1 hopens
          exact .outside (hline.closing?_eq_none hplace fun quote hquote hbegins =>
            absurd hbegins (hquotes quote hquote))
      | some pair =>
          obtain ⟨quote, tail⟩ := pair
          obtain ⟨hquote, htrim⟩ := LineClass.opensBlock?_python_iff.1 hopens
          obtain ⟨q, rfl⟩ := mem_tripleQuotes_iff.1 hquote
          have hbegins : q.triple <+: Text.trim line := ⟨tail, htrim.symm⟩
          have hdrop : (Text.trim line).drop 3 = tail := by
            rw [htrim]
            rfl
          rw [LineClass.of_python_opens hquote htrim]
          split
          · rename_i hholds
            refine .outside (hline.closing?_eq_none hplace
              fun quote' hquote' hbegins' => ?_)
            rwa [eq_of_isPrefix hquote' hquote hbegins' hbegins, hdrop]
          · rename_i hholds
            have hcode := hline.opens hplace _ hquote hbegins (by rwa [hdrop])
            rw [hcode, readLine_opens htrim hholds]
            exact .within q

/-- Line by line. -/
theorem InStep.read (h : InStep place inside) (hls : AllApparent place ls) :
    InStep (place.read ls) (LineClass.after Language.python.comments inside ls) := by
  induction ls generalizing place inside with
  | nil => exact h
  | cons line ls ih => exact ih (h.readLine hls.1) hls.2

/-- Where nothing is hidden, nothing is left open exactly by a closed text. -/
theorem after_eq_none_iff_closed {text : Text}
    (h : AllApparent .code (Text.lines text)) :
    LineClass.after Language.python.comments none (Text.lines text) = none
      ↔ Closed text := by
  have hstart : InStep .code none := .outside rfl
  unfold Closed
  rw [(hstart.read h).closing?_eq]

end Literal

-- ===================================================================== counts

namespace LineStats

open Literal

/-- A Python text that ends its last line. The counts of lines are those of
the text and those of what stands behind it, added up, for whatever may stand
there, exactly when every triple quote that a line outside of strings begins
with is met by the same one. Where no line hides what it does to strings, that
is exactly when every triple-quoted string that is opened in the text is closed
in it, wherever it starts. -/
theorem counts_add_iff {text : Text} (htext : text.getLast? = some '\n') :
    let adds := ∀ more, IsSum (collect .python text) (collect .python more)
      (collect .python (text ++ more))
    (adds ↔ LineClass.Settled (Text.lines text))
      ∧ (AllApparent .code (Text.lines text) → (adds ↔ Closed text)) := by
  intro adds
  have hadds : adds ↔ LineClass.after Language.python.comments none
      (Text.lines text) = none := collect_append_iff htext
  exact ⟨hadds.trans LineClass.after_python_eq_none_iff,
    fun h => hadds.trans (after_eq_none_iff_closed h)⟩

/-- A documentation string over three lines. -/
theorem counts_add_behind_documentation :
    let text : Text := "\"\"\"Module.\n\nMore.\n\"\"\"\nimport os\n"
    text.getLast? = some '\n' ∧ AllApparent .code (Text.lines text) ∧ Closed text
      ∧ ∀ more, IsSum (collect .python text) (collect .python more)
          (collect .python (text ++ more)) := by
  intro text
  have happarent : AllApparent .code (Text.lines text) := by decide
  have hclosed : Closed text := by decide
  exact ⟨rfl, happarent, hclosed, ((counts_add_iff rfl).2 happarent).2 hclosed⟩

/-- A string that starts behind other code is closed on the next line, which
begins with its quote and is taken to open another. -/
theorem counts_of_string_behind_code :
    let text : Text := "x = \"\"\"a\n\"\"\"\n"
    let more : Text := "y = 1\n"
    text.getLast? = some '\n' ∧ Closed text
      ∧ (collect .python text).code = 1 ∧ (collect .python more).code = 1
      ∧ (collect .python (text ++ more)).code = 1
      ∧ ¬ IsSum (collect .python text) (collect .python more)
          (collect .python (text ++ more)) := by
  intro text more
  have htext : (collect .python text).code = 1 := by
    rw [(sums_collect ..).code, map_snd_classified]
    decide
  have hmore : (collect .python more).code = 1 := by
    rw [(sums_collect ..).code, map_snd_classified]
    decide
  have hboth : (collect .python (text ++ more)).code = 1 := by
    rw [(sums_collect ..).code, map_snd_classified]
    decide
  refine ⟨rfl, by decide, htext, hmore, hboth, fun h => ?_⟩
  have hcode := h.code
  omega

end LineStats

end SourceDigest
