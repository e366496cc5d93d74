/-
JSON text read back.

What a text says is told by a reader (`read?`) that knows nothing of how it
was laid out: blanks may stand around every value, and every escape there is
may stand for a character. Numbers it reads are whole. So what it can give
back is data with neither other numbers nor moments (`Exact`), and that it
gives back from what is written for it (`read?_toJson`).

A reader takes a value from the front of a text and gives the rest. `Reads`
says that it takes what is written for a value from behind blanks, whatever
follows, as long as it is no digit. Lists and tables are one case, some
pieces between brackets (`exists_enclosed_bracketed`); with it the proof is
an induction on the value.
-/
import Mathlib
import SourceDigest.Data.Json
import SourceDigest.Data.Toml.Scalar

namespace SourceDigest

namespace Json

open Toml (Reader consChar charOf? ofDigits)

-- ==================================================================== readers

/-- What may stand around values. -/
def isSpace (c : Char) : Bool :=
  c == ' ' || c == '\t' || c == '\n' || c == '\r'

def skip (t : Text) : Text := t.dropWhile isSpace

/-- The character that an escape of one letter stands for. -/
def escaped? (c : Char) : Option Char :=
  if c = '/' then some c else Toml.escaped? c

/-- What stands before the closing quote of a text; control characters must
not. -/
def quotedBody : Reader Text
  | [] => none
  | '"' :: rest => some ([], rest)
  | '\\' :: 'u' :: a :: b :: c :: d :: rest =>
    (charOf? [a, b, c, d]).bind fun x => consChar x (quotedBody rest)
  | '\\' :: c :: rest => (escaped? c).bind fun x => consChar x (quotedBody rest)
  | c :: rest => if c.toNat < 0x20 then none else consChar c (quotedBody rest)

/-- A number without a sign. -/
def natural? : Reader Nat := fun t =>
  let digits := t.takeWhile Char.isDigit
  if digits = [] then none
  else some (ofDigits 10 digits, t.dropWhile Char.isDigit)

/-- A whole number. -/
def integer? : Reader Int
  | '-' :: rest => (natural? rest).map (Prod.map (fun n : Nat => -(n : Int)) id)
  | t => (natural? t).map (Prod.map (fun n : Nat => (n : Int)) id)

/-- The values that have names. -/
def words : List (Text × Datum) :=
  [("null", .null), ("true", .flag true), ("false", .flag false)]

def word? (t : Text) : Option (Datum × Text) :=
  words.findSome? fun (word, d) =>
    (Text.dropLead? word t).map fun rest => (d, rest)

variable {α : Type}

/-- Some items, at least one, with commas between them and a closing bracket
behind; `n` bounds how many there are. -/
def series (closing : Char) (item : Reader α) : (n : Nat) → Reader (List α)
  | 0, _ => none
  | n + 1, t =>
    (item t).bind fun (a, rest) =>
      match skip rest with
      | [] => none
      | c :: rest =>
        if c = closing then some ([a], rest)
        else if c = ',' then
          (series closing item n rest).map fun (as, rest) => (a :: as, rest)
        else none

/-- What stands behind an opening bracket. -/
def enclosed (closing : Char) (item : Reader α) : Reader (List α) := fun t =>
  if (skip t).head? = some closing then some ([], (skip t).tail)
  else series closing item t.length t

/-- A field: its name in quotes, a colon and its value. -/
def field (value : Reader Datum) : Reader (Text × Datum) := fun t =>
  match skip t with
  | '"' :: rest =>
    (quotedBody rest).bind fun (name, rest) =>
      match skip rest with
      | ':' :: rest => (value rest).map fun (d, rest) => ((name, d), rest)
      | _ => none
  | _ => none

/-- A value; `n` bounds how deep it may be. -/
def value? : (n : Nat) → Reader Datum
  | 0, _ => none
  | n + 1, t =>
    match skip t with
    | [] => none
    | c :: rest =>
      if c = '"' then (quotedBody rest).map (Prod.map .text id)
      else if c = '[' then (enclosed ']' (value? n) rest).map (Prod.map .list id)
      else if c = '\x7b' then
        (enclosed '\x7d' (field (value? n)) rest).map (Prod.map .table id)
      else (word? (c :: rest)).or
        ((integer? (c :: rest)).map (Prod.map .integer id))

/-- The value of a whole text. -/
def read? (t : Text) : Option Datum :=
  (value? (t.length + 1) t).bind fun (d, rest) =>
    if skip rest = [] then some d else none

-- ===================================================================== reading

/-- Whether a text does not go on with a digit. -/
def EndsNumber (rest : Text) : Prop := ∀ c ∈ rest.head?, c.isDigit = false

/-- Whether a reader takes a text for a value, from behind blanks. -/
def Reads (item : Reader α) (t : Text) (a : α) : Prop :=
  ∀ blanks rest, blanks.all isSpace = true → EndsNumber rest →
    item (blanks ++ (t ++ rest)) = some (a, rest)

variable {item : Reader α} {write : α → Text} {items : List α}
  {closing opening : Char} {rest t : Text} {level n : Nat}

/-- Blanks are passed over. -/
theorem skip_append {blanks : Text} (h : blanks.all isSpace = true) (t : Text) :
    skip (blanks ++ t) = skip t :=
  List.dropWhile_append_of_pos (List.all_eq_true.1 h)

/-- Nothing else is. -/
theorem skip_cons {c : Char} (h : isSpace c = false) (t : Text) :
    skip (c :: t) = c :: t :=
  List.dropWhile_cons_of_neg (by simp [h])

theorem all_isSpace_newLine (level : Nat) :
    (newLine level).all isSpace = true := by
  unfold newLine
  simp [isSpace]

theorem endsNumber_cons {c : Char} (h : c.isDigit = false) :
    EndsNumber (c :: rest) := by
  intro d hd
  rwa [← Option.some.inj hd]

-- ==================================================================== numbers

/-- The digits of a number give the number. -/
theorem ofDigits_ofNat (n : Nat) : ofDigits 10 (Text.ofNat n) = n := by
  induction n using Nat.strongRecOn with
  | ind n ih =>
    have hdigit : ∀ d < 10, (Toml.digitValue? (Nat.digitChar d)).getD 0 = d := by
      decide
    unfold Text.ofNat at ih ⊢
    by_cases h : n < 10
    · rw [Nat.toDigits_of_lt_base h]
      simp only [ofDigits, List.foldl_cons, List.foldl_nil, hdigit n h]
      omega
    · have hrest := ih (n / 10) (by omega)
      rw [Nat.toDigits_of_base_le (by decide) (by omega)]
      unfold ofDigits at hrest ⊢
      rw [List.foldl_append, hrest, List.foldl_cons, List.foldl_nil,
        hdigit _ (Nat.mod_lt n (by decide))]
      omega

theorem isDigit_of_mem_ofNat {c : Char} (h : c ∈ Text.ofNat n) :
    c.isDigit = true :=
  Nat.isDigit_of_mem_toDigits (by decide) (by decide) h

/-- A number without a sign is read back up to what is no digit. -/
theorem natural?_ofNat (n : Nat) (h : EndsNumber rest) :
    natural? (Text.ofNat n ++ rest) = some (n, rest) := by
  have hne : Text.ofNat n ≠ [] := Nat.toDigits_ne_nil
  have hrest : rest.takeWhile Char.isDigit = []
      ∧ rest.dropWhile Char.isDigit = rest := by
    cases rest with
    | nil => exact ⟨rfl, rfl⟩
    | cons c rest => simp [h c rfl]
  unfold natural?
  dsimp only
  rw [List.takeWhile_append_of_pos fun _ => isDigit_of_mem_ofNat,
    List.dropWhile_append_of_pos fun _ => isDigit_of_mem_ofNat, hrest.1,
    hrest.2, List.append_nil, if_neg hne, ofDigits_ofNat]

/-- So is a number with one. -/
theorem integer?_integerText (i : Int) (h : EndsNumber rest) :
    integer? (integerText i ++ rest) = some (i, rest) := by
  unfold integerText
  by_cases hneg : i < 0
  · rw [if_pos hneg, List.cons_append, integer?, natural?_ofNat _ h,
      Option.map_some, Prod.map_apply, id]
    congr 2
    omega
  · rw [if_neg hneg]
    have hread := natural?_ofNat i.natAbs h
    cases ht : Text.ofNat i.natAbs with
    | nil => exact absurd ht Nat.toDigits_ne_nil
    | cons c cs =>
      rw [ht, List.cons_append] at hread
      have hc : c ≠ '-' := by
        rintro rfl
        have := isDigit_of_mem_ofNat (ht ▸ List.mem_cons_self)
        revert this
        decide
      rw [List.cons_append, integer?, hread, Option.map_some, Prod.map_apply, id]
      · congr 2
        omega
      · intro rest he
        exact hc (List.cons.inj he).1

-- ====================================================================== texts

/-- A control character is read back from its code in hexadecimal. -/
theorem quotedBody_control {n : Nat} (h : n < 0x20) (t : Text) :
    quotedBody ("\\u00".toList ++ [Nat.digitChar (n / 16), Nat.digitChar (n % 16)]
        ++ t) = consChar (Char.ofNat n) (quotedBody t) := by
  interval_cases n <;> rfl

/-- A character is read back from what is written for it, be it an escape or
not. -/
theorem quotedBody_quotedChar (c : Char) (t : Text) :
    quotedBody (quotedChar c ++ t) = consChar c (quotedBody t) := by
  unfold quotedChar
  split
  · rfl
  · rfl
  · rfl
  · rfl
  · rfl
  · rfl
  · rfl
  · next hquote hslash _ _ _ _ _ =>
    split
    · next hlow =>
      rw [quotedBody_control hlow, Char.ofNat_toNat]
    · next hlow =>
      rw [List.singleton_append, quotedBody, if_neg hlow]
      · exact hquote
      · exact fun _ _ _ _ _ he _ => hslash he
      · exact fun _ _ he _ => hslash he

/-- A text in quotes is read back. -/
theorem quotedBody_flatMap (t rest : Text) :
    quotedBody (t.flatMap quotedChar ++ '"' :: rest) = some (t, rest) := by
  induction t with
  | nil => rw [List.flatMap_nil, List.nil_append, quotedBody]
  | cons c t ih =>
    rw [List.flatMap_cons, List.append_assoc, quotedBody_quotedChar, ih]
    rfl

-- =================================================================== brackets

/-- Blanks end a number. -/
theorem endsNumber_append {blanks : Text} (h : blanks.all isSpace = true)
    (hrest : EndsNumber rest) : EndsNumber (blanks ++ rest) := by
  cases blanks with
  | nil => exact hrest
  | cons c blanks =>
    rw [List.all_cons, Bool.and_eq_true] at h
    refine endsNumber_cons ?_
    simp only [isSpace, Bool.or_eq_true, beq_iff_eq] at h
    rcases h.1 with ((rfl | rfl) | rfl) | rfl <;> rfl

/-- Items with commas between them are read up to the closing bracket. -/
theorem series_join (level : Nat) (rest : Text)
    (hclosing : closing = ']' ∨ closing = '\x7d')
    (hitem : ∀ a ∈ items, Reads item (write a) a) (hne : items ≠ [])
    (hlen : items.length ≤ n) {blanks back : Text}
    (hblanks : blanks.all isSpace = true) (hback : back.all isSpace = true) :
    series closing item n
        (blanks ++ (Text.join (',' :: newLine level) (items.map write)
          ++ (back ++ closing :: rest)))
      = some (items, rest) := by
  have hspace : isSpace closing = false := by
    rcases hclosing with rfl | rfl <;> rfl
  have hdigit : closing.isDigit = false := by
    rcases hclosing with rfl | rfl <;> rfl
  have hcomma : ',' ≠ closing := by
    rcases hclosing with rfl | rfl <;> decide
  induction items generalizing n blanks with
  | nil => exact absurd rfl hne
  | cons a items ih =>
    obtain ⟨n, rfl⟩ : ∃ m, n = m + 1 :=
      Nat.exists_eq_add_one.2 ((Nat.succ_pos _).trans_le hlen)
    have ha := hitem a List.mem_cons_self
    -- the last item ends at the bracket, any other at a comma
    cases items with
    | nil =>
      have hends : EndsNumber (back ++ closing :: rest) :=
        endsNumber_append hback (endsNumber_cons hdigit)
      rw [List.map_singleton, Text.join, series, ha _ _ hblanks hends]
      simp only [Option.bind_some, skip_append hback, skip_cons hspace, if_true]
    | cons b items =>
      have hrest := ih (fun c hc => hitem c (List.mem_cons_of_mem _ hc))
        (List.cons_ne_nil _ _) (Nat.le_of_succ_le_succ hlen)
        (all_isSpace_newLine level)
      rw [List.map_cons, List.map_cons, Text.join, ← List.map_cons]
      simp only [List.append_assoc, List.cons_append]
      rw [series, ha _ _ hblanks (endsNumber_cons rfl)]
      · simp only [Option.bind_some, skip_cons (show isSpace ',' = false from rfl),
          if_neg hcomma, if_true, hrest, Option.map_some]
      · exact List.cons_ne_nil _ _

/-- Where no item is to be had there are no items. -/
theorem series_eq_none (closing : Char) (n : Nat) (h : item t = none) :
    series closing item n t = none := by
  cases n with
  | zero => rfl
  | succ n => rw [series, h, Option.bind_none]

/-- Between two pieces there is a character at least. -/
theorem length_le_join (c : Char) (sep : Text) (pieces : List Text) :
    pieces.length ≤ (Text.join (c :: sep) pieces).length + 1 := by
  induction pieces with
  | nil => simp
  | cons p pieces ih =>
    cases pieces with
    | nil => simp
    | cons q pieces =>
      rw [Text.join]
      · simp only [List.length_append, List.length_cons] at ih ⊢
        omega
      · exact List.cons_ne_nil _ _

/-- Brackets are longer than what stands between them. -/
theorem length_lt_bracketed (opening closing : Char) (level : Nat)
    {pieces : List Text} {piece : Text} (h : piece ∈ pieces) :
    piece.length < (bracketed opening closing level pieces).length := by
  have hjoin (sep : Text) : piece.length ≤ (Text.join sep pieces).length := by
    induction pieces with
    | nil => cases h
    | cons p pieces ih =>
      cases pieces with
      | nil =>
        rw [List.mem_singleton.1 h, Text.join]
      | cons q pieces =>
        rw [Text.join]
        · simp only [List.length_append]
          rcases List.mem_cons.1 h with rfl | h
          · omega
          · have := ih h
            omega
        · exact List.cons_ne_nil _ _
  have hle := hjoin (',' :: newLine (level + 1))
  unfold bracketed
  rw [if_neg (List.ne_nil_of_mem h)]
  simp only [List.length_append, List.length_singleton]
  omega

/-- What is written between brackets is read back, if the items are. -/
theorem exists_enclosed_bracketed (hclosing : closing = ']' ∨ closing = '\x7d')
    (hitem : ∀ a ∈ items, Reads item (write a) a)
    (hend : ∀ t, (skip t).head? = some closing → item t = none)
    (opening : Char) (level : Nat) :
    ∃ body, bracketed opening closing level (items.map write)
        = opening :: body
      ∧ ∀ rest, enclosed closing item (body ++ rest) = some (items, rest) := by
  have hspace : isSpace closing = false := by
    rcases hclosing with rfl | rfl <;> rfl
  by_cases hnil : items = []
  · -- no items have no blanks between the brackets either
    subst hnil
    refine ⟨[closing], rfl, fun rest => ?_⟩
    rw [enclosed, List.singleton_append, skip_cons hspace, List.head?_cons,
      if_pos rfl, List.tail_cons]
  · have hpieces : items.map write ≠ [] := by simpa using hnil
    refine ⟨newLine (level + 1)
      ++ (Text.join (',' :: newLine (level + 1)) (items.map write)
        ++ (newLine level ++ [closing])), ?_, fun rest => ?_⟩
    · unfold bracketed
      rw [if_neg hpieces]
      simp only [List.append_assoc, List.cons_append, List.nil_append]
    · have hlen := length_le_join ',' (newLine (level + 1)) (items.map write)
      rw [List.length_map] at hlen
      have hread (n : Nat) (hn : items.length ≤ n) :=
        series_join (level + 1) rest hclosing hitem hnil hn
          (all_isSpace_newLine (level + 1)) (all_isSpace_newLine level)
      simp only [List.append_assoc, List.singleton_append]
      -- the closing bracket does not follow at once: it is no item
      rw [enclosed, if_neg fun hhead => ?_, hread]
      · simp only [List.length_append, List.length_cons]
        omega
      · have hnone := series_eq_none closing items.length (hend _ hhead)
        rw [hread _ le_rfl] at hnone
        cases hnone

-- ===================================================================== values

/-- Blanks in front of a value are passed over. -/
theorem value?_append {blanks : Text} (h : blanks.all isSpace = true)
    (t : Text) : value? n (blanks ++ t) = value? n t := by
  cases n with
  | zero => rfl
  | succ n => rw [value?, value?, skip_append h]

/-- What begins with a sign or a digit is read as a number. -/
theorem value?_cons {c : Char} (hc : (c == '-' || c.isDigit) = true)
    (t : Text) : value? (n + 1) (c :: t)
      = (integer? (c :: t)).map (Prod.map .integer id) := by
  have hne (x : Char) (hx : (x == '-' || x.isDigit) = false) : c ≠ x := by
    rintro rfl
    rw [hc] at hx
    cases hx
  have hspace : isSpace c = false := by
    simp [isSpace, hne ' ' rfl, hne '\t' rfl, hne '\n' rfl, hne '\r' rfl]
  have hword : word? (c :: t) = none := by
    simp [word?, words, Text.dropLead?, (hne 'n' rfl).symm, (hne 't' rfl).symm,
      (hne 'f' rfl).symm]
  rw [value?, skip_cons hspace]
  dsimp only
  rw [if_neg (hne '"' rfl), if_neg (hne '[' rfl), if_neg (hne '\x7b' rfl), hword,
    Option.none_or]

/-- A number in front of what cannot belong to it is a value. -/
theorem value?_integerText (i : Int) (h : EndsNumber rest) :
    value? (n + 1) (integerText i ++ rest) = some (.integer i, rest) := by
  have hread := integer?_integerText i h
  obtain ⟨c, t, ht, hc⟩ : ∃ c t, integerText i = c :: t
      ∧ (c == '-' || c.isDigit) = true := by
    unfold integerText
    split
    · exact ⟨'-', _, rfl, rfl⟩
    · obtain ⟨c, t, ht⟩ := List.exists_cons_of_ne_nil
        (Nat.toDigits_ne_nil : Text.ofNat i.natAbs ≠ [])
      have hdigit := isDigit_of_mem_ofNat (ht ▸ List.mem_cons_self)
      exact ⟨c, t, ht, by rw [hdigit, Bool.or_true]⟩
  rw [ht, List.cons_append] at hread ⊢
  rw [value?_cons hc, hread]
  rfl

/-- A text in quotes is a value. -/
theorem value?_quoted (t rest : Text) :
    value? (n + 1) (quoted t ++ rest) = some (.text t, rest) := by
  have htext : quoted t ++ rest
      = '"' :: (t.flatMap quotedChar ++ '"' :: rest) := by
    simp [quoted]
  rw [value?, htext, skip_cons rfl]
  dsimp only
  rw [if_pos rfl, quotedBody_flatMap]
  rfl

/-- A closing bracket is no value. -/
theorem value?_eq_none {c : Char} (hc : c = ']' ∨ c = '\x7d')
    (h : (skip t).head? = some c) : value? n t = none := by
  cases n with
  | zero => rfl
  | succ n =>
    obtain ⟨rest, hrest⟩ := List.head?_eq_some_iff.1 h
    rw [value?, hrest]
    rcases hc with rfl | rfl <;> rfl

/-- A closing brace is no field. -/
theorem field_eq_none {value : Reader Datum} (h : (skip t).head? = some '\x7d') :
    field value t = none := by
  obtain ⟨rest, hrest⟩ := List.head?_eq_some_iff.1 h
  rw [field, hrest]
  rfl

/-- A field is read back if its value is. -/
theorem reads_field {value : Reader Datum} {d : Datum} (h : Reads value t d)
    (name : Text) : Reads (field value) (quoted name ++ ": " ++ t) (name, d) := by
  intro blanks rest hblanks hrest
  have hvalue := h [' '] rest rfl hrest
  have hname := quotedBody_flatMap name (':' :: ' ' :: (t ++ rest))
  have htext : quoted name ++ ": " ++ t ++ rest
      = '"' :: (name.flatMap quotedChar ++ '"' :: ':' :: ' ' :: (t ++ rest)) := by
    simp [quoted]
  rw [field, skip_append hblanks, htext, skip_cons rfl]
  simp only [hname, Option.bind_some]
  rw [skip_cons rfl]
  simp only [List.cons_append, List.nil_append] at hvalue
  simp only [hvalue, Option.map_some]

/-- Values between square brackets are a list. -/
theorem value?_list {items : List Datum} {write : Datum → Text}
    (hitem : ∀ d ∈ items, Reads (value? n) (write d) d) (level : Nat)
    (rest : Text) :
    value? (n + 1) (bracketed '[' ']' level (items.map write) ++ rest)
      = some (.list items, rest) := by
  obtain ⟨body, hbody, hread⟩ := exists_enclosed_bracketed (.inl rfl) hitem
    (fun t => value?_eq_none (.inl rfl)) '[' level
  rw [value?, hbody, List.cons_append, skip_cons rfl]
  dsimp only
  rw [if_neg (by decide), if_pos rfl, hread]
  rfl

/-- Fields between braces are a table. -/
theorem value?_table {fields : List (Text × Datum)}
    {write : Text × Datum → Text}
    (hfield : ∀ f ∈ fields, Reads (field (value? n)) (write f) f) (level : Nat)
    (rest : Text) :
    value? (n + 1) (bracketed '\x7b' '\x7d' level (fields.map write) ++ rest)
      = some (.table fields, rest) := by
  obtain ⟨body, hbody, hread⟩ := exists_enclosed_bracketed (.inr rfl) hfield
    (fun t => field_eq_none) '\x7b' level
  rw [value?, hbody, List.cons_append, skip_cons rfl]
  dsimp only
  rw [if_neg (by decide), if_neg (by decide), if_pos rfl, hread]
  rfl

/-- What is read with the depth that its length allows is read with any
greater one, from behind blanks. -/
theorem reads_value {d : Datum} (ht : t.length < n)
    (h : ∀ {m}, t.length ≤ m → ∀ {rest}, EndsNumber rest →
      value? (m + 1) (t ++ rest) = some (d, rest)) :
    Reads (value? n) t d := by
  intro blanks rest hblanks hrest
  obtain ⟨m, rfl⟩ : ∃ m, n = m + 1 := Nat.exists_eq_add_one.2 (by omega)
  rw [value?_append hblanks]
  exact h (by omega) hrest

end Json

namespace Datum

open Json

/-- Data without moments and with whole numbers only. -/
inductive Exact : Datum → Prop where
  | null : Exact null
  | flag (b : Bool) : Exact (flag b)
  | integer (n : Int) : Exact (integer n)
  | text (t : Text) : Exact (text t)
  | list {items : List Datum} : (∀ d ∈ items, Exact d) → Exact (list items)
  | table {fields : List (Text × Datum)} :
    (∀ f ∈ fields, Exact f.2) → Exact (table fields)

theorem Exact.nat (n : Nat) : Exact (nat n) := .integer n

theorem Exact.texts (ts : List Text) : Exact (texts ts) := by
  refine .list fun d hd => ?_
  obtain ⟨t, -, rfl⟩ := List.mem_map.1 hd
  exact .text t

theorem Exact.object {fields : List (String × Datum)}
    (h : ∀ f ∈ fields, Exact f.2) : Exact (object fields) := by
  refine .table fun f hf => ?_
  obtain ⟨g, hg, rfl⟩ := List.mem_map.1 hf
  exact h g hg

/-- The items of a list are written one by one. -/
theorem jsonItems_eq_map (level : Nat) (items : List Datum) :
    jsonItems level items = items.map (json level) := by
  induction items with
  | nil => rw [jsonItems, List.map_nil]
  | cons d items ih => rw [jsonItems, ih, List.map_cons]

/-- And so are the fields of a table, each behind its name. -/
theorem jsonFields_eq_map (level : Nat) (fields : List (Text × Datum)) :
    jsonFields level fields
      = fields.map fun f => quoted f.1 ++ ": " ++ json level f.2 := by
  induction fields with
  | nil => rw [jsonFields, List.map_nil]
  | cons f fields ih => rw [jsonFields, ih, List.map_cons]

/-- What is written for a value is read back, whatever follows. -/
theorem Exact.value?_json {d : Datum} (h : Exact d) {level n : Nat}
    (hn : (d.json level).length ≤ n) {rest : Text} (hrest : EndsNumber rest) :
    value? (n + 1) (d.json level ++ rest) = some (d, rest) := by
  induction h generalizing level n rest with
  | null => rw [json]; rfl
  | flag b =>
    rw [json]
    cases b <;> rfl
  | integer i =>
    rw [json]
    exact value?_integerText i hrest
  | text t =>
    rw [json]
    exact value?_quoted t rest
  | @list items hitems ih =>
    rw [json, jsonItems_eq_map] at hn ⊢
    refine value?_list (fun d hd => ?_) level rest
    -- an item is shorter than the list, so its depth is within the bound
    have hlt := length_lt_bracketed '[' ']' level
      (List.mem_map_of_mem (f := json (level + 1)) hd)
    exact reads_value (by omega) (ih d hd)
  | @table fields hfields ih =>
    rw [json, jsonFields_eq_map] at hn ⊢
    refine value?_table (fun f hf => ?_) level rest
    have hlt := length_lt_bracketed '\x7b' '\x7d' level (List.mem_map_of_mem
      (f := fun f => quoted f.1 ++ ": " ++ json (level + 1) f.2) hf)
    rw [List.length_append] at hlt
    exact reads_field (reads_value (by omega) (ih f hf)) f.1

end Datum

namespace Json

open Datum

/-- A value of its own is read back, with blanks behind it or without. -/
theorem read?_toJson {d : Datum} (h : Exact d) {blanks : Text}
    (hblanks : blanks.all isSpace = true) :
    read? (d.toJson ++ blanks) = some d := by
  have hends : EndsNumber blanks := by
    rw [← List.append_nil blanks]
    exact endsNumber_append hblanks (by simp [EndsNumber])
  have hread : value? ((d.toJson ++ blanks).length + 1) (d.toJson ++ blanks)
      = some (d, blanks) := by
    refine h.value?_json ?_ hends
    rw [List.length_append]
    exact Nat.le_add_right ..
  have hskip : skip blanks = [] :=
    List.dropWhile_eq_nil_iff.2 (List.all_eq_true.1 hblanks)
  unfold read?
  rw [hread]
  exact if_pos hskip

-- Blanks and escapes need not be those that are written.
example : read? "[ -1,\x7b\"a\" :\"\\u0041\\/\"\x7d]"
    = some (.list [.integer (-1), .table [("a", .text "A/")]]) := by
  rfl

/-- So no two values are written the same. -/
theorem toJson_injOn : Set.InjOn Datum.toJson {d | Exact d} := by
  intro d hd e he h
  have hread : read? (d.toJson ++ []) = some d := read?_toJson hd rfl
  rw [show d.toJson = e.toJson from h, read?_toJson he rfl] at hread
  exact (Option.some.inj hread).symm

end Json

end SourceDigest
