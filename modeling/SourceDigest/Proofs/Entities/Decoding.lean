/-
What labels on the words of a line decode to.

Labels spell out runs of words when the first word of a run begins its
kind, the others are inside it, and all words outside runs are outside
(`Spells`). Decoding them gives the runs back, each with the text from
its first word to its last.

Shape of the argument. Words are stretches without a blank, one behind
the other, so what a run covers begins and ends with a character that
trimming keeps (`close_run`). The decoder is followed by the place it has
come to: it passes what is outside (`decodeFrom_outside`), grows an entity
over its insides (`decodeFrom_inside`) and closes it in front of anything
that is no inside (`decodeFrom_closes`). After a run the next word is
never inside, since only a run could make it so, and that run would begin
there. The induction is on the runs still ahead, with those behind kept
to say that they hold no word any more.

An inside that goes on with nothing means what a beginning means, so
writing it as one changes nothing (`decodeFrom_beginStrays`).
-/
import Mathlib
import SourceDigest.Entities.Labels
import SourceDigest.Proofs.Pattern.Stretches
import SourceDigest.Proofs.Text.Blanks

namespace SourceDigest

namespace Labels

open Pattern

variable {line : Text} {spans : List Span} {marks : List Mark} {mark : Mark}
  {i j : Nat}

-- ====================================================================== words

/-- Words hold no blanks. -/
theorem wordPattern_takesOnly :
    wordPattern.TakesOnly fun c => Text.isBlank c = false := by
  have hname := Text.isBlank_eq_false (fun c => c.isAlpha || c == '_' || c == '$')
    (by decide +kernel)
  have hlater := Text.isBlank_eq_false (fun c => Text.isWord c || c == '$')
    (by decide +kernel)
  have hdigit := Text.isBlank_eq_false Text.isDigit (by decide +kernel)
  have hother : ∀ c, (!Text.isBlank c) = true → Text.isBlank c = false :=
    fun c hc => by simpa using hc
  exact ⟨⟨hname, hlater⟩, ⟨hdigit, hdigit⟩, hother⟩

theorem one_le_least_wordPattern : 1 ≤ wordPattern.least := by decide

/-- A word covers something, and no blank. -/
theorem isStretch_words {s : Span} (h : s ∈ words line) :
    IsStretch (fun c => Text.isBlank c = false) line s.start s.stop := by
  obtain ⟨found, hfound, rfl⟩ := List.mem_map.1 h
  exact isStretch_findAll wordPattern_takesOnly one_le_least_wordPattern hfound

theorem pairwise_words (line : Text) :
    (words line).Pairwise fun s s' => s.stop ≤ s'.start := by
  rw [words, List.pairwise_map]
  exact pairwise_findAll wordPattern_takesOnly one_le_least_wordPattern line

-- ======================================================================= runs

/-- Words in a row, and the kind of entity that they name together. -/
structure Run where
  first : Nat
  last : Nat
  kind : Text
deriving DecidableEq, Repr

namespace Run

def Holds (r : Run) (i : Nat) : Prop := r.first ≤ i ∧ i ≤ r.last

/-- From the start of the first word to the end of the last. -/
def span (spans : List Span) (r : Run) : Span :=
  ⟨(spans.getD r.first ⟨0, 0⟩).start, (spans.getD r.last ⟨0, 0⟩).stop⟩

/-- The entity that a run of words of a line names. -/
def entity (line : Text) (r : Run) : Entity :=
  ⟨(r.span (words line)).cover line, EntityKind.ofLabel r.kind⟩

end Run

/-- Runs of some of `n` words, none empty, each behind the one before;
between two runs there need not be a word. -/
structure InOrder (n : Nat) (runs : List Run) : Prop where
  filled : ∀ r ∈ runs, r.first ≤ r.last
  within : ∀ r ∈ runs, r.last < n
  apart : runs.Pairwise fun r r' => r.last < r'.first

/-- One label for each of `n` words, as runs of them ask for. -/
structure Spells (n : Nat) (runs : List Run) (labels : List Text) : Prop where
  length : labels.length = n
  first : ∀ r ∈ runs, labels[r.first]? = some ('B' :: '-' :: r.kind)
  later : ∀ r ∈ runs, ∀ i, r.first < i → i ≤ r.last →
    labels[i]? = some ('I' :: '-' :: r.kind)
  outside : ∀ i < n, (∀ r ∈ runs, ¬ r.Holds i) → labels[i]? = some ['O']

@[simp] theorem ofLabel_begin (kind : Text) :
    Mark.ofLabel ('B' :: '-' :: kind) = .begins kind := by
  simp [Mark.ofLabel, Text.before]

@[simp] theorem ofLabel_inside (kind : Text) :
    Mark.ofLabel ('I' :: '-' :: kind) = .inside kind := by
  simp [Mark.ofLabel, Text.before]

theorem InOrder.eq_or_apart {n : Nat} {runs : List Run} (h : InOrder n runs) {r r' : Run}
    (hr : r ∈ runs) (hr' : r' ∈ runs) :
    r = r' ∨ r.last < r'.first ∨ r'.last < r.first := by
  obtain ⟨i, hi, rfl⟩ := List.mem_iff_getElem.1 hr
  obtain ⟨j, hj, rfl⟩ := List.mem_iff_getElem.1 hr'
  rcases Nat.lt_trichotomy i j with hlt | rfl | hlt
  · exact .inr (.inl (List.pairwise_iff_getElem.1 h.apart i j hi hj hlt))
  · exact .inl rfl
  · exact .inr (.inr (List.pairwise_iff_getElem.1 h.apart j i hj hi hlt))

namespace Spells

variable {n : Nat} {runs : List Run} {labels : List Text} {r : Run}

theorem mark_first (h : Spells n runs labels) (hr : r ∈ runs) :
    (labels.map Mark.ofLabel)[r.first]? = some (.begins r.kind) := by
  rw [List.getElem?_map, h.first r hr, Option.map_some, ofLabel_begin]

theorem mark_later (h : Spells n runs labels) (hr : r ∈ runs) (hfirst : r.first < i)
    (hlast : i ≤ r.last) :
    (labels.map Mark.ofLabel)[i]? = some (.inside r.kind) := by
  rw [List.getElem?_map, h.later r hr i hfirst hlast, Option.map_some, ofLabel_inside]

theorem mark_outside (h : Spells n runs labels) (hi : i < n)
    (hnone : ∀ r ∈ runs, ¬ r.Holds i) :
    (labels.map Mark.ofLabel)[i]? = some .outside := by
  rw [List.getElem?_map, h.outside i hi hnone]
  rfl

/-- The word behind a run is not inside anything: a run that holds it begins
there. -/
theorem not_inside_behind (h : Spells n runs labels) (horder : InOrder n runs)
    (hr : r ∈ runs) (kind : Text) :
    (labels.map Mark.ofLabel)[r.last + 1]? ≠ some (.inside kind) := by
  intro hinside
  have hlt : r.last + 1 < n := by
    have := (List.getElem?_eq_some_iff.1 hinside).1
    rwa [List.length_map, h.length] at this
  by_cases hheld : ∃ r' ∈ runs, r'.Holds (r.last + 1)
  · obtain ⟨r', hr', hlow, hhigh⟩ := hheld
    have hstart : r'.first = r.last + 1 := by
      rcases horder.eq_or_apart hr hr' with rfl | hlt | hlt
      · omega
      · omega
      · have := horder.filled r hr
        omega
    rw [← hstart, h.mark_first hr'] at hinside
    simp at hinside
  · rw [h.mark_outside hlt fun r' hr' hholds => hheld ⟨r', hr', hholds⟩] at hinside
    simp at hinside

end Spells

/-- Between characters that are no blanks there is nothing to trim. -/
theorem trim_cover {text : Text} {start stop : Nat} {a b : Char}
    (hlt : start < stop) (ha : text[start]? = some a)
    (hb : text[stop - 1]? = some b)
    (hablank : Text.isBlank a = false) (hbblank : Text.isBlank b = false) :
    Text.trim (Span.cover text ⟨start, stop⟩) = Span.cover text ⟨start, stop⟩
      ∧ Span.cover text ⟨start, stop⟩ ≠ [] := by
  have hlength : (Span.cover text ⟨start, stop⟩).length = stop - start := by
    have := (List.getElem?_eq_some_iff.1 hb).1
    simp only [Span.cover, List.length_take, List.length_drop]
    omega
  have hhead : (Span.cover text ⟨start, stop⟩).head? = some a := by
    dsimp only [Span.cover]
    rw [List.head?_take, if_neg (by omega), List.head?_drop, ha]
  have hback : (Span.cover text ⟨start, stop⟩).getLast? = some b := by
    have hlast : start + (stop - start - 1) = stop - 1 := by omega
    rw [List.getLast?_eq_getElem?, hlength]
    dsimp only [Span.cover]
    rw [List.getElem?_take_of_lt (by omega), List.getElem?_drop, hlast, hb]
  refine ⟨Text.trim_eq_self hhead hback hablank hbblank, fun hnil => ?_⟩
  rw [hnil] at hhead
  cases hhead

/-- A run of words becomes an entity: there is nothing to trim. -/
theorem close_run {r : Run} (hfilled : r.first ≤ r.last)
    (hwithin : r.last < (words line).length) :
    Open.close line ⟨r.kind, r.span (words line)⟩ = [r.entity line] := by
  have hfirst : r.first < (words line).length := by omega
  have ha := isStretch_words (List.getElem_mem hfirst)
  have hb := isStretch_words (List.getElem_mem hwithin)
  have hspan : r.span (words line) =
      ⟨(words line)[r.first].start, (words line)[r.last].stop⟩ := by
    rw [Run.span, List.getD_eq_getElem _ _ hfirst, List.getD_eq_getElem _ _ hwithin]
  have hlt : (words line)[r.first].start < (words line)[r.last].stop := by
    rcases Nat.eq_or_lt_of_le hfilled with heq | hbehind
    · simpa only [heq] using hb.lt
    · have hapart := List.pairwise_iff_getElem.1 (pairwise_words line) _ _ hfirst
        hwithin hbehind
      have := ha.lt
      have := hb.lt
      omega
  obtain ⟨a, haline, hablank⟩ := ha.chars _ (Nat.le_refl _) ha.lt
  obtain ⟨b, hbline, hbblank⟩ := hb.chars ((words line)[r.last].stop - 1)
    (Nat.le_sub_one_of_lt hb.lt) (Nat.sub_one_lt_of_lt hb.lt)
  obtain ⟨htrim, hne⟩ := trim_cover hlt haline hbline hablank hbblank
  simp only [Open.close, Run.entity, hspan, htrim, if_neg hne]

-- ================================================================ the decoder

/-- From a place on: the word there with its mark, and what follows. -/
private theorem drop_zip (hi : i < spans.length) (hmark : marks[i]? = some mark) :
    (spans.zip marks).drop i =
      (spans.getD i ⟨0, 0⟩, mark) :: (spans.zip marks).drop (i + 1) := by
  obtain ⟨hi', rfl⟩ := List.getElem?_eq_some_iff.1 hmark
  rw [List.drop_eq_getElem_cons (by rw [List.length_zip]; omega),
    List.getElem_zip, List.getD_eq_getElem _ _ hi]

/-- What follows a word has no inside in front if the next mark is none. -/
private theorem not_inside_drop
    (h : ∀ kind, marks[i]? ≠ some (.inside kind)) (kind : Text) :
    ((spans.zip marks).drop i).head?.map Prod.snd ≠ some (.inside kind) := by
  intro hinside
  rw [List.head?_drop, Option.map_eq_some_iff] at hinside
  obtain ⟨⟨s, mark⟩, hzip, rfl⟩ := hinside
  exact h kind (List.getElem?_zip_eq_some.1 hzip).2

/-- Words that are outside are passed. -/
theorem decodeFrom_outside (hij : i ≤ j) (hj : j ≤ spans.length)
    (hout : ∀ k, i ≤ k → k < j → marks[k]? = some .outside) :
    decodeFrom line none ((spans.zip marks).drop i) =
      decodeFrom line none ((spans.zip marks).drop j) := by
  induction j, hij using Nat.le_induction with
  | base => rfl
  | succ j hij ih =>
      rw [ih (by omega) fun k hk hkj => hout k hk (by omega),
        drop_zip (by omega) (hout j hij (by omega))]
      rfl

/-- An open entity grows over the words inside it. -/
theorem decodeFrom_inside {kind : Text} {start : Nat} (hij : i ≤ j)
    (hj : j < spans.length)
    (hin : ∀ k, i < k → k ≤ j → marks[k]? = some (.inside kind)) :
    decodeFrom line (some ⟨kind, ⟨start, (spans.getD i ⟨0, 0⟩).stop⟩⟩)
        ((spans.zip marks).drop (i + 1)) =
      decodeFrom line (some ⟨kind, ⟨start, (spans.getD j ⟨0, 0⟩).stop⟩⟩)
        ((spans.zip marks).drop (j + 1)) := by
  induction j, hij using Nat.le_induction with
  | base => rfl
  | succ j hij ih =>
      rw [ih (by omega) fun k hk hkj => hin k hk (by omega),
        drop_zip hj (hin (j + 1) (by omega) (by omega)), decodeFrom]
      simp only [if_true]

/-- In front of anything but an inside an open entity is closed. -/
theorem decodeFrom_closes {o : Open} {rest : List (Span × Mark)}
    (h : ∀ kind, rest.head?.map Prod.snd ≠ some (.inside kind)) :
    decodeFrom line (some o) rest = o.close line ++ decodeFrom line none rest := by
  match rest with
  | [] => simp [decodeFrom, closeAny]
  | (span, .begins kind) :: rest => simp [decodeFrom, closeAny]
  | (span, .inside kind) :: rest => simp at h
  | (span, .outside) :: rest => simp [decodeFrom, closeAny]

/-- Between the runs behind and those ahead no word is held. -/
private theorem outside_between {n : Nat} {all behind ahead : List Run}
    {labels : List Text} (hspells : Spells n all labels) (hall : all = behind ++ ahead)
    (hbehind : ∀ r ∈ behind, r.last < i) (hahead : ∀ r ∈ ahead, j ≤ r.first)
    (hj : j ≤ n) :
    ∀ k, i ≤ k → k < j → (labels.map Mark.ofLabel)[k]? = some .outside := by
  intro k hik hkj
  refine hspells.mark_outside (by omega) fun r hr hholds => ?_
  obtain ⟨hlow, hhigh⟩ := hholds
  rw [hall] at hr
  rcases List.mem_append.1 hr with hr | hr
  · have := hbehind r hr
    omega
  · have := hahead r hr
    omega

/-- From a place behind some runs and in front of the others, decoding gives
the others. -/
private theorem decodeFrom_ahead (line : Text) {n : Nat} {all behind ahead : List Run}
    {labels : List Text} (hn : spans.length = n) (horder : InOrder n all)
    (hspells : Spells n all labels) (hall : all = behind ++ ahead)
    (hbehind : ∀ r ∈ behind, r.last < i) (hahead : ∀ r ∈ ahead, i ≤ r.first)
    (hi : i ≤ n) :
    decodeFrom line none ((spans.zip (labels.map Mark.ofLabel)).drop i) =
      ahead.flatMap fun r => Open.close line ⟨r.kind, r.span spans⟩ := by
  induction ahead generalizing behind i with
  | nil =>
      rw [decodeFrom_outside hi hn.ge
          (outside_between hspells hall hbehind (List.forall_mem_nil _) le_rfl),
        List.drop_eq_nil_of_le (by simp [hn])]
      rfl
  | cons r ahead ih =>
      have hr : r ∈ all := by simp [hall]
      have hfilled := horder.filled r hr
      have hwithin := horder.within r hr
      have hfrom := hahead r (by simp)
      have hnext : ∀ r' ∈ ahead, r.last < r'.first := by
        have hapart := horder.apart
        rw [hall] at hapart
        exact (List.pairwise_cons.1 (List.pairwise_append.1 hapart).2.1).1
      -- runs behind have ended before the place, those ahead begin after `r`
      have hout := outside_between hspells hall hbehind
        (List.forall_mem_cons.2 ⟨le_rfl, fun r' hr' => (hfilled.trans_lt (hnext r' hr')).le⟩)
        (by omega)
      have hbehind' : ∀ r' ∈ behind ++ [r], r'.last < r.last + 1 := by
        intro r' hr'
        rcases List.mem_append.1 hr' with hr' | hr'
        · have := hbehind r' hr'
          omega
        · rw [List.mem_singleton.1 hr']
          omega
      -- up to the run, its first word, over it, and out of it
      rw [decodeFrom_outside hfrom (by omega) hout,
        drop_zip (by omega) (hspells.mark_first hr), decodeFrom, closeAny,
        List.nil_append,
        decodeFrom_inside hfilled (by omega) fun k hk hkr =>
          hspells.mark_later hr hk hkr,
        decodeFrom_closes (not_inside_drop (hspells.not_inside_behind horder hr)),
        ih (by simp [hall]) hbehind' hnext (by omega), List.flatMap_cons]
      rfl

/-- Decoding labels that spell out runs of words gives an entity for each. -/
theorem decode_of_spells {runs : List Run} {labels : List Text}
    (horder : InOrder (words line).length runs)
    (hspells : Spells (words line).length runs labels) :
    decode line (words line) labels = runs.map (Run.entity line) := by
  have hclosed : ∀ r ∈ runs,
      Open.close line ⟨r.kind, r.span (words line)⟩ = [r.entity line] :=
    fun r hr => close_run (horder.filled r hr) (horder.within r hr)
  have hahead := decodeFrom_ahead line rfl horder hspells (List.nil_append runs).symm
    (by simp) (fun _ _ => Nat.zero_le _) (Nat.zero_le _)
  rw [List.drop_zero] at hahead
  rw [decode, hahead, List.flatMap_congr hclosed, List.map_eq_flatMap]

-- ==================================================================== strays

/-- The kind of the entity that is open behind a mark. -/
def Mark.kind? : Mark → Option Text
  | begins kind => some kind
  | inside kind => some kind
  | outside => none

/-- An inside that does not go on with the kind that is open, written as a
beginning; any other label as it is. -/
def beginStray (opened : Option Text) (label : Text) : Text :=
  match label with
  | 'I' :: '-' :: kind => if opened = some kind then label else 'B' :: '-' :: kind
  | _ => label

/-- The labels with every stray inside written as a beginning, given the kind
of the entity that is open. -/
def beginStrays : Option Text → List Text → List Text
  | _, [] => []
  | opened, label :: rest =>
    beginStray opened label :: beginStrays (Mark.ofLabel label).kind? rest

/-- Decoding takes a stray inside for a beginning. -/
theorem decodeFrom_stray {current : Option Open} {kind : Text} {s : Span}
    {rest : List (Span × Mark)} (h : current.map Open.kind ≠ some kind) :
    decodeFrom line current ((s, .inside kind) :: rest) =
      decodeFrom line current ((s, .begins kind) :: rest) := by
  cases current with
  | none => simp [decodeFrom, closeAny]
  | some o =>
      have hne : o.kind ≠ kind := by simpa using h
      simp [decodeFrom, closeAny, hne]

/-- Which entity is open behind a mark decides alone how decoding goes on. -/
theorem decodeFrom_cons (line : Text) (current : Option Open) (s : Span)
    (mark : Mark) :
    ∃ closed next, next.map Open.kind = mark.kind? ∧
      ∀ rest, decodeFrom line current ((s, mark) :: rest) =
        closed ++ decodeFrom line next rest := by
  cases mark with
  | begins kind => exact ⟨closeAny line current, some ⟨kind, s⟩, rfl, fun _ => rfl⟩
  | outside => exact ⟨closeAny line current, none, rfl, fun _ => rfl⟩
  | inside kind =>
      by_cases h : current.map Open.kind = some kind
      · obtain ⟨o, rfl, rfl⟩ := Option.map_eq_some_iff.1 h
        exact ⟨[], some ⟨o.kind, ⟨o.span.start, s.stop⟩⟩, rfl, fun _ => by
          simp [decodeFrom]⟩
      · exact ⟨closeAny line current, some ⟨kind, s⟩, rfl, fun rest => by
          rw [decodeFrom_stray h, decodeFrom]⟩

/-- Writing strays as beginnings does not change what is decoded. -/
theorem decodeFrom_beginStrays (labels : List Text) (spans : List Span)
    (current : Option Open) :
    decodeFrom line current
        (spans.zip ((beginStrays (current.map Open.kind) labels).map Mark.ofLabel)) =
      decodeFrom line current (spans.zip (labels.map Mark.ofLabel)) := by
  induction labels generalizing spans current with
  | nil => rfl
  | cons label labels ih =>
      match spans with
      | [] => simp
      | s :: spans =>
          obtain ⟨closed, next, hnext, hdecode⟩ :=
            decodeFrom_cons line current s (Mark.ofLabel label)
          have hrest : decodeFrom line current ((s, Mark.ofLabel label) ::
                spans.zip ((beginStrays (Mark.ofLabel label).kind? labels).map
                  Mark.ofLabel)) =
              decodeFrom line current ((s, Mark.ofLabel label) ::
                spans.zip (labels.map Mark.ofLabel)) := by
            rw [hdecode, hdecode, ← hnext, ih]
          rw [beginStrays, List.map_cons, List.zip_cons_cons, List.map_cons,
            List.zip_cons_cons, ← hrest]
          unfold beginStray
          split
          · split
            · rfl
            · rename_i kind hstray
              rw [ofLabel_begin, ofLabel_inside, decodeFrom_stray hstray]
          · rfl

/-- Labels that spell out runs of words of a line decode to the runs, in
order, each with the text that it covers and the kind that it is labeled
with; and to decode any labels is to decode them with every inside that goes
on with nothing written as a beginning. -/
theorem decode_gives_labeled_runs {runs : List Run} {labels : List Text}
    (horder : InOrder (words line).length runs)
    (hspells : Spells (words line).length runs labels) :
    decode line (words line) labels = runs.map (Run.entity line)
      ∧ ∀ (spans : List Span) (labels : List Text),
        decode line spans (beginStrays none labels) = decode line spans labels :=
  ⟨decode_of_spells horder hspells, fun spans labels =>
    decodeFrom_beginStrays labels spans none⟩

/-- Two runs of one kind side by side, the second up to the end of the line;
and an inside with nothing before it. -/
theorem decode_gives_two_adjacent_runs :
    decode "let Foo Bar baz" (words "let Foo Bar baz")
        ["O", "B-CLASS", "B-CLASS", "I-CLASS"] =
      [⟨"Foo", .type⟩, ⟨"Bar baz", .type⟩]
    ∧ decode "let Foo Bar baz" (words "let Foo Bar baz")
        ["I-VAR", "I-CLASS", "I-CLASS", "O"] =
      decode "let Foo Bar baz" (words "let Foo Bar baz")
        ["B-VAR", "B-CLASS", "I-CLASS", "O"] := by
  have hwords : words "let Foo Bar baz" = [⟨0, 3⟩, ⟨4, 7⟩, ⟨8, 11⟩, ⟨12, 15⟩] := by
    decide +kernel
  have horder : InOrder 4 [⟨1, 1, "CLASS"⟩, ⟨2, 3, "CLASS"⟩] := by
    constructor <;> simp
  have hspells : Spells 4 [⟨1, 1, "CLASS"⟩, ⟨2, 3, "CLASS"⟩]
      ["O", "B-CLASS", "B-CLASS", "I-CLASS"] := by
    refine ⟨rfl, by simp, ?_, ?_⟩
    · intro r hr i hfirst hlast
      simp only [List.mem_cons, List.not_mem_nil, or_false] at hr
      rcases hr with rfl | rfl
      · dsimp only at hfirst hlast
        omega
      · obtain rfl : i = 3 := by
          dsimp only at hfirst hlast
          omega
        rfl
    · intro i hi hnone
      have h1 := hnone _ (List.mem_cons_self ..)
      have h2 := hnone _ (List.mem_cons_of_mem _ (List.mem_cons_self ..))
      simp only [Run.Holds] at h1 h2
      obtain rfl : i = 0 := by omega
      rfl
  have hgives := @decode_gives_labeled_runs "let Foo Bar baz"
    [⟨1, 1, "CLASS"⟩, ⟨2, 3, "CLASS"⟩] ["O", "B-CLASS", "B-CLASS", "I-CLASS"]
    (by rw [hwords]; exact horder) (by rw [hwords]; exact hspells)
  refine ⟨?_, (hgives.2 _ ["I-VAR", "I-CLASS", "I-CLASS", "O"]).symm⟩
  rw [hgives.1]
  simp only [List.map_cons, List.map_nil, Run.entity, Run.span, hwords]
  rfl

end Labels

end SourceDigest
