/-
The words of a line cover what is not blank in it, and labels on them take
only such pieces of the line as there are.

A pattern that matches wherever a character of some kind stands passes over
other characters alone (`passed_over`); if it also takes no others, its
matches hold all characters of the kind and nothing else
(`flatMap_findAllFrom`, `exists_mem_findAllFrom`). A word is of this sort,
with any character but a blank.

A piece of a line is cut out by positions in its bytes, and that fails for
positions in the wrong order, behind the end or inside a character
(`Text.slice?`). The decoder cuts a piece for each entity that it closes
(`closings`). Such a piece reaches from the start of one word to the end of
the same or a later one (`Reaches`), whatever the labels are, so it is there
and begins and ends with no blank (`Reaches.close_eq`).
-/
import Mathlib
import SourceDigest.Proofs.Entities.Decoding
import SourceDigest.Proofs.Pattern.Runs

namespace SourceDigest

-- ====================================================================== slices

namespace Text

/-- A text without its first bytes; `none` when these end inside a character
or behind the text. -/
def dropBytes? : Nat → Text → Option Text
  | 0, t => some t
  | _ + 1, [] => none
  | n + 1, c :: t =>
    if c.utf8Size ≤ n + 1 then dropBytes? (n + 1 - c.utf8Size) t else none

/-- The first bytes of a text; `none` when these end inside a character or
behind the text. -/
def takeBytes? : Nat → Text → Option Text
  | 0, _ => some []
  | _ + 1, [] => none
  | n + 1, c :: t =>
    if c.utf8Size ≤ n + 1 then (takeBytes? (n + 1 - c.utf8Size) t).map (c :: ·) else none

/-- What stands between two positions in the bytes of a text; `none` when
there is no such piece. -/
def slice? (t : Text) (start stop : Nat) : Option Text :=
  if start ≤ stop then (dropBytes? start t).bind (takeBytes? (stop - start)) else none

theorem byteSize_cons (c : Char) (t : Text) : byteSize (c :: t) = c.utf8Size + byteSize t :=
  rfl

theorem byteSize_append (s t : Text) : byteSize (s ++ t) = byteSize s + byteSize t := by
  induction s with
  | nil => exact (Nat.zero_add _).symm
  | cons c s ih => rw [List.cons_append, byteSize_cons, byteSize_cons, ih, Nat.add_assoc]

theorem dropBytes?_append (s t : Text) : dropBytes? (byteSize s) (s ++ t) = some t := by
  induction s with
  | nil => cases t <;> rfl
  | cons c s ih =>
      obtain ⟨n, hn⟩ := Nat.exists_eq_succ_of_ne_zero c.utf8Size_pos.ne'
      rw [byteSize_cons, List.cons_append, hn, Nat.succ_add, dropBytes?, hn,
        if_pos (by omega)]
      rw [← ih]
      congr 1
      omega

theorem takeBytes?_append (s t : Text) : takeBytes? (byteSize s) (s ++ t) = some s := by
  induction s with
  | nil => cases t <;> rfl
  | cons c s ih =>
      obtain ⟨n, hn⟩ := Nat.exists_eq_succ_of_ne_zero c.utf8Size_pos.ne'
      have hrest : n + byteSize s + 1 - (n + 1) = byteSize s := by omega
      rw [byteSize_cons, List.cons_append, hn, Nat.succ_add, takeBytes?, hn,
        if_pos (by omega), hrest, ih]
      rfl

/-- The bytes in front of a place are those in front of an earlier one and those
between the two. -/
theorem byteSize_take {t : Text} {i j : Nat} (h : i ≤ j) :
    byteSize (t.take j) = byteSize (t.take i) + byteSize ((t.drop i).take (j - i)) := by
  rw [← byteSize_append, ← List.take_add, Nat.add_sub_cancel' h]

end Text

namespace Span

variable {line : Text} {s : Span}

/-- The bytes that a span takes of a line are the characters that it covers. -/
theorem slice?_byteRange (h : s.start ≤ s.stop) :
    Text.slice? line (s.byteRange line).1 (s.byteRange line).2 = some (s.cover line) := by
  have hstop : Text.byteSize (line.take s.stop)
      = Text.byteSize (line.take s.start) + Text.byteSize (s.cover line) :=
    Text.byteSize_take h
  have hdrop : Text.dropBytes? (Text.byteSize (line.take s.start)) line
      = some (line.drop s.start) := by
    have hline := Text.dropBytes?_append (line.take s.start) (line.drop s.start)
    rwa [List.take_append_drop] at hline
  have htake : Text.takeBytes? (Text.byteSize (s.cover line)) (line.drop s.start)
      = some (s.cover line) := by
    have hrest := Text.takeBytes?_append (s.cover line)
      ((line.drop s.start).drop (s.stop - s.start))
    rwa [Span.cover, List.take_append_drop] at hrest
  unfold Text.slice? byteRange
  dsimp only
  rw [hstop, if_pos (Nat.le_add_right ..), Nat.add_sub_cancel_left, hdrop]
  exact htake

/-- A span with characters has bytes. -/
theorem byteRange_lt (h : s.start < s.stop) (hstop : s.stop ≤ line.length) :
    (s.byteRange line).1 < (s.byteRange line).2 := by
  obtain ⟨c, rest, hrest⟩ :
      ∃ c rest, (line.drop s.start).take (s.stop - s.start) = c :: rest := by
    refine List.exists_cons_of_length_pos ?_
    rw [List.length_take, List.length_drop]
    omega
  have hpos := c.utf8Size_pos
  unfold byteRange
  dsimp only
  rw [Text.byteSize_take h.le, hrest, Text.byteSize_cons]
  omega

/-- Spans apart have their bytes apart. -/
theorem byteRange_le {s' : Span} (h : s.stop ≤ s'.start) :
    (s.byteRange line).2 ≤ (s'.byteRange line).1 := by
  unfold byteRange
  dsimp only
  rw [Text.byteSize_take h]
  exact Nat.le_add_right ..

/-- A span behind some characters covers what stands there. -/
theorem cover_append (front taken rest : Text) :
    cover (front ++ (taken ++ rest)) ⟨front.length, front.length + taken.length⟩
      = taken := by
  rw [cover, List.drop_left, Nat.add_sub_cancel_left, List.take_left]

end Span

-- ==================================================================== all of it

namespace Pattern

variable {ok : Char → Bool} {p : Pattern} {n m : Nat} {last : Option Char}
  {t text front : Text} {c : Char} {i : Nat} {s e : Place}

/-- A pattern matches wherever a character of some kind stands. -/
def Meets (ok : Char → Bool) (p : Pattern) : Prop :=
  ∀ n last c t, ok c = true → (endAt? p ⟨n, last, c :: t, []⟩).isSome

theorem Meets.eq_false (hp : p.Meets ok) (h : endAt? p ⟨n, last, c :: t, []⟩ = none) :
    ok c = false := by
  by_contra hc
  have hsome := hp n last c t (by simpa using hc)
  rw [h] at hsome
  cases hsome

/-- Up to a match no such character is passed over. -/
theorem passed_over (hp : p.Meets ok) (h : findFrom? p n last t = some (m, e)) :
    ∃ before rest, t = before ++ rest ∧ m = n + before.length
      ∧ ∀ c ∈ before, ok c = false := by
  induction t generalizing n last with
  | nil =>
      rw [findFrom?, Option.map_eq_some_iff] at h
      obtain ⟨e', -, heq⟩ := h
      cases heq
      exact ⟨[], [], rfl, rfl, by simp⟩
  | cons c t ih =>
      rw [findFrom?] at h
      split at h
      · cases h
        exact ⟨[], c :: t, rfl, rfl, by simp⟩
      · rename_i hnone
        obtain ⟨before, rest, rfl, rfl, hbefore⟩ := ih h
        refine ⟨c :: before, rest, rfl, ?_, ?_⟩
        · rw [List.length_cons]
          omega
        · exact List.forall_mem_cons.2 ⟨hp.eq_false hnone, hbefore⟩

/-- Without a match there is no such character. -/
theorem eq_false_of_not_found (hp : p.Meets ok) (h : findFrom? p n last t = none) :
    ∀ c ∈ t, ok c = false := by
  induction t generalizing n last with
  | nil => simp
  | cons c t ih =>
      rw [findFrom?] at h
      split at h
      · cases h
      · rename_i hnone
        exact List.forall_mem_cons.2 ⟨hp.eq_false hnone, ih h⟩

section

variable (hp : p.Meets ok) (htakes : p.TakesOnly (ok · = true)) (hleast : 1 ≤ p.least)

include hp htakes hleast in
/-- A match takes characters of the kind, behind others that it passes over. -/
theorem exists_taken (h : findFrom? p n last t = some (m, e)) :
    ∃ before taken, t = before ++ (taken ++ e.rest) ∧ m = n + before.length
      ∧ e.passed = m + taken.length ∧ 1 ≤ taken.length
      ∧ before.filter ok = [] ∧ taken.filter ok = taken := by
  obtain ⟨before, taken, ht, hm, hstop, hlen, hok⟩ := exists_of_findFrom? htakes h
  obtain ⟨before', rest, ht', hm', hfails⟩ := passed_over hp h
  obtain ⟨rfl, rfl⟩ := List.append_inj (ht.symm.trans ht') (by omega)
  refine ⟨before, taken, ht, hm, hstop, hleast.trans hlen, ?_, List.filter_eq_self.2 hok⟩
  exact List.filter_eq_nil_iff.2 fun c hc => by simp [hfails c hc]

include hp htakes hleast in
/-- The matches from a place on hold the characters of the kind, in order. -/
theorem flatMap_findAllFrom (count : Nat) (htext : text = front ++ s.rest)
    (hs : s.passed = front.length) (hcount : s.rest.length < count) :
    ((findAllFrom p count s).flatMap fun found =>
      Span.cover text ⟨found.start, found.stop⟩) = s.rest.filter ok := by
  induction count generalizing s front with
  | zero => cases hcount
  | succ count ih =>
      rw [findAllFrom]
      split
      · rename_i hnone
        have hfails := eq_false_of_not_found hp hnone
        exact (List.filter_eq_nil_iff.2 fun c hc => by simp [hfails c hc]).symm
      · rename_i start e hfind
        obtain ⟨before, taken, hrest, hstart, hstop, hlen, hbefore, htaken⟩ :=
          exists_taken hp htakes hleast hfind
        have hplace : start = (front ++ before).length := by
          rw [hstart, hs, List.length_append]
        have htext' : text = (front ++ before) ++ (taken ++ e.rest) := by
          rw [htext, hrest, List.append_assoc]
        have hcover : Span.cover text ⟨start, e.passed⟩ = taken := by
          rw [htext', hstop, hplace]
          exact Span.cover_append _ taken e.rest
        have hfront : text = ((front ++ before) ++ taken) ++ e.rest := by
          rw [htext', List.append_assoc _ taken]
        have hlater := ih (s := { e with parts := [] }) hfront
          (by rw [List.length_append, ← hplace]; exact hstop)
          (by rw [hrest, List.length_append, List.length_append] at hcount; dsimp only; omega)
        rw [if_pos (by omega), List.flatMap_cons, hcover, hlater, hrest,
          List.filter_append, List.filter_append, hbefore, htaken, List.nil_append]

include hp htakes hleast in
/-- Every character of the kind lies in a match. -/
theorem exists_mem_findAllFrom (count : Nat) (hcount : s.rest.length < count)
    (hc : s.rest[i]? = some c) (hok : ok c = true) :
    ∃ found ∈ findAllFrom p count s,
      found.start ≤ s.passed + i ∧ s.passed + i < found.stop := by
  induction count generalizing s i with
  | zero => cases hcount
  | succ count ih =>
      rw [findAllFrom]
      split
      · rename_i hnone
        rw [eq_false_of_not_found hp hnone c (List.mem_of_getElem? hc)] at hok
        cases hok
      · rename_i start e hfind
        obtain ⟨before, taken, hrest, hstart, hstop, hlen, hbefore, -⟩ :=
          exists_taken hp htakes hleast hfind
        have hbehind : before.length ≤ i := by
          by_contra hlt
          rw [hrest, List.getElem?_append_left (by omega)] at hc
          exact List.filter_eq_nil_iff.1 hbefore c (List.mem_of_getElem? hc) hok
        rw [if_pos (by omega)]
        rcases Nat.lt_or_ge (i - before.length) taken.length with hlt | hge
        · exact ⟨_, List.mem_cons_self .., by dsimp only; omega, by dsimp only; omega⟩
        · rw [hrest, List.getElem?_append_right hbehind,
            List.getElem?_append_right hge] at hc
          rw [hrest, List.length_append, List.length_append] at hcount
          obtain ⟨found, hfound, hin⟩ := ih (s := { e with parts := [] })
            (by dsimp only; omega) hc
          have hplace : e.passed + (i - before.length - taken.length) = s.passed + i := by
            omega
          rw [hplace] at hin
          exact ⟨found, List.mem_cons_of_mem _ hfound, hin⟩

end

end Pattern

namespace Labels

open Pattern

variable {line text : Text} {c : Char} {i : Nat} {s : Span} {current : Option Open}
  {o : Open} {marked : List (Span × Mark)}

-- ======================================================================= words

theorem wordPattern_meets : wordPattern.Meets fun c => !Text.isBlank c := by
  intro n last c t hc
  unfold endAt? wordPattern
  rw [run_orElse, run_orElse, run_char_pos hc]
  simp

theorem wordPattern_takesOnly_not : wordPattern.TakesOnly fun c => (!Text.isBlank c) = true := by
  simpa using wordPattern_takesOnly

/-- The words of a line hold what is not blank in it, in order. -/
theorem flatMap_cover_words (line : Text) :
    (words line).flatMap (·.cover line) = line.filter fun c => !Text.isBlank c := by
  have hall := flatMap_findAllFrom wordPattern_meets wordPattern_takesOnly_not
    one_le_least_wordPattern (s := Place.start line) _
    (List.nil_append line).symm rfl (Nat.lt_succ_self _)
  rw [words, List.flatMap_map]
  exact hall

/-- Each character that is no blank lies in one word. -/
theorem existsUnique_word (hc : text[i]? = some c) (hblank : Text.isBlank c = false) :
    ∃! s, s ∈ words text ∧ s.start ≤ i ∧ i < s.stop := by
  obtain ⟨found, hfound, hstart, hstop⟩ := exists_mem_findAllFrom wordPattern_meets
    wordPattern_takesOnly_not one_le_least_wordPattern (s := Place.start text) _
    (Nat.lt_succ_self _) hc (by rw [hblank]; rfl)
  have hplace : (Place.start text).passed + i = i := Nat.zero_add i
  rw [hplace] at hstart hstop
  refine ⟨⟨found.start, found.stop⟩, ⟨List.mem_map_of_mem hfound, hstart, hstop⟩, ?_⟩
  rintro s ⟨hs, hfrom, hto⟩
  by_contra hne
  have hapart : (words text).Pairwise fun s s' => s.stop ≤ s'.start ∨ s'.stop ≤ s.start :=
    (pairwise_words text).imp Or.inl
  have : Std.Symm fun s s' : Span => s.stop ≤ s'.start ∨ s'.stop ≤ s.start :=
    ⟨fun _ _ => Or.symm⟩
  rcases hapart.forall hs (List.mem_map_of_mem hfound) hne with h | h
  · dsimp only at h
    omega
  · dsimp only at h
    omega

/-- A word lies in its line, takes at least a character, and no blank. -/
theorem spec_of_mem_words (h : s ∈ words line) :
    s.start < s.stop ∧ s.stop ≤ line.length
      ∧ ∀ c ∈ s.cover line, Text.isBlank c = false := by
  obtain ⟨hlt, hchars⟩ := isStretch_words h
  refine ⟨hlt, ?_, fun c hc => ?_⟩
  · obtain ⟨c, hc, -⟩ := hchars (s.stop - 1) (Nat.le_sub_one_of_lt hlt)
      (Nat.sub_one_lt_of_lt hlt)
    have := (List.getElem?_eq_some_iff.1 hc).1
    omega
  · have hall := flatMap_cover_words line
    have hmem : c ∈ (words line).flatMap (·.cover line) := List.mem_flatMap.2 ⟨s, h, hc⟩
    rw [hall] at hmem
    simpa using (List.mem_filter.1 hmem).2

-- ==================================================================== closings

/-- The entities that the decoder closes, in order: for each of them it cuts a
piece out of the line. -/
def closings : Option Open → List (Span × Mark) → List Open
  | current, [] => current.toList
  | current, (span, mark) :: rest =>
    match mark with
    | .begins kind => current.toList ++ closings (some ⟨kind, span⟩) rest
    | .inside kind =>
      match current with
      | some o =>
        if o.kind = kind then closings (some ⟨kind, ⟨o.span.start, span.stop⟩⟩) rest
        else o :: closings (some ⟨kind, span⟩) rest
      | none => closings (some ⟨kind, span⟩) rest
    | .outside => current.toList ++ closings none rest

theorem closeAny_eq (line : Text) (current : Option Open) :
    closeAny line current = current.toList.flatMap (Open.close line) := by
  cases current with
  | none => rfl
  | some o => exact (List.append_nil _).symm

/-- Decoding gives what the closed entities become. -/
theorem decodeFrom_eq (line : Text) (current : Option Open) (marked : List (Span × Mark)) :
    decodeFrom line current marked = (closings current marked).flatMap (Open.close line) := by
  induction marked generalizing current with
  | nil => exact closeAny_eq line current
  | cons m rest ih =>
      obtain ⟨span, mark⟩ := m
      cases mark with
      | begins kind =>
          rw [decodeFrom, closings, List.flatMap_append, ih, closeAny_eq]
      | outside =>
          rw [decodeFrom, closings, List.flatMap_append, ih, closeAny_eq]
      | inside kind =>
          cases current with
          | none => rw [decodeFrom, closings, ih]
          | some o =>
              rw [decodeFrom, closings]
              by_cases h : o.kind = kind
              · rw [if_pos h, if_pos h, ih]
              · rw [if_neg h, if_neg h, List.flatMap_cons, ih]

/-- An entity reaches from the start of a word to the end of the same or a
later one. -/
def Reaches (line : Text) (o : Open) : Prop :=
  ∃ a ∈ words line, ∃ b ∈ words line, a.start ≤ b.start ∧ o.span = ⟨a.start, b.stop⟩

/-- Whatever the marks are, the entities that are closed reach over words. -/
theorem reaches_of_mem_closings (hwords : ∀ m ∈ marked, m.1 ∈ words line)
    (hsorted : marked.Pairwise fun m m' => m.1.start ≤ m'.1.start)
    (hopen : ∀ o ∈ current, Reaches line o ∧ ∀ m ∈ marked, o.span.start ≤ m.1.start) :
    ∀ o ∈ closings current marked, Reaches line o := by
  induction marked generalizing current with
  | nil =>
      intro o ho
      exact (hopen o (by simpa [closings] using ho)).1
  | cons m rest ih =>
      obtain ⟨span, mark⟩ := m
      obtain ⟨hspan, hrest⟩ := List.forall_mem_cons.1 hwords
      obtain ⟨hnext, hlater⟩ := List.pairwise_cons.1 hsorted
      have hcurrent : ∀ o ∈ current.toList, Reaches line o :=
        fun o ho => (hopen o (by simpa using ho)).1
      -- an entity that begins here
      have hfresh : ∀ kind, ∀ o ∈ closings (some ⟨kind, span⟩) rest, Reaches line o := by
        refine fun kind => ih hrest hlater ?_
        rintro _ ⟨⟩
        exact ⟨⟨span, hspan, span, hspan, Nat.le_refl _, rfl⟩, hnext⟩
      cases mark with
      | begins kind =>
          exact List.forall_mem_append.2 ⟨hcurrent, hfresh kind⟩
      | outside =>
          exact List.forall_mem_append.2 ⟨hcurrent, ih hrest hlater (by simp)⟩
      | inside kind =>
          cases current with
          | none => exact hfresh kind
          | some o =>
              rw [closings]
              split
              · -- one that goes on here
                refine ih hrest hlater ?_
                rintro _ ⟨⟩
                obtain ⟨⟨a, ha, b, hb, hab, ho⟩, hbefore⟩ := hopen o rfl
                have hstart : o.span.start = a.start := by rw [ho]
                have hle := hbefore _ (List.mem_cons_self ..)
                rw [hstart] at hle
                exact ⟨⟨a, ha, span, hspan, hle, by rw [hstart]⟩,
                  fun m hm => hbefore m (List.mem_cons_of_mem _ hm)⟩
              · exact List.forall_mem_cons.2 ⟨(hopen o rfl).1, hfresh kind⟩

/-- Words with marks begin one behind the other. -/
theorem pairwise_zip_words (line : Text) (marks : List Mark) :
    ((words line).zip marks).Pairwise fun m m' => m.1.start ≤ m'.1.start := by
  rw [List.pairwise_iff_getElem]
  intro i j hi hj hij
  have hi' : i < (words line).length := (List.length_zip ▸ hi).trans_le (Nat.min_le_left ..)
  have hj' : j < (words line).length := (List.length_zip ▸ hj).trans_le (Nat.min_le_left ..)
  rw [List.getElem_zip, List.getElem_zip]
  have hapart := List.pairwise_iff_getElem.1 (pairwise_words line) i j hi' hj' hij
  have hlt := (isStretch_words (List.getElem_mem hi')).lt
  dsimp only
  omega

/-- What reaches over words lies in the line and becomes an entity, named by all
that it covers. -/
theorem Reaches.close_eq (h : Reaches line o) :
    o.span.start < o.span.stop ∧ o.span.stop ≤ line.length
      ∧ o.close line = [⟨o.span.cover line, EntityKind.ofLabel o.kind⟩]
      ∧ o.span.cover line ≠ [] := by
  obtain ⟨a, ha, b, hb, hab, ho⟩ := h
  have hfirst := isStretch_words ha
  have hlast := isStretch_words hb
  have hlt : a.start < b.stop := by
    have := hlast.lt
    omega
  obtain ⟨c, hc, hcblank⟩ := hfirst.chars _ (Nat.le_refl _) hfirst.lt
  obtain ⟨d, hd, hdblank⟩ := hlast.chars (b.stop - 1) (Nat.le_sub_one_of_lt hlast.lt)
    (Nat.sub_one_lt_of_lt hlast.lt)
  obtain ⟨htrim, hne⟩ := trim_cover hlt hc hd hcblank hdblank
  refine ⟨by rw [ho]; exact hlt, by rw [ho]; exact (spec_of_mem_words hb).2.1, ?_, ?_⟩
  · simp only [Open.close, ho, htrim, if_neg hne]
  · rw [ho]
    exact hne

/-- The words of a line are pieces of it, none empty and none overlapping
another, one behind the other; they hold no blank, and every other character
of the line is in one of them, in order. Whatever labels there are for them,
however many, each piece that the decoder cuts out is there in the bytes of
the line, and every entity has a name. -/
theorem words_hold_what_is_not_blank (text : Text) (labels : List Text) :
    let closed := closings none ((words text).zip (labels.map Mark.ofLabel))
    (∀ s ∈ words text, s.stop ≤ text.length
        ∧ (s.byteRange text).1 < (s.byteRange text).2
        ∧ Text.slice? text (s.byteRange text).1 (s.byteRange text).2 = some (s.cover text)
        ∧ ∀ c ∈ s.cover text, Text.isBlank c = false)
      ∧ (words text).Pairwise (fun s s' => (s.byteRange text).2 ≤ (s'.byteRange text).1)
      ∧ (words text).flatMap (·.cover text) = text.filter (fun c => !Text.isBlank c)
      ∧ (∀ i c, text[i]? = some c → Text.isBlank c = false →
          ∃! s, s ∈ words text ∧ s.start ≤ i ∧ i < s.stop)
      ∧ decode text (words text) labels = closed.flatMap (Open.close text)
      ∧ (∀ o ∈ closed, o.span.stop ≤ text.length
          ∧ Text.slice? text (o.span.byteRange text).1 (o.span.byteRange text).2
            = some (o.span.cover text))
      ∧ ∀ e ∈ decode text (words text) labels, e.name ≠ [] := by
  intro closed
  have hclosed : ∀ o ∈ closed, Reaches text o :=
    reaches_of_mem_closings (fun m hm => (List.of_mem_zip hm).1)
      (pairwise_zip_words text _) (by simp)
  have hdecode : decode text (words text) labels = closed.flatMap (Open.close text) :=
    decodeFrom_eq text none _
  refine ⟨fun s hs => ?_, ?_, flatMap_cover_words text, fun _ _ => existsUnique_word, hdecode,
    fun o ho => ?_, fun e he => ?_⟩
  · obtain ⟨hlt, hstop, hblank⟩ := spec_of_mem_words hs
    exact ⟨hstop, Span.byteRange_lt hlt hstop, Span.slice?_byteRange hlt.le, hblank⟩
  · exact (pairwise_words text).imp Span.byteRange_le
  · obtain ⟨hlt, hstop, -⟩ := (hclosed o ho).close_eq
    exact ⟨hstop, Span.slice?_byteRange hlt.le⟩
  · rw [hdecode, List.mem_flatMap] at he
    obtain ⟨o, ho, he⟩ := he
    obtain ⟨-, -, hclose, hne⟩ := (hclosed o ho).close_eq
    rw [hclose, List.mem_singleton] at he
    rw [he]
    exact hne

end Labels

end SourceDigest
