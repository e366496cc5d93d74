/-
What a pattern takes from a text.

A pattern that can take certain characters only, and at least so many of
them, leads from a place to a later one across just such a stretch
(`Leads`). A run answers only with what its continuation says of a place
that it leads to (`answers_run`), by induction on the pattern; repetitions
need a rule of their own for their rounds, in which the bound on the
rounds plays no part.

Matches are then stretches of the text (`IsStretch`), and if a pattern
takes at least one character, none begins before the one in front of it
has ended (`isStretch_findAll`, `pairwise_findAll`). What a match keeps is a
part of the text, whatever the pattern (`isInfix_of_capture?`).
-/
import Mathlib
import SourceDigest.Pattern

namespace SourceDigest

namespace Pattern

variable {ok : Char → Prop} {p q : Pattern} {s e e' : Place} {α : Type} {a : α}
  {k : Place → Option α} {n m : Nat} {t text : Text} {last : Option Char}

/-- A pattern takes only characters of some kind. -/
def TakesOnly (ok : Char → Prop) : Pattern → Prop
  | nothing | atStart | atEnd | wordEdge => True
  | char test => ∀ c, test c = true → ok c
  | seq p q | either p q => TakesOnly ok p ∧ TakesOnly ok q
  | many p | fewest p | part _ p => TakesOnly ok p

/-- A text takes its own characters. -/
theorem takesOnly_ofText {w : Text} (hw : ∀ c ∈ w, ok c) :
    (ofText w).TakesOnly ok := by
  have hone : ∀ c, ok c → (char (· == c)).TakesOnly ok := by
    intro c hc d hd
    rw [beq_iff_eq] at hd
    exact hd ▸ hc
  induction w with
  | nil => trivial
  | cons c w ih =>
      obtain ⟨hc, hw⟩ := List.forall_mem_cons.1 hw
      cases w with
      | nil => exact hone c hc
      | cons d w => exact ⟨hone c hc, ih hw⟩

/-- The least number of characters that a pattern takes. -/
def least : Pattern → Nat
  | char _ => 1
  | seq p q => p.least + q.least
  | either p q => min p.least q.least
  | part _ p => p.least
  | nothing | many _ | fewest _ | atStart | atEnd | wordEdge => 0

-- ===================================================================== places

/-- From a place to a later one there are at least so many characters, all of
some kind. -/
def Leads (ok : Char → Prop) (n : Nat) (s e : Place) : Prop :=
  ∃ t, s.rest = t ++ e.rest ∧ e.passed = s.passed + t.length ∧ n ≤ t.length
    ∧ ∀ c ∈ t, ok c

theorem Leads.refl (s : Place) : Leads ok 0 s s :=
  ⟨[], rfl, rfl, Nat.le_refl _, by simp⟩

/-- What is left is an end of what was. -/
theorem Leads.suffix (h : Leads ok n s e) : e.rest <:+ s.rest := by
  obtain ⟨t, hrest, -⟩ := h
  exact ⟨t, hrest.symm⟩

/-- What leads over some characters leads over no more than that many at
least. -/
theorem Leads.mono (h : Leads ok n s e) (hm : m ≤ n) : Leads ok m s e := by
  obtain ⟨t, hrest, hpassed, hn, hok⟩ := h
  exact ⟨t, hrest, hpassed, hm.trans hn, hok⟩

/-- One stretch leads on from another. -/
theorem Leads.trans (h : Leads ok n s e) (h' : Leads ok m e e') :
    Leads ok (n + m) s e' := by
  obtain ⟨t, hrest, hpassed, hn, hok⟩ := h
  obtain ⟨t', hrest', hpassed', hm, hok'⟩ := h'
  refine ⟨t ++ t', ?_, ?_, ?_, ?_⟩
  · rw [hrest, hrest', List.append_assoc]
  · rw [hpassed', hpassed, List.length_append, Nat.add_assoc]
  · rw [List.length_append]
    omega
  · intro c hc
    rcases List.mem_append.1 hc with hc | hc
    · exact hok c hc
    · exact hok' c hc

/-- A step leads over one character. -/
theorem leads_of_step? {test : Char → Bool} (htest : ∀ c, test c = true → ok c)
    (h : s.step? test = some e) : Leads ok 1 s e := by
  unfold Place.step? at h
  split at h
  · rename_i c rest hrest
    split at h
    · rename_i hc
      cases h
      exact ⟨[c], hrest, rfl, Nat.le_refl _, by simpa using htest c hc⟩
    · cases h
  · cases h

-- ================================================================== one match

/-- What a step answers is said of a place in some relation to its own. -/
def AnswersIn (R : Place → Place → Prop)
    (step : Place → (Place → Option α) → Option α) : Prop :=
  ∀ s k a, step s k = some a → ∃ e, R s e ∧ k e = some a

section

variable {R : Place → Place → Prop} (hrefl : ∀ s, R s s)
  (htrans : ∀ {s e e'}, R s e → R e e' → R s e')
  {step : Place → (Place → Option α) → Option α} (h : AnswersIn R step)

include hrefl htrans h in
/-- A repetition answers as its rounds do, one after the other. -/
theorem answersIn_mostRounds (rounds : Nat) : AnswersIn R (mostRounds step rounds) := by
  induction rounds with
  | zero => exact fun s k a ha => ⟨s, hrefl s, ha⟩
  | succ rounds ih =>
      intro s k a ha
      rw [mostRounds] at ha
      split at ha
      · rename_i a' hstep
        cases ha
        -- the continuation of a round goes on with the rounds that are left
        obtain ⟨e, he, hrest⟩ := h _ _ _ hstep
        split at hrest
        · obtain ⟨e', he', hk⟩ := ih _ _ _ hrest
          exact ⟨e', htrans he he', hk⟩
        · cases hrest
      · exact ⟨s, hrefl s, ha⟩

include hrefl htrans h in
/-- It does so when as few rounds as may be are tried. -/
theorem answersIn_fewestRounds (rounds : Nat) :
    AnswersIn R (fewestRounds step rounds) := by
  induction rounds with
  | zero => exact fun s k a ha => ⟨s, hrefl s, ha⟩
  | succ rounds ih =>
      intro s k a ha
      rw [fewestRounds] at ha
      split at ha
      · rename_i a' hk
        cases ha
        exact ⟨s, hrefl s, hk⟩
      · obtain ⟨e, he, hrest⟩ := h _ _ _ ha
        split at hrest
        · obtain ⟨e', he', hk⟩ := ih _ _ _ hrest
          exact ⟨e', htrans he he', hk⟩
        · cases hrest

end

/-- What a step answers is said of a place that it leads to. -/
def Answers (ok : Char → Prop) (n : Nat)
    (step : Place → (Place → Option α) → Option α) : Prop :=
  ∀ s k a, step s k = some a → ∃ e, Leads ok n s e ∧ k e = some a

/-- A step that leads anywhere leads somewhere. -/
theorem Answers.answersIn {step : Place → (Place → Option α) → Option α}
    (h : Answers ok n step) : AnswersIn (Leads ok 0) step := by
  intro s k a ha
  obtain ⟨e, he, hk⟩ := h s k a ha
  exact ⟨e, he.mono (Nat.zero_le _), hk⟩

/-- What a run answers is said of a place that the pattern leads to. -/
theorem answers_run (hp : p.TakesOnly ok) :
    Answers ok p.least (run (α := α) p) := by
  induction p with
  | nothing => exact fun s k a ha => ⟨s, .refl s, ha⟩
  | char test =>
      intro s k a ha
      rw [run] at ha
      split at ha
      · rename_i e hstep
        exact ⟨e, leads_of_step? hp hstep, ha⟩
      · cases ha
  | seq p q ihp ihq =>
      intro s k a ha
      rw [run] at ha
      obtain ⟨e, he, hrest⟩ := ihp hp.1 _ _ _ ha
      obtain ⟨e', he', hk⟩ := ihq hp.2 _ _ _ hrest
      exact ⟨e', he.trans he', hk⟩
  | either p q ihp ihq =>
      intro s k a ha
      rw [run] at ha
      split at ha
      · rename_i a' hleft
        cases ha
        obtain ⟨e, he, hk⟩ := ihp hp.1 _ _ _ hleft
        exact ⟨e, he.mono (Nat.min_le_left ..), hk⟩
      · obtain ⟨e, he, hk⟩ := ihq hp.2 _ _ _ ha
        exact ⟨e, he.mono (Nat.min_le_right ..), hk⟩
  | many p ih =>
      intro s k a ha
      rw [run] at ha
      exact answersIn_mostRounds Leads.refl Leads.trans (ih hp).answersIn _ _ _ _ ha
  | fewest p ih =>
      intro s k a ha
      rw [run] at ha
      exact answersIn_fewestRounds Leads.refl Leads.trans (ih hp).answersIn _ _ _ _ ha
  | part i p ih =>
      intro s k a ha
      rw [run] at ha
      obtain ⟨e, he, hk⟩ := ih hp _ _ _ ha
      exact ⟨{ e with parts := (i, s.between e) :: e.parts }, he, hk⟩
  | atStart | atEnd | wordEdge =>
      intro s k a ha
      rw [run] at ha
      split at ha
      · exact ⟨s, .refl s, ha⟩
      · cases ha

/-- Up to a match some characters are passed over, and then the pattern takes
its own. -/
theorem exists_of_findFrom? (hp : p.TakesOnly ok)
    (h : findFrom? p n last t = some (m, e)) :
    ∃ before taken, t = before ++ (taken ++ e.rest) ∧ m = n + before.length
      ∧ e.passed = m + taken.length ∧ p.least ≤ taken.length
      ∧ ∀ c ∈ taken, ok c := by
  have hhere : ∀ {n last t e}, endAt? p ⟨n, last, t, []⟩ = some e →
      ∃ taken, t = taken ++ e.rest ∧ e.passed = n + taken.length
        ∧ p.least ≤ taken.length ∧ ∀ c ∈ taken, ok c := by
    intro n last t e hend
    obtain ⟨e', he', hsome⟩ := answers_run hp _ _ _ hend
    cases hsome
    exact he'
  induction t generalizing n last with
  | nil =>
      rw [findFrom?, Option.map_eq_some_iff] at h
      obtain ⟨e', hend, heq⟩ := h
      cases heq
      obtain ⟨taken, ht⟩ := hhere hend
      exact ⟨[], taken, ht.1, rfl, ht.2⟩
  | cons c t ih =>
      rw [findFrom?] at h
      split at h
      · rename_i e' hend
        cases h
        obtain ⟨taken, ht⟩ := hhere hend
        exact ⟨[], taken, ht.1, rfl, ht.2⟩
      · obtain ⟨before, taken, ht, hm, hrest⟩ := ih h
        refine ⟨c :: before, taken, ?_, ?_, hrest⟩
        · rw [ht, List.cons_append]
        · rw [hm, List.length_cons]
          omega

-- ================================================================ all matches

/-- Between two places of a text there is a character, and all of them are of
some kind. -/
structure IsStretch (ok : Char → Prop) (text : Text) (start stop : Nat) :
    Prop where
  lt : start < stop
  chars : ∀ i, start ≤ i → i < stop → ∃ c, text[i]? = some c ∧ ok c

/-- What is taken after some characters is a stretch. -/
theorem isStretch_of_append {front taken rest : Text}
    (htext : text = front ++ (taken ++ rest)) (htaken : 1 ≤ taken.length)
    (hok : ∀ c ∈ taken, ok c) :
    IsStretch ok text front.length (front.length + taken.length) := by
  refine ⟨by omega, fun i hfrom hto => ?_⟩
  have hi : i - front.length < taken.length := by omega
  refine ⟨taken[i - front.length], ?_, hok _ (List.getElem_mem hi)⟩
  rw [htext, List.getElem?_append_right hfrom, List.getElem?_append_left hi,
    List.getElem?_eq_getElem hi]

/-- The matches from a place on lie behind it, one behind the other. -/
private theorem findAllFrom_spec (hp : p.TakesOnly ok) (hleast : 1 ≤ p.least)
    {front : Text} (count : Nat) (htext : text = front ++ s.rest)
    (hs : s.passed = front.length) :
    (∀ m ∈ findAllFrom p count s,
        s.passed ≤ m.start ∧ IsStretch ok text m.start m.stop)
      ∧ (findAllFrom p count s).Pairwise fun m m' => m.stop ≤ m'.start := by
  induction count generalizing s front with
  | zero =>
      rw [findAllFrom]
      exact ⟨by simp, List.Pairwise.nil⟩
  | succ count ih =>
      rw [findAllFrom]
      split
      · exact ⟨by simp, List.Pairwise.nil⟩
      · rename_i start e hfind
        obtain ⟨before, taken, hrest, hstart, hstop, hlen, hok⟩ :=
          exists_of_findFrom? hp hfind
        have htext' : text = (front ++ before) ++ (taken ++ e.rest) := by
          rw [htext, hrest, List.append_assoc]
        have hplace : start = (front ++ before).length := by
          rw [hstart, hs, List.length_append]
        have hstretch := isStretch_of_append htext' (hleast.trans hlen) hok
        rw [← hplace, ← hstop] at hstretch
        have hbehind : text = ((front ++ before) ++ taken) ++ e.rest := by
          rw [htext']
          simp only [List.append_assoc]
        have hlater := ih (s := { e with parts := [] }) hbehind
          (by rw [List.length_append, ← hplace]; exact hstop)
        rw [if_pos hstretch.lt]
        constructor
        · intro m hm
          rcases List.mem_cons.1 hm with rfl | hm
          · exact ⟨by dsimp only; omega, hstretch⟩
          · have hbehind := (hlater.1 m hm).1
            refine ⟨?_, (hlater.1 m hm).2⟩
            have := hstretch.lt
            dsimp only at hbehind
            omega
        · exact List.Pairwise.cons (fun m hm => (hlater.1 m hm).1) hlater.2

/-- Every match is a stretch of what the pattern takes. -/
theorem isStretch_findAll (hp : p.TakesOnly ok) (hleast : 1 ≤ p.least)
    {found : Match} (h : found ∈ findAll p text) :
    IsStretch ok text found.start found.stop :=
  ((findAllFrom_spec hp hleast _ (List.nil_append text).symm rfl).1 found h).2

/-- No match begins before the one in front of it has ended. -/
theorem pairwise_findAll (hp : p.TakesOnly ok) (hleast : 1 ≤ p.least)
    (text : Text) :
    (findAll p text).Pairwise fun m m' => m.stop ≤ m'.start :=
  (findAllFrom_spec hp hleast _ (List.nil_append text).symm rfl).2

-- ============================================================= the last part

theorem takesOnly_true (p : Pattern) : p.TakesOnly fun _ => True := by
  induction p with
  | seq p q ihp ihq | either p q ihp ihq => exact ⟨ihp, ihq⟩
  | many p ih | fewest p ih | part n p ih => exact ih
  | nothing | atStart | atEnd | wordEdge => trivial
  | char test => exact fun _ _ => trivial

/-- What is found is a match at a place of the text, with nothing kept before. -/
theorem exists_endAt_of_findFrom? (h : findFrom? p n last t = some (m, e)) :
    ∃ s, s.rest <:+ t ∧ s.parts = [] ∧ endAt? p s = some e := by
  induction t generalizing n last with
  | nil =>
      rw [findFrom?, Option.map_eq_some_iff] at h
      obtain ⟨e', hend, heq⟩ := h
      cases heq
      exact ⟨_, List.suffix_rfl, rfl, hend⟩
  | cons c t ih =>
      rw [findFrom?] at h
      split at h
      · rename_i e' hend
        cases h
        exact ⟨_, List.suffix_rfl, rfl, hend⟩
      · obtain ⟨s, hs, hparts, hend⟩ := ih h
        exact ⟨s, hs.trans (List.suffix_cons ..), hparts, hend⟩

/-- Where a pattern is found whose last part is a character, there is such a
character. -/
theorem exists_mem_of_isIn {test : Char → Bool}
    (h : isIn (seq p (char test)) t = true) : ∃ c ∈ t, test c = true := by
  unfold isIn find? at h
  rw [Option.isSome_map, Option.isSome_iff_exists] at h
  obtain ⟨⟨m, e⟩, hfind⟩ := h
  obtain ⟨s, hs, -, hend⟩ := exists_endAt_of_findFrom? hfind
  rw [endAt?, run] at hend
  obtain ⟨e', ⟨front, hfront, -⟩, hchar⟩ :=
    answers_run (takesOnly_true p) _ _ _ hend
  rw [run] at hchar
  split at hchar
  · rename_i hstep
    have hleads : Leads (test · = true) 1 e' _ := leads_of_step? (fun _ => id) hstep
    obtain ⟨taken, htaken, -, hlen, hok⟩ := hleads
    obtain ⟨c, taken, rfl⟩ := List.exists_cons_of_length_pos hlen
    refine ⟨c, hs.subset ?_, hok c (by simp)⟩
    rw [hfront, htaken]
    simp
  · cases hchar

-- ============================================================= what is kept

/-- From a place to a later one nothing is kept but what stands behind it. -/
def KeepsParts (s e : Place) : Prop :=
  e.rest <:+ s.rest ∧ ∀ kept ∈ e.parts, kept ∈ s.parts ∨ kept.2 <:+: s.rest

theorem KeepsParts.refl (s : Place) : KeepsParts s s :=
  ⟨List.suffix_rfl, fun _ => Or.inl⟩

theorem KeepsParts.trans (h : KeepsParts s e) (h' : KeepsParts e e') :
    KeepsParts s e' := by
  refine ⟨h'.1.trans h.1, fun kept hkept => ?_⟩
  rcases h'.2 kept hkept with hbefore | hpart
  · exact h.2 kept hbefore
  · exact Or.inr (hpart.trans h.1.isInfix)

/-- A step notes no part. -/
theorem keepsParts_of_step? {test : Char → Bool} (h : s.step? test = some e) :
    KeepsParts s e := by
  unfold Place.step? at h
  split at h
  · rename_i c rest hrest
    split at h
    · cases h
      exact ⟨hrest ▸ List.suffix_cons c rest, fun _ => Or.inl⟩
    · cases h
  · cases h

/-- A part that is kept is what stands between two places. -/
theorem KeepsParts.keep (h : KeepsParts s e) (i : Nat) :
    KeepsParts s { e with parts := (i, s.between e) :: e.parts } := by
  refine ⟨h.1, fun kept hkept => ?_⟩
  rcases List.mem_cons.1 hkept with rfl | hkept
  · exact Or.inr (List.take_prefix ..).isInfix
  · exact h.2 kept hkept

/-- Whatever a pattern takes, it keeps parts of the text alone. -/
theorem keepsParts_run (p : Pattern) : AnswersIn KeepsParts (run (α := α) p) := by
  induction p with
  | nothing => exact fun s k a ha => ⟨s, .refl s, ha⟩
  | char test =>
      intro s k a ha
      rw [run] at ha
      split at ha
      · rename_i e hstep
        exact ⟨e, keepsParts_of_step? hstep, ha⟩
      · cases ha
  | seq p q ihp ihq =>
      intro s k a ha
      rw [run] at ha
      obtain ⟨e, he, hrest⟩ := ihp _ _ _ ha
      obtain ⟨e', he', hk⟩ := ihq _ _ _ hrest
      exact ⟨e', he.trans he', hk⟩
  | either p q ihp ihq =>
      intro s k a ha
      rw [run] at ha
      split at ha
      · rename_i a' hleft
        cases ha
        exact ihp _ _ _ hleft
      · exact ihq _ _ _ ha
  | many p ih =>
      intro s k a ha
      rw [run] at ha
      exact answersIn_mostRounds KeepsParts.refl KeepsParts.trans ih _ _ _ _ ha
  | fewest p ih =>
      intro s k a ha
      rw [run] at ha
      exact answersIn_fewestRounds KeepsParts.refl KeepsParts.trans ih _ _ _ _ ha
  | part i p ih =>
      intro s k a ha
      rw [run] at ha
      obtain ⟨e, he, hk⟩ := ih _ _ _ ha
      exact ⟨_, he.keep i, hk⟩
  | atStart | atEnd | wordEdge =>
      intro s k a ha
      rw [run] at ha
      split at ha
      · exact ⟨s, .refl s, ha⟩
      · cases ha

/-- What is captured from a text is a part of it. -/
theorem isInfix_of_capture? {raw : Text} (h : capture? p n t = some raw) :
    raw <:+: t := by
  obtain ⟨found, hfind, hpart⟩ := Option.bind_eq_some_iff.1 h
  obtain ⟨⟨m, e⟩, hfrom, rfl⟩ := Option.map_eq_some_iff.1 hfind
  obtain ⟨⟨i, kept⟩, hkept, rfl⟩ := Option.map_eq_some_iff.1 hpart
  obtain ⟨s, hs, hparts, hend⟩ := exists_endAt_of_findFrom? hfrom
  obtain ⟨e', ⟨-, hall⟩, hsome⟩ := keepsParts_run p _ _ _ hend
  cases hsome
  rcases hall _ (List.mem_of_find?_eq_some hkept) with hbefore | hpart
  · rw [hparts] at hbefore
    cases hbefore
  · exact hpart.trans hs.isInfix

end Pattern

end SourceDigest
