/-
Running a pattern on a text that is given piece by piece.

A run goes through a pattern from left to right, so it can be followed
along a text of known pieces: a word takes itself (`run_ofText`), and a
repetition of one character tries a longer or a shorter stretch first
(`run_many_cons`, `run_fewest_cons`). What comes of it is settled by what
the continuation says at the ends of these stretches: a greedy repetition
takes all that it may if that leads to an answer or nothing less does.

A pattern that is held to the start of a text is found there or not at all
(`find?_of_anchored`).
-/
import Mathlib
import SourceDigest.Pattern

namespace SourceDigest

namespace Pattern

variable {α : Type} {a : α} {p q : Pattern} {ok : Char → Bool} {n m : Nat}
  {l : Option Char} {t u g r : Text} {c : Char} {s e : Place}
  {parts : List (Nat × Text)} {k : Place → Option α}

-- ===================================================================== pieces

/-- What follows goes on where the first pattern ends. -/
theorem run_append (p q : Pattern) (s : Place) (k : Place → Option α) :
    run (p ++ q) s k = run p s fun e => run q e k := rfl

/-- The second pattern is tried where the first leads nowhere. -/
theorem run_orElse (p q : Pattern) (s : Place) (k : Place → Option α) :
    run (p <|> q) s k = (run p s k).or (run q s k) := by
  show run (either p q) s k = _
  rw [run]
  cases run p s k <;> rfl

/-- What may be left out is left out only where taking it leads nowhere. -/
theorem run_opt (p : Pattern) (s : Place) (k : Place → Option α) :
    run (opt p) s k = (run p s k).or (k s) :=
  run_orElse p nothing s k

/-- A part notes what stands between its ends. -/
theorem run_part (i : Nat) (p : Pattern) (s : Place) (k : Place → Option α) :
    run (part i p) s k
      = run p s fun e => k { e with parts := (i, s.between e) :: e.parts } := rfl

/-- A character is taken if it passes the test. -/
theorem run_char_cons (c : Char) (t : Text) :
    run (char ok) ⟨n, l, c :: t, parts⟩ k
      = if ok c = true then k ⟨n + 1, some c, t, parts⟩ else none := by
  rw [run]
  unfold Place.step?
  dsimp only
  cases ok c <;> rfl

theorem run_char_pos (hc : ok c = true) :
    run (char ok) ⟨n, l, c :: t, parts⟩ k = k ⟨n + 1, some c, t, parts⟩ := by
  rw [run_char_cons, if_pos hc]

theorem run_char_self (c : Char) (t : Text) :
    run (char (· == c)) ⟨n, l, c :: t, parts⟩ k
      = k ⟨n + 1, some c, t, parts⟩ := by
  have hc : (fun b => b == c) c = true := beq_self_eq_true c
  exact run_char_pos hc

/-- What a character answers is said behind it. -/
theorem exists_of_run_char (h : run (char ok) ⟨n, l, t, parts⟩ k = some a) :
    ∃ c u, t = c :: u ∧ ok c = true
      ∧ k ⟨n + 1, some c, u, parts⟩ = some a := by
  cases t with
  | nil => cases h
  | cons c t =>
      rw [run_char_cons] at h
      split at h
      · exact ⟨c, t, rfl, ‹_›, h⟩
      · cases h

/-- Nothing is taken where no character passes. -/
theorem run_char_neg (ht : ∀ c, t.head? = some c → ok c = false) :
    run (char ok) ⟨n, l, t, parts⟩ k = none := by
  cases t with
  | nil => rfl
  | cons c t => rw [run_char_cons, if_neg (by simp [ht c rfl])]

/-- Nor can there be one or more of them. -/
theorem run_many1_neg (ht : ∀ c, t.head? = some c → ok c = false) :
    run (many1 (char ok)) ⟨n, l, t, parts⟩ k = none :=
  run_char_neg ht

theorem run_atStart_start :
    run atStart (Place.start t) k = k (Place.start t) := rfl

/-- The start is nowhere but in front. -/
theorem run_atStart_of_ne (h : s.passed ≠ 0) : run atStart s k = none :=
  if_neg h

/-- The place behind a character and a stretch is that behind the stretch from
the place behind the character. -/
theorem place_cons (c : Char) (g : Text) :
    (⟨n + (c :: g).length, (c :: g).getLast?.or l, r, parts⟩ : Place)
      = ⟨n + 1 + g.length, g.getLast?.or (some c), r, parts⟩ := by
  rw [List.getLast?_cons, Option.some_or, List.length_cons, Nat.add_right_comm,
    Nat.add_assoc]
  cases g.getLast? <;> rfl

/-- What stands between two places. -/
theorem between_append (g : Text) {m : Option Char} :
    Place.between ⟨n, l, g ++ r, parts⟩ ⟨n + g.length, m, r, parts⟩ = g := by
  unfold Place.between
  dsimp only
  rw [Nat.add_sub_cancel_left, List.take_left]

/-- A word takes itself. -/
theorem run_ofText (w : Text) :
    run (ofText w) ⟨n, l, w ++ t, parts⟩ k
      = k ⟨n + w.length, w.getLast?.or l, t, parts⟩ := by
  induction w generalizing n l with
  | nil => rfl
  | cons c w ih =>
      cases w with
      | nil =>
          show run (char (· == c)) _ _ = _
          exact run_char_self c t
      | cons d w =>
          show run (char (· == c)) _ (fun e => run (ofText (d :: w)) e k) = _
          rw [List.cons_append, run_char_self, ih, place_cons c]

/-- A word takes nothing where the text does not go on with it. -/
theorem run_ofText_of_not_lead {w : Text} (h : ¬ w <+: t) :
    run (ofText w) ⟨n, l, t, parts⟩ k = none := by
  induction w generalizing n l t with
  | nil => exact absurd (List.nil_prefix) h
  | cons c w ih =>
      have hchar : ∀ k' : Place → Option α,
          (∀ u, t = c :: u → k' ⟨n + 1, some c, u, parts⟩ = none) →
          run (char (· == c)) ⟨n, l, t, parts⟩ k' = none := by
        intro k' hk'
        cases t with
        | nil => exact run_char_neg (by simp)
        | cons b t =>
            by_cases hb : b = c
            · subst hb
              rw [run_char_self]
              exact hk' t rfl
            · exact run_char_neg (by simpa using hb)
      cases w with
      | nil =>
          refine hchar k fun u hu => absurd ?_ h
          rw [hu]
          exact ⟨u, rfl⟩
      | cons d w =>
          refine hchar (fun e => run (ofText (d :: w)) e k) fun u hu => ih ?_
          rintro ⟨v, rfl⟩
          exact h ⟨v, by rw [hu]; rfl⟩

/-- What a word answers is said behind it. -/
theorem exists_of_run_ofText {w : Text}
    (h : run (ofText w) ⟨n, l, t, parts⟩ k = some a) :
    ∃ u, t = w ++ u
      ∧ k ⟨n + w.length, w.getLast?.or l, u, parts⟩ = some a := by
  by_cases hw : w <+: t
  · obtain ⟨u, rfl⟩ := hw
    rw [run_ofText] at h
    exact ⟨u, rfl, h⟩
  · rw [run_ofText_of_not_lead hw] at h
    cases h

/-- Behind the edge of a word nothing is taken yet. -/
theorem exists_of_run_wordEdge (h : run wordEdge s k = some a) :
    s.isWordEdge = true ∧ k s = some a := by
  replace h : (if s.isWordEdge then k s else none) = some a := h
  split at h
  · exact ⟨‹_›, h⟩
  · cases h

/-- At the end nothing is left. -/
theorem exists_of_run_atEnd (h : run atEnd s k = some a) :
    s.rest = [] ∧ k s = some a := by
  replace h : (if s.rest.isEmpty then k s else none) = some a := h
  split at h
  · exact ⟨List.isEmpty_iff.1 ‹_›, h⟩
  · cases h

theorem run_wordEdge (hs : s.isWordEdge = true) : run wordEdge s k = k s :=
  if_pos hs

-- ================================================================ repetitions

/-- As many as may be: one more is tried before going on. -/
theorem run_many_cons (hc : ok c = true) :
    run (many (char ok)) ⟨n, l, c :: t, parts⟩ k
      = (run (many (char ok)) ⟨n + 1, some c, t, parts⟩ k).or
          (k ⟨n, l, c :: t, parts⟩) := by
  show mostRounds (fun s k => run (char ok) s k) (t.length + 1) _ k = _
  rw [mostRounds, run_char_pos hc, if_pos (Nat.lt_succ_self n)]
  have hmore : mostRounds (fun s k => run (char ok) s k) t.length
      ⟨n + 1, some c, t, parts⟩ k
      = run (many (char ok)) ⟨n + 1, some c, t, parts⟩ k := rfl
  rw [hmore]
  cases run (many (char ok)) ⟨n + 1, some c, t, parts⟩ k <;> rfl

/-- As few as may be: going on is tried before one more. -/
theorem run_fewest_cons (hc : ok c = true) :
    run (fewest (char ok)) ⟨n, l, c :: t, parts⟩ k
      = (k ⟨n, l, c :: t, parts⟩).or
          (run (fewest (char ok)) ⟨n + 1, some c, t, parts⟩ k) := by
  show fewestRounds (fun s k => run (char ok) s k) (t.length + 1) _ k = _
  rw [fewestRounds, run_char_pos hc, if_pos (Nat.lt_succ_self n)]
  cases k ⟨n, l, c :: t, parts⟩ <;> rfl

/-- Where the next character fails there is nothing to try but going on. -/
theorem run_many_stop (ht : ∀ c, t.head? = some c → ok c = false) :
    run (many (char ok)) ⟨n, l, t, parts⟩ k = k ⟨n, l, t, parts⟩ := by
  cases t with
  | nil => rfl
  | cons c t =>
      show mostRounds (fun s k => run (char ok) s k) (t.length + 1) _ k = _
      rw [mostRounds, run_char_neg ht]

theorem run_fewest_stop (ht : ∀ c, t.head? = some c → ok c = false) :
    run (fewest (char ok)) ⟨n, l, t, parts⟩ k = k ⟨n, l, t, parts⟩ := by
  cases t with
  | nil => rfl
  | cons c t =>
      show fewestRounds (fun s k => run (char ok) s k) (t.length + 1) _ k = _
      rw [fewestRounds, run_char_neg ht]
      cases k ⟨n, l, c :: t, parts⟩ <;> rfl

/-- A lazy repetition takes nothing if that leads to an answer. -/
theorem run_fewest_of_some (hk : k ⟨n, l, t, parts⟩ = some a) :
    run (fewest (char ok)) ⟨n, l, t, parts⟩ k = some a := by
  by_cases ht : ∀ c, t.head? = some c → ok c = false
  · rwa [run_fewest_stop ht]
  · push Not at ht
    obtain ⟨c, hhead, hc⟩ := ht
    obtain ⟨t, rfl⟩ := List.head?_eq_some_iff.1 hhead
    rw [run_fewest_cons (by simpa using hc), hk, Option.some_or]

section

variable (hg : ∀ c ∈ g, ok c = true)

include hg in
/-- A greedy repetition takes a whole stretch if that leads to an answer. -/
theorem run_many_of_some (hr : ∀ c, r.head? = some c → ok c = false)
    (hk : k ⟨n + g.length, g.getLast?.or l, r, parts⟩ = some a) :
    run (many (char ok)) ⟨n, l, g ++ r, parts⟩ k = some a := by
  induction g generalizing n l with
  | nil => rw [List.nil_append, run_many_stop hr]; exact hk
  | cons c g ih =>
      rw [place_cons] at hk
      rw [List.cons_append, run_many_cons (hg c (List.mem_cons_self ..)),
        ih (fun d hd => hg d (List.mem_cons_of_mem _ hd)) hk, Option.some_or]

include hg in
/-- Where going on behind a whole stretch leads somewhere, it is taken
whole. -/
theorem run_many1_of_some (hne : g ≠ [])
    (hr : ∀ c, r.head? = some c → ok c = false)
    (hk : k ⟨n + g.length, g.getLast?.or l, r, parts⟩ = some a) :
    run (many1 (char ok)) ⟨n, l, g ++ r, parts⟩ k = some a := by
  obtain ⟨c, g, rfl⟩ := List.exists_cons_of_ne_nil hne
  obtain ⟨hc, hg⟩ := List.forall_mem_cons.1 hg
  show run (char ok) _ (fun e => run (many (char ok)) e k) = _
  rw [place_cons] at hk
  rw [List.cons_append, run_char_pos hc]
  exact run_many_of_some hg hr hk

include hg in
/-- A greedy repetition takes a whole stretch if a shorter one leads to
nothing. -/
theorem run_many_of_refuses (hr : ∀ c, r.head? = some c → ok c = false)
    (hk : ∀ m l c u, ok c = true → k ⟨m, l, c :: u, parts⟩ = none) :
    run (many (char ok)) ⟨n, l, g ++ r, parts⟩ k
      = k ⟨n + g.length, g.getLast?.or l, r, parts⟩ := by
  induction g generalizing n l with
  | nil => exact run_many_stop hr
  | cons c g ih =>
      have hc := hg c (List.mem_cons_self ..)
      rw [List.cons_append, run_many_cons hc, hk _ _ _ _ hc, Option.or_none,
        ih fun d hd => hg d (List.mem_cons_of_mem _ hd), place_cons]

include hg in
/-- So it is where going on is refused within the stretch. -/
theorem run_many1_of_refuses (hne : g ≠ [])
    (hr : ∀ c, r.head? = some c → ok c = false)
    (hk : ∀ m l c u, ok c = true → k ⟨m, l, c :: u, parts⟩ = none) :
    run (many1 (char ok)) ⟨n, l, g ++ r, parts⟩ k
      = k ⟨n + g.length, g.getLast?.or l, r, parts⟩ := by
  obtain ⟨c, g, rfl⟩ := List.exists_cons_of_ne_nil hne
  obtain ⟨hc, hg⟩ := List.forall_mem_cons.1 hg
  show run (char ok) _ (fun e => run (many (char ok)) e k) = _
  rw [List.cons_append, run_char_pos hc, run_many_of_refuses hg hr hk, place_cons]

include hg in
/-- A lazy repetition goes over what leads to nothing. -/
theorem run_fewest_of_refuses
    (hk : ∀ m l h c u, g = h ++ c :: u → k ⟨m, l, c :: u ++ r, parts⟩ = none) :
    run (fewest (char ok)) ⟨n, l, g ++ r, parts⟩ k
      = run (fewest (char ok))
          ⟨n + g.length, g.getLast?.or l, r, parts⟩ k := by
  induction g generalizing n l with
  | nil => rfl
  | cons c g ih =>
      rw [List.cons_append, run_fewest_cons (hg c (List.mem_cons_self ..)),
        ← List.cons_append, hk n l [] c g rfl, Option.none_or,
        ih (fun d hd => hg d (List.mem_cons_of_mem _ hd))
          (fun m l h d u hu => hk m l (c :: h) d u (by rw [hu]; rfl)),
        place_cons]

include hg in
/-- A greedy repetition answers if it does at the end of some stretch. -/
theorem isSome_run_many
    (hk : (k ⟨n + g.length, g.getLast?.or l, r, parts⟩).isSome) :
    (run (many (char ok)) ⟨n, l, g ++ r, parts⟩ k).isSome := by
  induction g generalizing n l with
  | nil =>
      cases r with
      | nil => rwa [List.nil_append, run_many_stop (by simp)]
      | cons c r =>
          by_cases hc : ok c = true
          · rw [List.nil_append, run_many_cons hc, Option.isSome_or]
            exact Bool.or_eq_true_iff.2 (Or.inr hk)
          · rwa [List.nil_append, run_many_stop (by simpa using hc)]
  | cons c g ih =>
      rw [place_cons] at hk
      rw [List.cons_append, run_many_cons (hg c (List.mem_cons_self ..)),
        Option.isSome_or]
      exact Bool.or_eq_true_iff.2 (Or.inl
        (ih (fun d hd => hg d (List.mem_cons_of_mem _ hd)) hk))

include hg in
/-- A stretch leads somewhere if going on behind all of it does. -/
theorem isSome_run_many1 (hne : g ≠ [])
    (hk : (k ⟨n + g.length, g.getLast?.or l, r, parts⟩).isSome) :
    (run (many1 (char ok)) ⟨n, l, g ++ r, parts⟩ k).isSome := by
  obtain ⟨c, g, rfl⟩ := List.exists_cons_of_ne_nil hne
  obtain ⟨hc, hg⟩ := List.forall_mem_cons.1 hg
  show (run (char ok) _ fun e => run (many (char ok)) e k).isSome
  rw [place_cons] at hk
  rw [List.cons_append, run_char_pos hc]
  exact isSome_run_many hg hk

include hg in
/-- A lazy repetition answers if it does at the end of some stretch. -/
theorem isSome_run_fewest
    (hk : (k ⟨n + g.length, g.getLast?.or l, r, parts⟩).isSome) :
    (run (fewest (char ok)) ⟨n, l, g ++ r, parts⟩ k).isSome := by
  induction g generalizing n l with
  | nil =>
      cases r with
      | nil => rwa [List.nil_append, run_fewest_stop (by simp)]
      | cons c r =>
          by_cases hc : ok c = true
          · rw [List.nil_append, run_fewest_cons hc, Option.isSome_or]
            exact Bool.or_eq_true_iff.2 (Or.inl hk)
          · rwa [List.nil_append, run_fewest_stop (by simpa using hc)]
  | cons c g ih =>
      rw [place_cons] at hk
      rw [List.cons_append, run_fewest_cons (hg c (List.mem_cons_self ..)),
        Option.isSome_or]
      exact Bool.or_eq_true_iff.2 (Or.inr
        (ih (fun d hd => hg d (List.mem_cons_of_mem _ hd)) hk))

end

/-- What a greedy repetition answers is said at the end of some stretch. -/
theorem exists_of_run_many
    (h : run (many (char ok)) ⟨n, l, t, parts⟩ k = some a) :
    ∃ g r, t = g ++ r ∧ (∀ c ∈ g, ok c = true)
      ∧ k ⟨n + g.length, g.getLast?.or l, r, parts⟩ = some a := by
  induction t generalizing n l with
  | nil => exact ⟨[], [], rfl, by simp, by rwa [run_many_stop (by simp)] at h⟩
  | cons c t ih =>
      by_cases hc : ok c = true
      · rw [run_many_cons hc, Option.or_eq_some_iff] at h
        rcases h with h | ⟨-, h⟩
        · obtain ⟨g, r, rfl, hg, hk⟩ := ih h
          refine ⟨c :: g, r, rfl, by simpa [hc] using hg, ?_⟩
          rw [place_cons]
          exact hk
        · exact ⟨[], c :: t, rfl, by simp, h⟩
      · rw [run_many_stop (by simpa using hc)] at h
        exact ⟨[], c :: t, rfl, by simp, h⟩

/-- The same when it takes at least one character. -/
theorem exists_of_run_many1
    (h : run (many1 (char ok)) ⟨n, l, t, parts⟩ k = some a) :
    ∃ g r, t = g ++ r ∧ g ≠ [] ∧ (∀ c ∈ g, ok c = true)
      ∧ k ⟨n + g.length, g.getLast?.or l, r, parts⟩ = some a := by
  obtain ⟨c, u, rfl, hc, hmore⟩ :=
    exists_of_run_char (k := fun e => run (many (char ok)) e k) h
  obtain ⟨g, r, rfl, hg, hk⟩ := exists_of_run_many hmore
  refine ⟨c :: g, r, rfl, List.cons_ne_nil c g, List.forall_mem_cons.2 ⟨hc, hg⟩, ?_⟩
  rw [place_cons]
  exact hk

-- ===================================================================== finding

/-- A pattern that is held to the start of the text. -/
def IsAnchored (p : Pattern) : Prop :=
  ∀ (s : Place) (k : Place → Option Place), s.passed ≠ 0 → run p s k = none

theorem isAnchored_atStart : IsAnchored atStart :=
  fun _ _ h => run_atStart_of_ne h

theorem IsAnchored.append (hp : p.IsAnchored) (q : Pattern) :
    IsAnchored (p ++ q) :=
  fun s _ hs => hp s _ hs

/-- What is held to the start is found there or not at all. -/
theorem find?_of_anchored (hp : p.IsAnchored) (t : Text) :
    find? p t = (endAt? p (Place.start t)).map fun e =>
      ⟨0, e.passed, e.parts⟩ := by
  have hlater : ∀ (t : Text) n l, n ≠ 0 → findFrom? p n l t = none := by
    intro t
    induction t with
    | nil =>
        intro n l hn
        rw [findFrom?, endAt?, hp _ _ hn]
        rfl
    | cons c t ih =>
        intro n l hn
        rw [findFrom?, endAt?, hp _ _ hn]
        exact ih _ _ (Nat.succ_ne_zero n)
  unfold find?
  cases t with
  | nil =>
      rw [findFrom?]
      show ((endAt? p (Place.start [])).map _).map _ = _
      rw [Option.map_map]
      rfl
  | cons c t =>
      rw [findFrom?]
      have hstart : endAt? p ⟨0, none, c :: t, []⟩
          = endAt? p (Place.start (c :: t)) := rfl
      rw [hstart]
      cases endAt? p (Place.start (c :: t)) with
      | none => rw [hlater t 1 _ one_ne_zero]; rfl
      | some e => rfl

/-- A pattern tied to the start is in a text if it stands in front. -/
theorem isIn_of_anchored (hp : p.IsAnchored) (t : Text) :
    isIn p t = (endAt? p (Place.start t)).isSome := by
  unfold isIn
  rw [find?_of_anchored hp, Option.isSome_map]

/-- Characters are passed over that no match begins with. -/
theorem findFrom?_append_of_refuses {x : Text}
    (hx : ∀ n l u, ∀ c ∈ x, endAt? p ⟨n, l, c :: u, []⟩ = none) :
    findFrom? p n l (x ++ t) = findFrom? p (n + x.length) (x.getLast?.or l) t := by
  induction x generalizing n l with
  | nil => rfl
  | cons c x ih =>
      have hrest : ∀ n l u, ∀ c ∈ x, endAt? p ⟨n, l, c :: u, []⟩ = none :=
        fun n l u d hd => hx n l u d (List.mem_cons_of_mem _ hd)
      rw [List.cons_append, findFrom?, hx _ _ _ c (List.mem_cons_self ..)]
      show findFrom? p (n + 1) (some c) (x ++ t) = _
      rw [ih hrest, List.getLast?_cons, Option.some_or, List.length_cons]
      congr 1
      · omega
      · cases x.getLast? <;> rfl

end Pattern

end SourceDigest
