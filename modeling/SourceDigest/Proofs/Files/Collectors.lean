/-
Collectors that share a queue find what one walk finds.

Collectors take their steps in any order, and nothing is said of the order
but that a step is taken whole. What holds in every state is collected in
`Sound`, which one step preserves (`Sound.step`) and so a schedule does
(`Sound.run`):

- Directories. What was queued so far is the root and what listings of the
  completed directories give, so the queue, the directories at work and
  the completed ones together hold each discovered directory once.
- Files. The files handed over and held back, with what is still to be
  taken under the directories that are pending, are the files to be taken
  under the root. Where a file is changes with every step; that it is
  somewhere once does not.
- The end. A directory at work is counted as active until the directories
  found in it are in the queue, so an empty queue with none active means
  that nothing is left to be found.

# Steps

`Turn` says once what a step can do. The collector that takes it stands
between those in front and those behind it in the list, which stay as they
are; every count over the collectors is then a sum of three.
-/
import Mathlib
import SourceDigest.Proofs.Files.Directories

namespace SourceDigest

namespace Collector

/-- The directory that a collector is at work on. -/
def dir? : Collector → Option Path
  | asking _ | leaving _ | stopped => none
  | listing dir _ | holding dir _ _ | publishing dir _ _ => some dir

/-- The directories that a collector is to list or to put into the queue. -/
def pending : Collector → List Path
  | asking _ | leaving _ | stopped => []
  | listing dir _ => [dir]
  | holding _ found _ | publishing _ found _ => found

/-- The files that a collector holds back. -/
def batch : Collector → List Path
  | asking batch | listing _ batch | holding _ _ batch | publishing _ _ batch
  | leaving batch => batch
  | stopped => []

/-- Whether a collector asks no more. -/
def hasLeft : Collector → Bool
  | leaving _ | stopped => true
  | _ => false

/-- What a collector found in its directory is what a listing gives. -/
def Faithful (w : Walk) : Collector → Prop
  | holding dir found _ | publishing dir found _ => found = w.dirsIn dir
  | _ => True

end Collector

namespace Collection

/-- The directories that collectors are at work on. -/
def scanning (c : Collection) : List Path :=
  c.collectors.filterMap Collector.dir?

/-- The directories that are to be listed, as far as they are known. -/
def pending (c : Collection) : List Path :=
  c.queue ++ c.collectors.flatMap Collector.pending

/-- The files that were found. -/
def held (c : Collection) : List Path :=
  c.files ++ c.collectors.flatMap Collector.batch

/-- The directory that is completed by the step of a collector, if one is. -/
def completes? (c : Collection) (i : Nat) : Option Path :=
  match c.collectors[i]? with
  | some (.publishing dir _ _) => some dir
  | _ => none

/-- The directories that are completed along a schedule. -/
def completed (w : Walk) (batchSize : Nat) (c : Collection) :
    (schedule : List Nat) → List Path
  | [] => []
  | i :: schedule =>
      (c.completes? i).toList
        ++ completed w batchSize (c.step w batchSize i) schedule

-- ====================================================================== steps

/-- Whether a step of a collector changes nothing: it has stopped, or it asks
while another one may still find directories. -/
def Waits (c : Collection) (i : Nat) : Prop :=
  match c.collectors[i]? with
  | some (.asking _) => c.queue = [] ∧ ¬(c.done = true ∨ c.active = 0)
  | some .stopped | none => True
  | some _ => False

/-- What a step can do, and the directory that it completes. -/
inductive Turn (w : Walk) (batchSize : Nat) (c : Collection) (i : Nat) :
    Collection → Option Path → Prop
  | wait : c.Waits i → Turn w batchSize c i c none
  | take {front back : List Collector} {batch rest : List Path} {dir : Path} :
    c.collectors = front ++ .asking batch :: back →
    c.queue = dir :: rest →
    Turn w batchSize c i
      { c with
        queue := rest
        active := c.active + 1
        collectors := front ++ .listing dir batch :: back } none
  | leave {front back : List Collector} {batch : List Path} :
    c.collectors = front ++ .asking batch :: back →
    c.queue = [] →
    c.done = true ∨ c.active = 0 →
    Turn w batchSize c i
      { c with
        done := true
        collectors := front ++ .leaving batch :: back } none
  | list {front back : List Collector} {batch : List Path} {dir : Path} :
    c.collectors = front ++ .listing dir batch :: back →
    Turn w batchSize c i
      { c with
        collectors :=
          front ++ .holding dir (w.dirsIn dir) (batch ++ w.filesIn dir) :: back }
      none
  | flush {front back : List Collector} {found batch : List Path} {dir : Path} :
    c.collectors = front ++ .holding dir found batch :: back →
    max 1 batchSize ≤ batch.length →
    Turn w batchSize c i
      { c with
        files := c.files ++ batch
        collectors := front ++ .publishing dir found [] :: back } none
  | keep {front back : List Collector} {found batch : List Path} {dir : Path} :
    c.collectors = front ++ .holding dir found batch :: back →
    ¬max 1 batchSize ≤ batch.length →
    Turn w batchSize c i
      { c with collectors := front ++ .publishing dir found batch :: back } none
  | publish {front back : List Collector} {found batch : List Path}
      {dir : Path} :
    c.collectors = front ++ .publishing dir found batch :: back →
    Turn w batchSize c i
      { c with
        queue := c.queue ++ found
        active := c.active - 1
        done := c.done || ((c.queue ++ found).isEmpty && c.active - 1 == 0)
        collectors := front ++ .asking batch :: back } (some dir)
  | stop {front back : List Collector} {batch : List Path} :
    c.collectors = front ++ .leaving batch :: back →
    Turn w batchSize c i
      { c with
        files := c.files ++ batch
        collectors := front ++ .stopped :: back } none

/-- A member of a list stands between others, which stay when it is replaced. -/
theorem exists_set_eq {α : Type} {l : List α} {i : Nat} {a : α}
    (h : l[i]? = some a) :
    ∃ front back, l = front ++ a :: back
      ∧ ∀ b, l.set i b = front ++ b :: back := by
  induction l generalizing i with
  | nil => cases h
  | cons x l ih =>
      cases i with
      | zero =>
          rw [List.getElem?_cons_zero, Option.some.injEq] at h
          exact ⟨[], l, by rw [h, List.nil_append], fun b => rfl⟩
      | succ i =>
          rw [List.getElem?_cons_succ] at h
          obtain ⟨front, back, hl, hset⟩ := ih h
          refine ⟨x :: front, back, by rw [hl, List.cons_append], fun b => ?_⟩
          rw [List.set_cons_succ, hset, List.cons_append]

variable {w : Walk} {batchSize n i : Nat} {c c' : Collection}
  {completed : List Path} {dir? : Option Path}

/-- A step does one of these things. -/
theorem turn_step (w : Walk) (batchSize : Nat) (c : Collection) (i : Nat) :
    Turn w batchSize c i (c.step w batchSize i) (c.completes? i) := by
  unfold step completes?
  cases hk : c.collectors[i]? with
  | none => exact .wait (by unfold Waits; rw [hk]; trivial)
  | some k =>
      obtain ⟨front, back, hc, hset⟩ := exists_set_eq hk
      cases k with
      | asking batch =>
          show Turn _ _ c i (c.next i batch) none
          unfold next
          split
          · rename_i dir rest hq
            rw [hset]
            exact .take hc hq
          · rename_i hq
            split
            · rename_i hdone
              rw [hset]
              exact .leave hc hq hdone
            · rename_i hbusy
              exact .wait (by unfold Waits; rw [hk]; exact ⟨hq, hbusy⟩)
      | listing dir batch =>
          dsimp only
          rw [hset]
          exact .list hc
      | holding dir found batch =>
          dsimp only
          rw [hset, hset]
          split
          · rename_i henough
            exact .flush hc henough
          · rename_i henough
            exact .keep hc henough
      | publishing dir found batch =>
          dsimp only
          unfold complete
          rw [hset]
          exact .publish hc
      | leaving batch =>
          dsimp only
          rw [hset]
          exact .stop hc
      | stopped => exact .wait (by unfold Waits; rw [hk]; trivial)

-- ================================================================== invariants

/-- What holds of a collection by so many collectors in which some directories
are completed. -/
structure Sound (w : Walk) (n : Nat) (c : Collection)
    (completed : List Path) : Prop where
  length : c.collectors.length = n
  faithful : ∀ k ∈ c.collectors, k.Faithful w
  active : c.active = c.scanning.length
  /-- Nothing is left to be found once all is said to be done. -/
  finished : c.done = true → c.queue = [] ∧ c.scanning = []
  left : ∀ k ∈ c.collectors, k.hasLeft = true → c.done = true
  enterable : ∀ d ∈ completed, w.IsEnterable d
  /-- Every directory that was found is queued, at work or completed, once. -/
  directories :
    (c.queue ++ c.scanning ++ completed).Perm
      (w.root :: completed.flatMap w.dirsIn)
  /-- Every file is found or yet to be found, once. -/
  files : (c.held ++ c.pending.flatMap w.filesUnder).Perm (w.filesUnder w.root)

section

variable {front back : List Collector} {k : Collector}

/-- The directories being read are told apart at a collector. -/
theorem scanning_eq (h : c.collectors = front ++ k :: back) :
    c.scanning = front.filterMap Collector.dir?
      ++ (k.dir?.toList ++ back.filterMap Collector.dir?) := by
  unfold scanning
  rw [h, List.filterMap_append, List.filterMap_cons]
  cases k.dir? <;> rfl

/-- So are the directories not yet read. -/
theorem pending_eq (h : c.collectors = front ++ k :: back) :
    c.pending = c.queue ++ (front.flatMap Collector.pending
      ++ (k.pending ++ back.flatMap Collector.pending)) := by
  unfold pending
  rw [h, List.flatMap_append, List.flatMap_cons]

/-- So are the files that are held. -/
theorem held_eq (h : c.collectors = front ++ k :: back) :
    c.held = c.files ++ (front.flatMap Collector.batch
      ++ (k.batch ++ back.flatMap Collector.batch)) := by
  unfold held
  rw [h, List.flatMap_append, List.flatMap_cons]

theorem mem_of_eq_append (h : c.collectors = front ++ k :: back) :
    k ∈ c.collectors := by
  rw [h]
  exact List.mem_append_right _ (List.mem_cons_self ..)

/-- What holds of all collectors holds of all after one of them has changed,
if it holds of that one. -/
theorem forall_mem_replace {p : Collector → Prop} {k' : Collector}
    (h : c.collectors = front ++ k :: back) (hall : ∀ k ∈ c.collectors, p k)
    (hk' : p k') : ∀ k ∈ front ++ k' :: back, p k := by
  rw [h] at hall
  intro x hx
  rcases List.mem_append.1 hx with hx | hx
  · exact hall x (List.mem_append_left _ hx)
  · rcases List.mem_cons.1 hx with rfl | hx
    · exact hk'
    · exact hall x (List.mem_append_right _ (List.mem_cons_of_mem _ hx))

end

namespace Sound

/-- None is at work when all is said to be done or none is counted. -/
theorem scanning_eq_nil (h : Sound w n c completed)
    (hor : c.done = true ∨ c.active = 0) : c.scanning = [] := by
  rcases hor with hdone | hactive
  · exact (h.finished hdone).2
  · rw [h.active] at hactive
    exact List.length_eq_zero_iff.1 hactive

private theorem length_of_turn (h : Sound w n c completed)
    (ht : Turn w batchSize c i c' dir?) : c'.collectors.length = n := by
  have hlen := h.length
  cases ht with
  | wait _ => exact hlen
  | take hc _ | leave hc _ _ | list hc | flush hc _ | keep hc _ | publish hc
  | stop hc =>
      rw [hc] at hlen
      simpa using hlen

/-- What a collector holds is from the directory it reads, after a turn as
before. -/
private theorem faithful_of_turn (h : Sound w n c completed)
    (ht : Turn w batchSize c i c' dir?) :
    ∀ k ∈ c'.collectors, k.Faithful w := by
  have hf := h.faithful
  cases ht with
  | wait _ => exact hf
  | take hc _ | leave hc _ _ | publish hc | stop hc =>
      exact forall_mem_replace hc hf trivial
  | list hc => exact forall_mem_replace hc hf rfl
  | flush hc _ | keep hc _ =>
      have hk := hf _ (mem_of_eq_append hc)
      exact forall_mem_replace hc hf hk

/-- Directories at work are counted. -/
private theorem active_of_turn (h : Sound w n c completed)
    (ht : Turn w batchSize c i c' dir?) :
    c'.active = c'.scanning.length := by
  have ha := h.active
  cases ht with
  | wait _ => exact ha
  | take hc _ | leave hc _ _ | list hc | flush hc _ | keep hc _ | publish hc
  | stop hc =>
      rw [scanning_eq hc] at ha
      rw [scanning_eq rfl]
      simp only [Collector.dir?, Option.toList, List.length_append,
        List.length_cons, List.length_nil] at ha ⊢
      omega

/-- Nothing is found any more once all is said to be done. -/
private theorem finished_of_turn (h : Sound w n c completed)
    (ht : Turn w batchSize c i c' dir?) (hdone : c'.done = true) :
    c'.queue = [] ∧ c'.scanning = [] := by
  have hf := h.finished
  cases ht with
  | wait _ => exact hf hdone
  | take hc hq =>
      -- the queue held a directory, so nothing was said to be done
      have hnil := (hf hdone).1
      rw [hq] at hnil
      cases hnil
  | leave hc hq hor =>
      have hscan := h.scanning_eq_nil hor
      rw [scanning_eq hc] at hscan
      rw [scanning_eq rfl]
      exact ⟨hq, hscan⟩
  | list hc | flush hc _ | keep hc _ | stop hc =>
      rw [scanning_eq hc] at hf
      rw [scanning_eq rfl]
      exact hf hdone
  | publish hc =>
      have hscan := scanning_eq hc
      have ha := h.active
      rw [hscan] at ha
      rcases Bool.or_eq_true_iff.1 hdone with hbefore | hnow
      · -- the collector was at work, so nothing was said to be done
        rw [(hf hbefore).2] at hscan
        simp [Collector.dir?] at hscan
      · obtain ⟨hempty, hzero⟩ := Bool.and_eq_true_iff.1 hnow
        refine ⟨List.isEmpty_iff.1 hempty, ?_⟩
        rw [scanning_eq rfl, ← List.length_eq_zero_iff]
        have hzero := eq_of_beq hzero
        simp only [Collector.dir?, Option.toList, List.length_append,
          List.length_cons, List.length_nil] at ha ⊢
        omega

/-- Whoever has left has found that all is done. -/
private theorem left_of_turn (h : Sound w n c completed)
    (ht : Turn w batchSize c i c' dir?) :
    ∀ k ∈ c'.collectors, k.hasLeft = true → c'.done = true := by
  have hl := h.left
  cases ht with
  | wait _ => exact hl
  | take hc _ | list hc | flush hc _ | keep hc _ =>
      exact forall_mem_replace hc hl fun hk => by cases hk
  | leave hc _ _ => exact fun _ _ _ => rfl
  | publish hc =>
      refine forall_mem_replace hc (fun k hk hleft => ?_) fun hk => by cases hk
      exact Bool.or_eq_true_iff.2 (Or.inl (hl k hk hleft))
  | stop hc =>
      have hdone := hl _ (mem_of_eq_append hc) rfl
      exact forall_mem_replace hc hl fun _ => hdone

/-- What is queued, at work or completed was found in an enterable directory. -/
theorem isEnterable (hfs : w.fs.WellFormed) (h : Sound w n c completed)
    {d : Path} (hd : d ∈ c.queue ++ c.scanning ++ completed) :
    w.IsEnterable d := by
  rcases List.mem_cons.1 (h.directories.mem_iff.1 hd) with rfl | hd
  · exact ⟨[], rfl, w.enterable_nil⟩
  · obtain ⟨dir, hdir, hd⟩ := List.mem_flatMap.1 hd
    exact (h.enterable dir hdir).of_mem_dirsIn hfs hd

/-- A turn completes no directory but one that can be entered. -/
private theorem enterable_of_turn (hfs : w.fs.WellFormed)
    (h : Sound w n c completed) (ht : Turn w batchSize c i c' dir?) :
    ∀ d ∈ completed ++ dir?.toList, w.IsEnterable d := by
  have he := h.enterable
  intro d hd
  rcases List.mem_append.1 hd with hd | hd
  · exact he d hd
  · cases ht with
    | wait _ | take _ _ | leave _ _ _ | list _ | flush _ _ | keep _ _
    | stop _ => cases hd
    | publish hc =>
        rw [Option.toList_some, List.mem_singleton] at hd
        refine h.isEnterable hfs ?_
        rw [scanning_eq hc]
        simp [hd, Collector.dir?]

/-- A directory goes from the queue to a collector and from there to the
completed ones, and then those found in it are in the queue. -/
private theorem directories_of_turn (h : Sound w n c completed)
    (ht : Turn w batchSize c i c' dir?) :
    (c'.queue ++ c'.scanning ++ (completed ++ dir?.toList)).Perm
      (w.root :: (completed ++ dir?.toList).flatMap w.dirsIn) := by
  have hd := h.directories
  cases ht with
  | wait _ => simpa using hd
  | leave hc _ _ | list hc | flush hc _ | keep hc _ | stop hc =>
      rw [scanning_eq hc] at hd
      rw [scanning_eq rfl, Option.toList_none, List.append_nil]
      exact hd
  | take hc hq =>
      rw [List.perm_iff_count] at hd ⊢
      intro p
      have hp := hd p
      rw [hq, scanning_eq hc] at hp
      rw [scanning_eq rfl, Option.toList_none, List.append_nil]
      simp only [Collector.dir?, Option.toList, List.count_append,
        List.count_cons, List.count_nil] at hp ⊢
      omega
  | publish hc =>
      have hfound := h.faithful _ (mem_of_eq_append hc)
      rw [List.perm_iff_count] at hd ⊢
      intro p
      have hp := hd p
      rw [scanning_eq hc] at hp
      rw [scanning_eq rfl, hfound, List.flatMap_append]
      simp only [Collector.dir?, Option.toList, List.count_append,
        List.count_cons, List.count_nil, List.flatMap_cons,
        List.flatMap_nil] at hp ⊢
      omega

/-- Every file stays found or to be found, if those of the queue and of the
collector that steps do. -/
private theorem files_of_replace (h : Sound w n c completed)
    {front back : List Collector} {k k' : Collector}
    (hc : c.collectors = front ++ k :: back)
    (hc' : c'.collectors = front ++ k' :: back)
    (hcount : ∀ p,
      (c'.files ++ k'.batch
          ++ (c'.queue ++ k'.pending).flatMap w.filesUnder).count p
        = (c.files ++ k.batch
          ++ (c.queue ++ k.pending).flatMap w.filesUnder).count p) :
    (c'.held ++ c'.pending.flatMap w.filesUnder).Perm
      (w.filesUnder w.root) := by
  have hf := h.files
  rw [held_eq hc, pending_eq hc] at hf
  rw [held_eq hc', pending_eq hc']
  rw [List.perm_iff_count] at hf ⊢
  intro p
  have hp := hf p
  have hcp := hcount p
  simp only [List.flatMap_append, List.count_append] at hp hcp ⊢
  omega

/-- A file goes from under a directory to a collector and from there to the
files handed over. -/
private theorem files_of_turn (hfs : w.fs.WellFormed)
    (h : Sound w n c completed) (ht : Turn w batchSize c i c' dir?) :
    (c'.held ++ c'.pending.flatMap w.filesUnder).Perm
      (w.filesUnder w.root) := by
  cases ht with
  | wait _ => exact h.files
  | take hc hq =>
      refine h.files_of_replace hc rfl fun p => ?_
      rw [hq]
      simp only [Collector.batch, Collector.pending, List.flatMap_append,
        List.flatMap_cons, List.flatMap_nil, List.count_append, List.count_nil]
      omega
  | leave hc _ _ | keep hc _ => exact h.files_of_replace hc rfl fun _ => rfl
  | @list front back batch dir hc =>
      have hdir := Walk.filesUnder_perm hfs dir
      refine h.files_of_replace hc rfl fun p => ?_
      have hp := hdir.count_eq p
      simp only [Collector.batch, Collector.pending, List.flatMap_append,
        List.flatMap_cons, List.flatMap_nil, List.count_append,
        List.count_nil] at hp ⊢
      omega
  | flush hc _ | publish hc | stop hc =>
      refine h.files_of_replace hc rfl fun p => ?_
      simp only [Collector.batch, Collector.pending, List.flatMap_append,
        List.append_nil, List.count_append]

/-- What holds of a collection holds after a step. -/
theorem step (hfs : w.fs.WellFormed) (h : Sound w n c completed)
    (batchSize i : Nat) :
    Sound w n (c.step w batchSize i)
      (completed ++ (c.completes? i).toList) := by
  have ht := turn_step w batchSize c i
  exact {
    length := h.length_of_turn ht
    faithful := h.faithful_of_turn ht
    active := h.active_of_turn ht
    finished := h.finished_of_turn ht
    left := h.left_of_turn ht
    enterable := h.enterable_of_turn hfs ht
    directories := h.directories_of_turn ht
    files := h.files_of_turn hfs ht }

/-- What holds of a collection holds after a schedule. -/
theorem run (hfs : w.fs.WellFormed) (h : Sound w n c completed)
    (batchSize : Nat) (schedule : List Nat) :
    Sound w n (c.run w batchSize schedule)
      (completed ++ c.completed w batchSize schedule) := by
  induction schedule generalizing c completed with
  | nil =>
      rw [Collection.completed, List.append_nil]
      exact h
  | cons i schedule ih =>
      rw [Collection.completed, ← List.append_assoc]
      exact ih (h.step hfs batchSize i)

/-- All of it holds at the start. -/
theorem start (w : Walk) (n : Nat) : Sound w n (start w n) [] := by
  have hscan : (Collection.start w n).scanning = [] :=
    List.filterMap_replicate_of_none rfl
  have hpending : (Collection.start w n).pending = [w.root] := by
    simp [Collection.start, pending, List.flatMap_replicate, Collector.pending]
  have hheld : (Collection.start w n).held = [] := by
    simp [Collection.start, held, List.flatMap_replicate, Collector.batch]
  have hall : ∀ k ∈ (Collection.start w n).collectors, k = .asking [] :=
    fun k hk => (List.mem_replicate.1 hk).2
  refine ⟨List.length_replicate, fun k hk => ?_, ?_, fun hdone => ?_,
    fun k hk hleft => ?_, by simp, ?_, ?_⟩
  · rw [hall k hk]
    trivial
  · rw [hscan]
    rfl
  · cases hdone
  · rw [hall k hk] at hleft
    cases hleft
  · rw [hscan]
    exact .refl _
  · rw [hheld, hpending]
    simp

end Sound

/-- What holds in every state that collectors reach from the start. -/
theorem sound_run_start (hfs : w.fs.WellFormed) (n batchSize : Nat)
    (schedule : List Nat) :
    Sound w n ((start w n).run w batchSize schedule)
      ((start w n).completed w batchSize schedule) := by
  have h := (Sound.start w n).run hfs batchSize schedule
  rwa [List.nil_append] at h

-- ================================================================ directories

/-- Whether a directory is yet to be found: it is not the root, and no listing
of the directory above it was completed. -/
def Undiscovered (w : Walk) (completed : List Path)
    (names : List Text) : Prop :=
  names ≠ [] ∧ Path.below w.root names.dropLast ∉ completed

instance (w : Walk) (completed : List Path) (names : List Text) :
    Decidable (Undiscovered w completed names) :=
  inferInstanceAs (Decidable (_ ∧ _))

theorem not_undiscovered_nil (w : Walk) (completed : List Path) :
    ¬ Undiscovered w completed [] := fun h => h.1 rfl

/-- A directory is discovered when the one above it has been completed. -/
theorem undiscovered_concat {names : List Text} {name : Text} :
    Undiscovered w completed (names ++ [name])
      ↔ Path.below w.root names ∉ completed := by
  unfold Undiscovered
  rw [List.dropLast_concat]
  exact and_iff_right (by simp)

/-- How often a directory is counted as undiscovered, as queued, as at work
and as completed, all together. -/
def places (w : Walk) (c : Collection) (completed : List Path)
    (names : List Text) : Nat :=
  (if Undiscovered w completed names then 1 else 0)
    + c.queue.count (Path.below w.root names)
    + c.scanning.count (Path.below w.root names)
    + completed.count (Path.below w.root names)

namespace Sound

variable {names : List Text} {name : Text}

/-- The root is discovered from the start. -/
theorem count_root (hfs : w.fs.WellFormed) (h : Sound w n c completed) :
    (c.queue ++ c.scanning ++ completed).count w.root = 1 := by
  rw [h.directories.count_eq, List.count_cons_self,
    Walk.count_flatMap_dirsIn_root hfs h.enterable]

/-- A directory below the root is discovered when the one above it is
completed. -/
theorem count_below (hfs : w.fs.WellFormed) (h : Sound w n c completed)
    (hnames : w.Enterable (names ++ [name])) :
    (c.queue ++ c.scanning ++ completed).count
        (Path.below w.root (names ++ [name]))
      = completed.count (Path.below w.root names) := by
  have hne : w.root ≠ Path.below w.root (names ++ [name]) := by
    intro he
    have hnil := Path.below_injective (w.enterable_nil.isName hfs)
      (hnames.isName hfs) he
    simp at hnil
  rw [h.directories.count_eq, List.count_cons_of_ne hne,
    Walk.count_flatMap_dirsIn hfs h.enterable hnames]

/-- A directory is discovered once at most. -/
theorem count_le_one (hfs : w.fs.WellFormed) (h : Sound w n c completed)
    (hnames : w.Enterable names) :
    (c.queue ++ c.scanning ++ completed).count (Path.below w.root names)
      ≤ 1 := by
  induction names using List.reverseRecOn with
  | nil => exact (h.count_root hfs).le
  | append_singleton names name ih =>
      have hparent := ih ((Walk.enterable_concat hfs).1 hnames).1
      rw [List.count_append] at hparent
      rw [h.count_below hfs hnames]
      omega

/-- A directory stands in one place. -/
theorem places_eq_one (hfs : w.fs.WellFormed) (h : Sound w n c completed)
    (hnames : w.Enterable names) : places w c completed names = 1 := by
  unfold places
  cases names using List.reverseRecOn with
  | nil =>
      have hroot := h.count_root hfs
      simp only [List.count_append] at hroot
      rw [if_neg (not_undiscovered_nil w completed), Path.below_nil]
      omega
  | append_singleton names name =>
      have hcount := h.count_below hfs hnames
      have hparent :=
        h.count_le_one hfs ((Walk.enterable_concat hfs).1 hnames).1
      simp only [List.count_append] at hcount hparent
      by_cases hmem : Path.below w.root names ∈ completed
      · have hpos := List.count_pos_iff.2 hmem
        rw [if_neg fun hu => undiscovered_concat.1 hu hmem]
        omega
      · have hzero := List.count_eq_zero.2 hmem
        rw [if_pos (undiscovered_concat.2 hmem)]
        omega

-- ==================================================================== the end

/-- A collector that asks is sent away only when no directory is queued or at
work. -/
theorem nothing_left (h : Sound w n c completed) {i : Nat}
    {batch batch' : List Path}
    (hask : c.collectors[i]? = some (.asking batch))
    (hleave : (c.step w batchSize i).collectors[i]? = some (.leaving batch')) :
    c.queue = [] ∧ c.scanning = [] := by
  have hi := (List.getElem?_eq_some_iff.1 hask).1
  unfold Collection.step at hleave
  rw [hask] at hleave
  dsimp only at hleave
  unfold next at hleave
  split at hleave
  · rw [List.getElem?_set_self hi] at hleave
    cases hleave
  · rename_i hq
    refine ⟨hq, ?_⟩
    split at hleave
    · rename_i hor
      exact h.scanning_eq_nil hor
    · rw [hask] at hleave
      cases hleave

/-- When all have stopped, the files handed over are those that the walk
takes. -/
theorem files_perm_of_stopped (hn : 1 ≤ n) (h : Sound w n c completed)
    (hstop : ∀ k ∈ c.collectors, k = .stopped) :
    c.files.Perm (w.filesUnder w.root) := by
  have hbatch : c.collectors.flatMap Collector.batch = [] := by
    rw [List.flatMap_eq_nil_iff]
    intro k hk
    rw [hstop k hk]
    rfl
  have hpending : c.collectors.flatMap Collector.pending = [] := by
    rw [List.flatMap_eq_nil_iff]
    intro k hk
    rw [hstop k hk]
    rfl
  have hne : c.collectors ≠ [] := by
    rw [← List.length_pos_iff, h.length]
    exact hn
  obtain ⟨k, hk⟩ := List.exists_mem_of_ne_nil _ hne
  have hqueue := (h.finished (h.left k hk (by rw [hstop k hk]; rfl))).1
  have hf := h.files
  unfold held pending at hf
  rwa [hbatch, hpending, hqueue, List.append_nil, List.append_nil,
    List.flatMap_nil, List.append_nil] at hf

/-- When all have stopped, the files in their order are those of the walk. -/
theorem mergeSort_files_of_stopped (hfs : w.fs.WellFormed) (hn : 1 ≤ n)
    (h : Sound w n c completed) (hstop : ∀ k ∈ c.collectors, k = .stopped) :
    c.files.mergeSort Path.le = w.collect :=
  (Path.mergeSort_eq_of_perm (h.files_perm_of_stopped hn hstop).symm
    (Walk.nodup_filesBelow (Walk.listing_wellFormed hfs w.root))).symm

end Sound

/-- However many collectors there are, and in whatever order they take their
steps: every directory that is to be entered stands in one place; no
collector is sent away while a directory is queued or at work; and once
all have stopped, the files in their order are those of the walk. The root
is one that was checked to be a directory (`FileSystem.checkRoot`); of any
other, neither lists anything. -/
theorem collectors_find_what_walk_finds (w : Walk) (hfs : w.fs.WellFormed)
    {n : Nat} (hn : 1 ≤ n) (batchSize : Nat) (schedule : List Nat)
    {c : Collection}
    (hc : c = (start w n).run w batchSize schedule) :
    (∀ names, w.Enterable names →
        places w c ((start w n).completed w batchSize schedule) names = 1)
      ∧ (∀ i batch batch', c.collectors[i]? = some (.asking batch) →
        (c.step w batchSize i).collectors[i]? = some (.leaving batch') →
        c.queue = [] ∧ c.scanning = [])
      ∧ ((∀ k ∈ c.collectors, k = .stopped) →
        c.files.mergeSort Path.le = w.collect) := by
  have h := sound_run_start hfs n batchSize schedule
  rw [← hc] at h
  exact ⟨fun names hnames => h.places_eq_one hfs hnames,
    fun i batch batch' => h.nothing_left,
    fun hstop => h.mergeSort_files_of_stopped hfs hn hstop⟩

/-- Two collectors below a root with a file and a directory, which holds
another file: the first puts the directory into the queue, and the second,
which has waited, takes it. -/
theorem run_of_listDirectory {w : Walk} {dir f g : Path}
    (hroot : w.listDirectory w.root = ([dir], [f]))
    (hdir : w.listDirectory dir = ([], [g])) :
    (start w 2).run w 1 [0, 1, 0, 0, 0, 1]
        = { queue := [], active := 1, files := [f]
            collectors := [.asking [], .listing dir []] }
      ∧ (start w 2).run w 1 [0, 1, 0, 0, 0, 1, 0, 1, 1, 1, 0, 1, 0, 1]
        = { queue := [], done := true, files := [f, g]
            collectors := [.stopped, .stopped] } := by
  simp [start, run, step, next, complete, hroot, hdir]

theorem listDirectory_nestedFiles :
    Walk.nestedFiles.listDirectory "/r" = (["/r/d".toList], ["/r/a.py".toList])
      ∧ Walk.nestedFiles.listDirectory "/r/d" = ([], ["/r/d/b.py".toList]) := by
  unfold Walk.listDirectory
  rw [Walk.listing_nestedFiles.1, Walk.listing_nestedFiles.2]
  decide

/-- The file in the directory is found by the collector that takes it. -/
theorem two_collectors_find_nested_files :
    let run := (start Walk.nestedFiles 2).run Walk.nestedFiles 1
    let done := run [0, 1, 0, 0, 0, 1, 0, 1, 1, 1, 0, 1, 0, 1]
    Walk.nestedFiles.fs.WellFormed ∧ 1 ≤ 2
      ∧ (run [0, 1, 0, 0, 0, 1]).collectors = [.asking [], .listing "/r/d" []]
      ∧ (∀ k ∈ done.collectors, k = .stopped)
      ∧ done.files.mergeSort Path.le = Walk.nestedFiles.collect
      ∧ "/r/d/b.py".toList ∈ Walk.nestedFiles.collect := by
  intro run done
  obtain ⟨hroot, hdir⟩ := listDirectory_nestedFiles
  obtain ⟨hsix, hdone⟩ := run_of_listDirectory (w := Walk.nestedFiles) hroot hdir
  have hstopped : ∀ k ∈ done.collectors, k = .stopped := by
    rw [show done = _ from hdone]
    simp
  have hfound : done.files.mergeSort Path.le = Walk.nestedFiles.collect :=
    (collectors_find_what_walk_finds Walk.nestedFiles
      Walk.wellFormed_nestedFiles (by decide) 1 _ rfl).2.2 hstopped
  refine ⟨Walk.wellFormed_nestedFiles, by decide, ?_, hstopped, hfound, ?_⟩
  · rw [show run [0, 1, 0, 0, 0, 1] = _ from hsix]
  · rw [← hfound, List.mem_mergeSort, show done = _ from hdone]
    simp

end Collection

end SourceDigest
