/-
Ordered trees, and a cursor that walks them.

A cursor stands on a node and can go to the first child, the next sibling
or the parent; each move fails when there is no such node. The walk goes
down first, then on, and otherwise climbs until it can go on; it ends
when it has climbed past the root.

Every step leaves fewer nodes ahead, counting the subtree under the
cursor, its later siblings and the later siblings of its ancestors. That
count is what the recursion of the walk descends on.
-/

namespace SourceDigest

/-- A value and, below it, any number of trees in order. -/
inductive Tree (α : Type) where
  | node (value : α) (children : List (Tree α))

namespace Tree

variable {α : Type}

def value : Tree α → α
  | node v _ => v

def children : Tree α → List (Tree α)
  | node _ ts => ts

mutual
/-- The number of nodes of a tree. -/
def size : Tree α → Nat
  | node _ ts => 1 + sizes ts

/-- The number of nodes of some trees. -/
def sizes : List (Tree α) → Nat
  | [] => 0
  | t :: ts => size t + sizes ts
end

mutual
/-- The values of a tree, each before those below it. -/
def preorder : Tree α → List α
  | node v ts => v :: preorders ts

/-- The values of some trees, one tree after the other. -/
def preorders : List (Tree α) → List α
  | [] => []
  | t :: ts => preorder t ++ preorders ts
end

end Tree

/-- A place in a tree: the subtree there, the siblings after it, and the
same for every ancestor, the nearest first. -/
structure Cursor (α : Type) where
  focus : Tree α
  later : List (Tree α)
  above : List (Tree α × List (Tree α))

namespace Cursor

variable {α : Type}

/-- The cursor at the root of a tree. -/
def root (t : Tree α) : Cursor α := ⟨t, [], []⟩

def firstChild? (c : Cursor α) : Option (Cursor α) :=
  match c.focus.children with
  | [] => none
  | t :: ts => some ⟨t, ts, (c.focus, c.later) :: c.above⟩

def nextSibling? (c : Cursor α) : Option (Cursor α) :=
  match c.later with
  | [] => none
  | t :: ts => some ⟨t, ts, c.above⟩

def parent? (c : Cursor α) : Option (Cursor α) :=
  match c.above with
  | [] => none
  | (t, later) :: above => some ⟨t, later, above⟩

/-- The next sibling of the nearest ancestor that has one. -/
def climb? : List (Tree α × List (Tree α)) → Option (Cursor α)
  | [] => none
  | (t, later) :: above =>
    match nextSibling? ⟨t, later, above⟩ with
    | some c => some c
    | none => climb? above

/-- The place that the walk comes to next. -/
def next? (c : Cursor α) : Option (Cursor α) :=
  match c.firstChild? with
  | some d => some d
  | none =>
    match c.nextSibling? with
    | some d => some d
    | none => climb? c.above

-- ================================================================ termination

/-- The nodes after some ancestors. -/
def aheadOf (above : List (Tree α × List (Tree α))) : Nat :=
  above.foldr (fun level n => Tree.sizes level.2 + n) 0

/-- The nodes at the cursor and after it. -/
def ahead (c : Cursor α) : Nat := c.focus.size + Tree.sizes c.later + aheadOf c.above

/-- Climbing goes to a node that is still ahead. -/
theorem ahead_of_climb? {above : List (Tree α × List (Tree α))} {d : Cursor α}
    (h : climb? above = some d) : d.ahead ≤ aheadOf above := by
  induction above with
  | nil => simp [climb?] at h
  | cons level above ih =>
    obtain ⟨t, later⟩ := level
    cases later with
    | nil =>
      have := ih (by simpa [climb?, nextSibling?] using h)
      simpa [aheadOf, Tree.sizes] using this
    | cons s ss =>
      obtain rfl : (⟨s, ss, above⟩ : Cursor α) = d := by simpa [climb?, nextSibling?] using h
      simp [ahead, aheadOf, Tree.sizes]

/-- A move leaves fewer nodes ahead. -/
theorem ahead_of_next? {c d : Cursor α} (h : c.next? = some d) : d.ahead < c.ahead := by
  obtain ⟨⟨v, ts⟩, later, above⟩ := c
  cases ts with
  | cons t ts =>
    obtain rfl : (⟨t, ts, (.node v (t :: ts), later) :: above⟩ : Cursor α) = d := by
      simpa [next?, firstChild?, Tree.children] using h
    simp only [ahead, aheadOf, Tree.size, Tree.sizes, List.foldr_cons]
    omega
  | nil =>
    cases later with
    | cons s ss =>
      obtain rfl : (⟨s, ss, above⟩ : Cursor α) = d := by
        simpa [next?, firstChild?, nextSibling?, Tree.children] using h
      simp only [ahead, Tree.size, Tree.sizes]
      omega
    | nil =>
      have bound : d.ahead ≤ aheadOf above :=
        ahead_of_climb? (by simpa [next?, firstChild?, nextSibling?, Tree.children] using h)
      have split : (⟨.node v [], [], above⟩ : Cursor α).ahead = 1 + aheadOf above := by
        simp [ahead, Tree.size, Tree.sizes]
      omega

-- ======================================================================= walk

/-- The values met from a cursor on. -/
def walk (c : Cursor α) : List α :=
  c.focus.value ::
    match _h : c.next? with
    | some d => walk d
    | none => []
termination_by c.ahead
decreasing_by exact ahead_of_next? _h

end Cursor

end SourceDigest
