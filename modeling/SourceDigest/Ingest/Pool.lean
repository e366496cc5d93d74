/-
Work queues, and pools of threads that drain one.

A pool needs all of its threads. When one of them cannot be created, those
that could are let go, and the calling thread drains the queue by itself.
-/
import SourceDigest.Text.Basic

namespace SourceDigest

/-- Items in the order they were put in, each of which is taken once. -/
abbrev WorkQueue (α : Type) := List α

namespace WorkQueue

variable {α : Type}

/-- The first item, and the queue without it. -/
def pop : WorkQueue α → Option α × WorkQueue α
  | [] => (none, [])
  | item :: rest => (some item, rest)

/-- What some pops give, each with the number of items left behind it. -/
def pops : (count : Nat) → WorkQueue α → List (Option α × Nat)
  | 0, _ => []
  | count + 1, q => (q.pop.1, q.pop.2.length) :: pops count q.pop.2

end WorkQueue

/-- Creates threads, as many in all as are left; without a number there is
no bound. -/
structure Spawner where
  left : Option Nat := none
deriving DecidableEq, Repr

namespace Spawner

/-- Creates the threads of a pool, at least one. Tells how many there are,
none if they could not all be created. -/
def pool (s : Spawner) (count : Nat) : Nat × Spawner :=
  let count := max 1 count
  match s.left with
  | none => (count, s)
  | some left => if count ≤ left then (count, ⟨some (left - count)⟩) else (0, ⟨some 0⟩)

end Spawner

/-- How many drain a queue in a pool of so many threads: the calling thread
does when there are none. -/
def drainers (threads : Nat) : Nat := max 1 threads

end SourceDigest
