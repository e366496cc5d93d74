/-
The walk of a cursor over a tree: which nodes it visits, and when.

A node is told by its address, the numbers of the children that lead to it
from the root (`Tree.at?`). Addresses in alphabetical order are the nodes in
pre-order: a node comes before those below it, and these before those below
its next sibling.

The walk is given here once more as a loop over the three moves of a cursor
(`Visits`), so that a run of it is a finite thing by itself. Shape of the
argument. What is still to be visited can be told from the cursor alone: the
nodes of the subtree there, then of its later siblings, then of the later
siblings of each ancestor (`placesFrom`). One round of the loop takes the
first of these (`placesFrom_eq`); since each round leaves fewer nodes ahead,
a run visits all of them (`visits_iff`). At the root they are the nodes of
the tree, in the order of their addresses (`located_placesOf`).
-/
import Mathlib
import SourceDigest.Syntax.Outline

namespace SourceDigest

namespace Tree

variable {α : Type} {t s : Tree α} {ts : List (Tree α)} {i : Nat} {a : List Nat}

/-- What holds of a tree as soon as it holds of its children holds of every
tree. -/
theorem induction {P : Tree α → Prop}
    (node : ∀ v ts, (∀ t ∈ ts, P t) → P (.node v ts)) : ∀ t, P t
  | .node v ts => node v ts fun t _ => induction node t

-- =================================================================== addresses

/-- The subtree at an address. -/
def at? : Tree α → List Nat → Option (Tree α)
  | t, [] => some t
  | t, i :: rest => t.children[i]?.bind fun s => s.at? rest

mutual
/-- The nodes of a tree in pre-order, each with its address. -/
def nodes : Tree α → List (List Nat × Tree α)
  | node v ts => ([], node v ts) :: nodesFrom 0 ts

/-- The nodes of some siblings in pre-order, the first of which has a given
number. -/
def nodesFrom : Nat → List (Tree α) → List (List Nat × Tree α)
  | _, [] => []
  | i, t :: ts => t.nodes.map (Prod.map (i :: ·) id) ++ nodesFrom (i + 1) ts
end

/-- The nodes of some siblings lie below one of them. -/
theorem mem_nodesFrom :
    (a, s) ∈ nodesFrom i ts
      ↔ ∃ j rest, a = (i + j) :: rest ∧ ∃ t, ts[j]? = some t ∧ (rest, s) ∈ t.nodes := by
  induction ts generalizing i with
  | nil => simp [nodesFrom]
  | cons t ts ih =>
      rw [nodesFrom, List.mem_append, ih]
      constructor
      · rintro (h | ⟨j, rest, rfl, h⟩)
        · obtain ⟨⟨rest, s⟩, hs, heq⟩ := List.mem_map.1 h
          obtain ⟨rfl, rfl⟩ := Prod.mk.inj heq
          exact ⟨0, rest, rfl, t, rfl, hs⟩
        · exact ⟨j + 1, rest, by rw [Nat.add_right_comm, Nat.add_assoc], h⟩
      · rintro ⟨j, rest, rfl, u, hu, hs⟩
        cases j with
        | zero =>
            obtain rfl := Option.some.inj hu
            exact .inl (List.mem_map.2 ⟨(rest, s), hs, rfl⟩)
        | succ j =>
            exact .inr ⟨j, rest, by rw [Nat.add_right_comm, Nat.add_assoc], u, hu, hs⟩

/-- The nodes of a tree are what stands at its addresses. -/
theorem mem_nodes : (a, s) ∈ t.nodes ↔ t.at? a = some s := by
  induction t using induction generalizing a s with
  | node v ts ih =>
      rw [nodes, List.mem_cons, mem_nodesFrom]
      cases a with
      | nil => simp [at?, eq_comm]
      | cons i rest =>
          simp only [Prod.mk.injEq, reduceCtorEq, false_and, false_or,
            Nat.zero_add, List.cons.injEq, at?, Option.bind_eq_some_iff, children]
          constructor
          · rintro ⟨_, _, ⟨rfl, rfl⟩, u, hu, hs⟩
            exact ⟨u, hu, (ih u (List.mem_of_getElem? hu)).1 hs⟩
          · rintro ⟨u, hu, hs⟩
            exact ⟨i, rest, ⟨rfl, rfl⟩, u, hu, (ih u (List.mem_of_getElem? hu)).2 hs⟩

/-- Addresses below siblings are in alphabetical order if those below each of
them are: a sibling in front has the smaller number. -/
theorem pairwise_nodesFrom (h : ∀ t ∈ ts, t.nodes.Pairwise fun m n => m.1 < n.1) (i : Nat) :
    (nodesFrom i ts).Pairwise fun m n => m.1 < n.1 := by
  induction ts generalizing i with
  | nil => exact List.Pairwise.nil
  | cons t ts ih =>
      obtain ⟨ht, hts⟩ := List.forall_mem_cons.1 h
      rw [nodesFrom]
      refine List.pairwise_append.2 ⟨?_, ih hts (i + 1), ?_⟩
      · rw [List.pairwise_map]
        exact ht.imp fun hlt => List.cons_lt_cons_iff.2 (.inr ⟨rfl, hlt⟩)
      · intro m hm n hn
        obtain ⟨m', -, rfl⟩ := List.mem_map.1 hm
        obtain ⟨j, rest, hn, -⟩ := mem_nodesFrom.1 hn
        rw [hn]
        exact List.cons_lt_cons_iff.2 (.inl (by omega))

/-- Addresses in pre-order are in alphabetical order. -/
theorem pairwise_nodes (t : Tree α) :
    t.nodes.Pairwise fun m n => m.1 < n.1 := by
  induction t using induction with
  | node v ts ih =>
      rw [nodes]
      refine List.Pairwise.cons ?_ (pairwise_nodesFrom ih 0)
      intro n hn
      obtain ⟨j, rest, hn, -⟩ := mem_nodesFrom.1 hn
      rw [hn]
      exact List.nil_lt_cons _ _

mutual
theorem map_value_nodes (t : Tree α) : t.nodes.map (·.2.value) = t.preorder :=
  match t with
  | node v ts => by
      rw [nodes, preorder, List.map_cons, map_value_nodesFrom 0 ts]
      rfl

theorem map_value_nodesFrom (i : Nat) (ts : List (Tree α)) :
    (nodesFrom i ts).map (·.2.value) = preorders ts :=
  match ts with
  | [] => rfl
  | t :: ts => by
      rw [nodesFrom, preorders, List.map_append, List.map_map,
        map_value_nodesFrom (i + 1) ts, ← map_value_nodes t]
      rfl
end

end Tree

namespace Cursor

variable {α : Type}

-- ==================================================================== the loop

/-- Where climbing from a place ends: at the next sibling of the nearest
ancestor that has one, or past the root. -/
inductive Climbs : Cursor α → Option (Cursor α) → Prop
  | out {c} : c.parent? = none → Climbs c none
  | turn {c p d} : c.parent? = some p → p.nextSibling? = some d → Climbs c (some d)
  | up {c p r} : c.parent? = some p → p.nextSibling? = none → Climbs p r → Climbs c r

/-- Where one round goes after a visit: down, or else on, or else to where
climbing ends. -/
inductive Goes : Cursor α → Option (Cursor α) → Prop
  | down {c d} : c.firstChild? = some d → Goes c (some d)
  | on {c d} : c.firstChild? = none → c.nextSibling? = some d → Goes c (some d)
  | back {c r} : c.firstChild? = none → c.nextSibling? = none → Climbs c r → Goes c r

/-- The places that the loop visits, from one on until it ends. -/
inductive Visits : Cursor α → List (Cursor α) → Prop
  | last {c} : Goes c none → Visits c [c]
  | more {c d ds} : Goes c (some d) → Visits d ds → Visits c (c :: ds)

variable {c d p : Cursor α} {r : Option (Cursor α)} {t : Tree α}
  {ts later : List (Tree α)} {above : List (Tree α × List (Tree α))}

theorem climb?_of_parent? (h : c.parent? = some p) :
    climb? c.above = p.nextSibling?.or (climb? p.above) := by
  obtain ⟨t, later, above⟩ := c
  cases above with
  | nil => cases h
  | cons level above =>
      obtain rfl := Option.some.inj h
      rw [climb?]
      cases nextSibling? ⟨level.1, level.2, above⟩ <;> rfl

theorem climb?_of_root (h : c.parent? = none) : climb? c.above = none := by
  obtain ⟨t, later, above⟩ := c
  cases above with
  | nil => rfl
  | cons level above => cases h

/-- Climbing ends where the relation says. -/
theorem climbs_iff : Climbs c r ↔ climb? c.above = r := by
  constructor
  · intro h
    induction h with
    | out h => exact climb?_of_root h
    | turn hp hd => rw [climb?_of_parent? hp, hd, Option.some_or]
    | up hp hd _ ih => rw [climb?_of_parent? hp, hd, Option.none_or, ih]
  · rintro rfl
    obtain ⟨t, later, above⟩ := c
    induction above generalizing t later with
    | nil => exact .out rfl
    | cons level above ih =>
        obtain ⟨p, behind⟩ := level
        cases behind with
        | nil => exact .up rfl rfl (ih p [])
        | cons s ss => exact .turn rfl rfl

/-- And so does the next move. -/
theorem goes_iff : Goes c r ↔ c.next? = r := by
  unfold next?
  constructor
  · intro h
    cases h with
    | down hd => rw [hd]
    | on hdown hd => rw [hdown, hd]
    | back hdown hon hclimb => rw [hdown, hon]; exact climbs_iff.1 hclimb
  · intro h
    split at h
    · subst h
      exact .down ‹_›
    · split at h
      · subst h
        exact .on ‹_› ‹_›
      · exact .back ‹_› ‹_› (climbs_iff.2 h)

-- ====================================================== what is still to visit

mutual
/-- The places of the nodes of a tree in pre-order, given the siblings after
it and what is above it. -/
def placesOf (later : List (Tree α)) (above : List (Tree α × List (Tree α))) :
    Tree α → List (Cursor α)
  | .node v ts =>
    ⟨.node v ts, later, above⟩ :: placesBelow ((.node v ts, later) :: above) ts

/-- The places of the nodes of some siblings, given what is above them. -/
def placesBelow (above : List (Tree α × List (Tree α))) :
    List (Tree α) → List (Cursor α)
  | [] => []
  | t :: ts => placesOf ts above t ++ placesBelow above ts
end

/-- The places after some ancestors. -/
def placesAfter : List (Tree α × List (Tree α)) → List (Cursor α)
  | [] => []
  | (_, later) :: above => placesBelow above later ++ placesAfter above

/-- The places at a cursor and after it. -/
def placesFrom (c : Cursor α) : List (Cursor α) :=
  placesOf c.later c.above c.focus
    ++ (placesBelow c.above c.later ++ placesAfter c.above)

/-- Climbing goes to the first of the places after some ancestors. -/
theorem placesAfter_eq (above : List (Tree α × List (Tree α))) :
    placesAfter above = (climb? above).elim [] placesFrom := by
  induction above with
  | nil => rfl
  | cons level above ih =>
      obtain ⟨t, later⟩ := level
      cases later with
      | nil => exact ih
      | cons s ss =>
          show (placesOf ss above s ++ placesBelow above ss) ++ placesAfter above = _
          rw [List.append_assoc]
          rfl

/-- A round visits the first place and goes to the next. -/
theorem placesFrom_eq (c : Cursor α) :
    placesFrom c = c :: c.next?.elim [] placesFrom := by
  obtain ⟨⟨v, ts⟩, later, above⟩ := c
  have hfirst : placesFrom ⟨.node v ts, later, above⟩
      = ⟨.node v ts, later, above⟩ :: (placesBelow ((.node v ts, later) :: above) ts
        ++ (placesBelow above later ++ placesAfter above)) := rfl
  rw [hfirst]
  congr 1
  cases ts with
  | cons t ts =>
      show (placesOf ts _ t ++ placesBelow _ ts) ++ _ = _
      rw [List.append_assoc]
      rfl
  | nil =>
      cases later with
      | cons s ss =>
          show (placesOf ss above s ++ placesBelow above ss) ++ placesAfter above = _
          rw [List.append_assoc]
          rfl
      | nil => exact placesAfter_eq above

/-- From a place on the loop visits what is there and after it, and ends. -/
theorem visits_placesFrom (c : Cursor α) : Visits c (placesFrom c) := by
  induction hn : c.ahead using Nat.strong_induction_on generalizing c with
  | _ n ih =>
      subst hn
      rw [placesFrom_eq]
      cases hnext : c.next? with
      | none => exact .last (goes_iff.2 hnext)
      | some d => exact .more (goes_iff.2 hnext) (ih _ (ahead_of_next? hnext) d rfl)

/-- The places visited are those listed. -/
theorem visits_iff {ds : List (Cursor α)} : Visits c ds ↔ ds = placesFrom c := by
  constructor
  · intro h
    induction h with
    | last h => rw [placesFrom_eq, goes_iff.1 h]; rfl
    | more h _ ih => rw [placesFrom_eq, goes_iff.1 h, ih]; rfl
  · rintro rfl
    exact visits_placesFrom c

/-- The walk gives the values at the places that the loop visits. -/
theorem walk_eq (c : Cursor α) : c.walk = (placesFrom c).map (·.focus.value) := by
  induction c using walk.induct with
  | case1 c ih =>
      rw [walk, placesFrom_eq, List.map_cons]
      congr 1
      split
      · rename_i d hnext
        rw [ih d hnext, hnext]
        rfl
      · rename_i hnext
        rw [hnext]
        rfl

-- ============================================================== where it stands

/-- The address of a place, given the siblings after it and what is above
it. -/
def addressIn : List (Tree α) → List (Tree α × List (Tree α)) → List Nat
  | _, [] => []
  | later, (t, behind) :: above =>
    addressIn behind above ++ [t.children.length - 1 - later.length]

/-- The address of the node that a cursor stands on. -/
def address (c : Cursor α) : List Nat := addressIn c.later c.above

/-- The node that a cursor stands on with its address. -/
def located (c : Cursor α) : List Nat × Tree α := (c.address, c.focus)

/-- The places of the children behind some others, from those of each child: the
first of them has as its number how many stand in front. -/
theorem located_placesBelow {v : α} (front : List (Tree α)) {rest : List (Tree α)}
    (ih : ∀ t ∈ rest, ∀ later above, (placesOf later above t).map located
      = t.nodes.map (Prod.map (addressIn later above ++ ·) id)) :
    (placesBelow ((.node v (front ++ rest), later) :: above) rest).map located
      = (Tree.nodesFrom front.length rest).map
          (Prod.map (addressIn later above ++ ·) id) := by
  induction rest generalizing front with
  | nil => rfl
  | cons t rest ihrest =>
      obtain ⟨ht, hrest⟩ := List.forall_mem_cons.1 ih
      have hmore := ihrest (front ++ [t]) hrest
      rw [List.append_assoc, List.singleton_append, List.length_append,
        List.length_singleton] at hmore
      have hlength : (front ++ t :: rest).length - 1 - rest.length = front.length := by
        rw [List.length_append, List.length_cons]
        omega
      have hnumber : addressIn rest ((.node v (front ++ t :: rest), later) :: above)
          = addressIn later above ++ [front.length] := by
        rw [addressIn, Tree.children, hlength]
      rw [placesBelow, Tree.nodesFrom, List.map_append, List.map_append, hmore, ht, hnumber,
        List.map_map]
      congr 1
      refine List.map_congr_left fun n _ => ?_
      simp [Prod.map]

/-- The places of a tree are its nodes, at addresses below that of the
tree. -/
theorem located_placesOf (t : Tree α) (later : List (Tree α))
    (above : List (Tree α × List (Tree α))) :
    (placesOf later above t).map located
      = t.nodes.map (Prod.map (addressIn later above ++ ·) id) := by
  induction t using Tree.induction generalizing later above with
  | node v ts ih =>
      have hbelow : (placesBelow ((.node v ts, later) :: above) ts).map located
          = (Tree.nodesFrom 0 ts).map (Prod.map (addressIn later above ++ ·) id) :=
        located_placesBelow [] ih
      rw [placesOf, Tree.nodes, List.map_cons, List.map_cons, hbelow]
      simp [located, address]

/-- From the root the loop visits the nodes of the tree. -/
theorem located_placesFrom_root (t : Tree α) :
    (placesFrom (root t)).map located = t.nodes := by
  have hroot : placesFrom (root t) = placesOf [] [] t := List.append_nil _
  rw [hroot, located_placesOf]
  exact List.map_id _

theorem walk_root (t : Tree α) : (root t).walk = t.nodes.map (·.2.value) := by
  rw [walk_eq, ← located_placesFrom_root, List.map_map]
  rfl

end Cursor

namespace Outline

/-- The addresses of the constructs of a kind. -/
def addressesOf (o : Outline) (kind : ConstructKind) : Set (List Nat) :=
  {a | ∃ s, o.at? a = some s ∧ s.value.kind = kind}

/-- The walk counts each construct once. -/
theorem count_kind (o : Outline) (kind : ConstructKind) :
    o.count (·.kind == kind) = (o.addressesOf kind).ncard := by
  let found := (o.nodes.filter (·.2.value.kind == kind)).map Prod.fst
  have hcount : o.count (·.kind == kind) = found.length := by
    unfold count
    rw [Cursor.walk_root, List.filter_map, List.length_map, List.length_map]
    rfl
  have hfound : o.addressesOf kind = found.toFinset := by
    ext a
    simp [addressesOf, found, Tree.mem_nodes]
  have hnodup : found.Nodup :=
    List.pairwise_map.2 ((o.pairwise_nodes.filter _).imp fun h => h.ne)
  rw [hcount, hfound, Set.ncard_coe_finset, List.toFinset_card_of_nodup hnodup]

end Outline

namespace Cursor

/-- A walk over a tree, as a loop over the moves of a cursor, ends, and it ends
in one way. It has then visited places one after the other whose addresses
are in alphabetical order, so that each is visited once, before those below
it and those behind it; and these places are all nodes of the tree. The values
there, which the walk gives, are the values of the tree in pre-order, and what
is counted of an outline is how many constructs of each kind it has. -/
theorem walk_visits_each_node_once {α : Type} (t : Tree α) (o : Outline) :
    (∃ places : List (Cursor α),
      (∀ ds, Visits (root t) ds ↔ ds = places)
        ∧ (places.map address).Pairwise (· < ·)
        ∧ (∀ a s, (∃ c ∈ places, c.address = a ∧ c.focus = s) ↔ t.at? a = some s)
        ∧ (root t).walk = places.map (·.focus.value))
      ∧ (root t).walk = t.preorder
      ∧ ConstructCounts.ofOutline o = {
          functions := (o.addressesOf .function).ncard
          types := (o.addressesOf .type).ncard
          conditionals := (o.addressesOf .conditional).ncard } := by
  have hlocated : (placesFrom (root t)).map located = t.nodes :=
    located_placesFrom_root t
  refine ⟨⟨placesFrom (root t), fun ds => visits_iff, ?_, fun a s => ?_, walk_eq _⟩,
    ?_, ?_⟩
  · have haddress : (placesFrom (root t)).map address = t.nodes.map Prod.fst := by
      rw [← hlocated, List.map_map]
      rfl
    rw [haddress, List.pairwise_map]
    exact t.pairwise_nodes
  · rw [← Tree.mem_nodes, ← hlocated]
    simp [located]
  · rw [walk_root, Tree.map_value_nodes]
  · simp only [ConstructCounts.ofOutline, Outline.count_kind]

end Cursor

end SourceDigest
