/-
What additions make of an import graph.

A graph grows from the empty one by files and edges that are added in any
order (`Change`, `after`). It keeps two tables, the edges and the importers
of each name, of which the second is there to save a walk over the first.
`Sound` says that the second is settled by the first and that edges are
well kept; every addition preserves it (`Sound.apply`), so it holds of
every graph that additions make (`sound_after`). Counting importers by
name is then counting over edges (`Sound.inDegree_eq`).

# What is in the graph

The files are those that were added or joined by an edge
(`mem_keys_after`), and a file has the targets of its own edges in the
order in which they first came (`edgesFrom_after`). An edge from a file to
itself leaves no trace, and a repeated one none but the first's, so edges
are counted by the pairs of different files that were to be joined
(`edgeCount_after`).

Two sound graphs with the same files and the same edges are the same graph
(`Sound.ext`).
-/
import Mathlib
import SourceDigest.Imports.Graph
import SourceDigest.Proofs.Occurrences
import SourceDigest.Proofs.Table

namespace SourceDigest

namespace ImportGraph

/-- What is added to a graph at once. -/
inductive Change where
  | node (file : Text)
  | edge (source target : Text)
deriving DecidableEq

/-- A graph with one addition. -/
def apply (g : ImportGraph) : Change → ImportGraph
  | .node file => g.addNode file
  | .edge source target => g.addEdge source target

/-- The graph that additions make of the empty one. -/
def after (changes : List Change) : ImportGraph := changes.foldl apply empty

/-- The files that import a file of a name. -/
def importersOf (g : ImportGraph) (name : Text) : Table Unit :=
  (g.importersByName.get? name).getD []

variable {g g' : ImportGraph} {file source target x name : Text}
  {changes : List Change}

theorem after_nil : after [] = empty := rfl

theorem after_concat (changes : List Change) (c : Change) :
    after (changes ++ [c]) = (after changes).apply c := by
  unfold after
  rw [List.foldl_append, List.foldl_cons, List.foldl_nil]

-- ============================================================= one addition

/-- A node that is added is among the nodes. -/
theorem mem_keys_addNode (h : g.edges.Ordered) :
    x ∈ (g.addNode file).edges.keys ↔ x = file ∨ x ∈ g.edges.keys :=
  h.mem_keys_alter

/-- It comes without edges. -/
theorem edgesFrom_addNode (h : g.edges.Ordered) :
    (g.addNode file).edgesFrom x = g.edgesFrom x := by
  unfold edgesFrom addNode
  rw [h.get?_alter]
  by_cases hx : x = file
  · rw [if_pos hx, hx, Option.getD_some]
  · rw [if_neg hx]

/-- A link has its source among the nodes. -/
theorem mem_keys_link (h : g.edges.Ordered) :
    x ∈ (g.link source target).edges.keys ↔ x = source ∨ x ∈ g.edges.keys :=
  h.mem_keys_alter

/-- Its target stands behind the others of the source. -/
theorem edgesFrom_link (h : g.edges.Ordered) :
    (g.link source target).edgesFrom x
      = if x = source then g.edgesFrom source ++ [target]
        else g.edgesFrom x := by
  unfold edgesFrom link
  rw [h.get?_alter]
  by_cases hx : x = source
  · rw [if_pos hx, if_pos hx, Option.getD_some]
  · rw [if_neg hx, if_neg hx]

/-- Its source is an importer of the name that the target ends in. -/
theorem importersOf_link (h : g.importersByName.Ordered) :
    (g.link source target).importersOf name
      = if name = Specifier.lastSegment target
        then (g.importersOf name).put source () else g.importersOf name := by
  unfold importersOf link
  rw [h.get?_alter]
  by_cases hname : name = Specifier.lastSegment target
  · rw [if_pos hname, if_pos hname, Option.getD_some, hname]
  · rw [if_neg hname, if_neg hname]

-- =============================================================== the invariant

/-- Edges are well kept, and importers are settled by them. -/
structure Sound (g : ImportGraph) : Prop where
  edges : g.edges.Ordered
  importersByName : g.importersByName.Ordered
  importers : ∀ name, (g.importersOf name).Ordered
  /-- A name is kept only for its importers. -/
  imported : ∀ name, g.importersByName.get? name ≠ some []
  nodup : ∀ x, (g.edgesFrom x).Nodup
  irreflexive : ∀ x, x ∉ g.edgesFrom x
  closed : ∀ x, ∀ y ∈ g.edgesFrom x, y ∈ g.edges.keys
  /-- A file imports a name when it has an edge to a file of that name. -/
  importer_iff : ∀ name x, x ∈ (g.importersOf name).keys
    ↔ ∃ y ∈ g.edgesFrom x, Specifier.lastSegment y = name

namespace Sound

theorem empty : Sound empty := by
  refine ⟨Table.ordered_nil, Table.ordered_nil, fun _ => Table.ordered_nil,
    fun _ h => ?_, fun _ => List.nodup_nil, fun _ h => ?_, fun _ _ h => ?_,
    fun _ _ => ⟨fun h => ?_, fun h => ?_⟩⟩
  · cases h
  · cases h
  · cases h
  · cases h
  · obtain ⟨_, h, -⟩ := h
    cases h

/-- A file that is added changes no edge. -/
theorem addNode (h : Sound g) (file : Text) : Sound (g.addNode file) := by
  have hedges : ∀ x, (g.addNode file).edgesFrom x = g.edgesFrom x := fun x =>
    edgesFrom_addNode h.edges
  exact {
    edges := h.edges.alter file _
    importersByName := h.importersByName
    importers := h.importers
    imported := h.imported
    nodup := fun x => hedges x ▸ h.nodup x
    irreflexive := fun x => hedges x ▸ h.irreflexive x
    closed := fun x y hy =>
      (mem_keys_addNode h.edges).2 (Or.inr (h.closed x y (hedges x ▸ hy)))
    importer_iff := fun name x => hedges x ▸ h.importer_iff name x }

/-- The importers of a name after an edge: those of before, and the source
when the target has the name. -/
private theorem importer_iff_link (h : Sound g) (name x : Text) :
    x ∈ ((g.link source target).importersOf name).keys
      ↔ ∃ y ∈ (g.link source target).edgesFrom x,
        Specifier.lastSegment y = name := by
  have hbefore := h.importer_iff name x
  rw [importersOf_link h.importersByName, edgesFrom_link h.edges]
  by_cases hx : x = source
  · subst hx
    rw [if_pos rfl]
    simp only [List.mem_append, List.mem_singleton, or_and_right, exists_or,
      exists_eq_left]
    rw [← hbefore]
    by_cases hname : name = Specifier.lastSegment target
    · rw [if_pos hname, (h.importers name).mem_keys_put]
      exact ⟨fun _ => Or.inr hname.symm, fun _ => Or.inl rfl⟩
    · rw [if_neg hname]
      exact ⟨Or.inl, fun h => h.resolve_right (Ne.symm hname)⟩
  · rw [if_neg hx, ← hbefore]
    split
    · rw [(h.importers name).mem_keys_put]
      exact ⟨fun h => h.resolve_left hx, Or.inr⟩
    · rfl

/-- An edge between different files of the graph that is not there yet. -/
theorem link (h : Sound g) (hne : source ≠ target)
    (hnew : target ∉ g.edgesFrom source) (hmem : target ∈ g.edges.keys) :
    Sound (g.link source target) where
  edges := h.edges.alter source _
  importersByName := h.importersByName.alter _ _
  importers := by
    intro name
    rw [importersOf_link h.importersByName]
    split
    · exact (h.importers name).put source ()
    · exact h.importers name
  imported := by
    intro name
    unfold ImportGraph.link
    rw [h.importersByName.get?_alter]
    split
    · intro hnil
      have hkey : source ∈ Table.keys (α := Unit) [] := by
        rw [← Option.some.inj hnil]
        exact ((h.importers _).mem_keys_put ()).2 (Or.inl rfl)
      cases hkey
    · exact h.imported name
  nodup := by
    intro x
    rw [edgesFrom_link h.edges]
    split
    · rw [← List.concat_eq_append]
      exact (h.nodup source).concat hnew
    · exact h.nodup x
  irreflexive := by
    intro x
    rw [edgesFrom_link h.edges]
    split
    · rename_i hx
      rw [hx, List.mem_append, List.mem_singleton, not_or]
      exact ⟨h.irreflexive source, hne⟩
    · exact h.irreflexive x
  closed := by
    intro x y hy
    rw [edgesFrom_link h.edges] at hy
    rw [mem_keys_link h.edges]
    right
    split at hy
    · rcases List.mem_append.1 hy with hy | hy
      · exact h.closed source y hy
      · rw [List.mem_singleton.1 hy]
        exact hmem
    · exact h.closed x y hy
  importer_iff := h.importer_iff_link

/-- An edge that is added is a new one, or changes no edge. -/
theorem addEdge (h : Sound g) (source target : Text) :
    Sound (g.addEdge source target) := by
  unfold ImportGraph.addEdge
  split
  · exact h
  · rename_i hne
    have hnodes := (h.addNode target).addNode source
    dsimp only
    split
    · exact hnodes
    · rename_i hnew
      refine hnodes.link hne hnew ?_
      rw [mem_keys_addNode (h.addNode target).edges, mem_keys_addNode h.edges]
      exact Or.inr (Or.inl rfl)

/-- A change leaves a sound graph sound. -/
theorem apply (h : Sound g) (c : Change) : Sound (g.apply c) := by
  cases c with
  | node file => exact h.addNode file
  | edge source target => exact h.addEdge source target

end Sound

/-- Every graph that additions make is sound. -/
theorem sound_after (changes : List Change) : Sound (after changes) := by
  induction changes using List.reverseRecOn with
  | nil => exact Sound.empty
  | append_singleton changes c ih =>
      rw [after_concat]
      exact ih.apply c

-- ========================================================== files and edges

namespace Sound

/-- The files after an edge was added: those of before, and those that it
joins. -/
theorem mem_keys_addEdge (h : Sound g) :
    x ∈ (g.addEdge source target).edges.keys
      ↔ source ≠ target ∧ (x = source ∨ x = target) ∨ x ∈ g.edges.keys := by
  have htarget := h.addNode target
  unfold ImportGraph.addEdge
  split
  · rename_i heq
    exact ⟨Or.inr, fun hor => hor.resolve_left fun hx => hx.1 heq⟩
  · rename_i hne
    dsimp only
    split
    · rw [mem_keys_addNode htarget.edges, mem_keys_addNode h.edges, ← or_assoc]
      simp only [ne_eq, hne, not_false_eq_true, true_and]
    · rw [mem_keys_link (htarget.addNode source).edges,
        mem_keys_addNode htarget.edges, mem_keys_addNode h.edges]
      simp only [ne_eq, hne, not_false_eq_true, true_and]
      tauto

/-- The edges after one was added: it is the last one of its source unless
it is there already or leads back to it. -/
theorem edgesFrom_addEdge (h : Sound g) :
    (g.addEdge source target).edgesFrom x
      = if source = x ∧ target ≠ x ∧ target ∉ g.edgesFrom x
        then g.edgesFrom x ++ [target] else g.edgesFrom x := by
  have htarget := h.addNode target
  have hsource := htarget.addNode source
  have hedges : ∀ y, ((g.addNode target).addNode source).edgesFrom y
      = g.edgesFrom y := by
    intro y
    rw [edgesFrom_addNode htarget.edges, edgesFrom_addNode h.edges]
  unfold ImportGraph.addEdge
  split
  · rename_i heq
    rw [if_neg fun hx => hx.2.1 (heq ▸ hx.1)]
  · rename_i hne
    dsimp only
    rw [hedges]
    split
    · rename_i hmem
      rw [hedges, if_neg fun hx => hx.2.2 (hx.1 ▸ hmem)]
    · rename_i hnew
      rw [edgesFrom_link hsource.edges, hedges, hedges]
      by_cases hx : x = source
      · subst hx
        rw [if_pos rfl, if_pos ⟨rfl, Ne.symm hne, hnew⟩]
      · rw [if_neg hx, if_neg fun hor => hx hor.1.symm]

end Sound

/-- The target of an addition, when it is an edge of a file to another
one. -/
def Change.target? (x : Text) : Change → Option Text
  | .node _ => none
  | .edge source target =>
    if source = x ∧ target ≠ x then some target else none

/-- The different files that an addition joins, if it is to join some. -/
def Change.pair? : Change → Option (Text × Text)
  | .node _ => none
  | .edge source target =>
    if source = target then none else some (source, target)

/-- A file has the targets of its edges to other files, in the order in
which they first came. -/
theorem edgesFrom_after (changes : List Change) (x : Text) :
    (after changes).edgesFrom x
      = firstOccurrences (changes.filterMap (Change.target? x)) := by
  induction changes using List.reverseRecOn with
  | nil => rfl
  | append_singleton changes c ih =>
      rw [after_concat, List.filterMap_append]
      cases c with
      | node file =>
          show ((after changes).addNode file).edgesFrom x
            = firstOccurrences (_ ++ [])
          rw [edgesFrom_addNode (sound_after changes).edges, ih,
            List.append_nil]
      | edge source target =>
          show ((after changes).addEdge source target).edgesFrom x = _
          rw [(sound_after changes).edgesFrom_addEdge]
          by_cases hx : source = x ∧ target ≠ x
          · have htarget : Change.target? x (.edge source target)
                = some target := if_pos hx
            have hmem : target ∈ (after changes).edgesFrom x
                ↔ target ∈ changes.filterMap (Change.target? x) := by
              rw [ih, mem_firstOccurrences]
            rw [List.filterMap_cons_some htarget, List.filterMap_nil,
              firstOccurrences_concat, ← ih]
            by_cases hold : target ∈ (after changes).edgesFrom x
            · rw [if_neg fun h => h.2.2 hold, if_pos (hmem.1 hold)]
            · rw [if_pos ⟨hx.1, hx.2, hold⟩, if_neg fun h => hold (hmem.2 h)]
          · have htarget : Change.target? x (.edge source target) = none :=
              if_neg hx
            rw [List.filterMap_cons_none htarget, List.filterMap_nil,
              List.append_nil, if_neg fun h => hx ⟨h.1, h.2.1⟩, ih]

/-- An edge is there if some change put it in. -/
theorem mem_edgesFrom_after :
    target ∈ (after changes).edgesFrom source
      ↔ (source, target) ∈ changes.filterMap Change.pair? := by
  rw [edgesFrom_after, mem_firstOccurrences, List.mem_filterMap,
    List.mem_filterMap]
  refine exists_congr fun c => and_congr_right fun _ => ?_
  cases c with
  | node file => simp [Change.target?, Change.pair?]
  | edge a b =>
      show (if a = source ∧ b ≠ source then some b else none) = some target
        ↔ (if a = b then none else some (a, b)) = some (source, target)
      by_cases hab : a = b
      · rw [if_pos hab, if_neg fun hx => hx.2 (hx.1 ▸ hab.symm)]
        simp
      · rw [if_neg hab, Option.some.injEq, Prod.mk.injEq]
        constructor
        · intro h
          split at h
          · rename_i hx
            exact ⟨hx.1, Option.some.inj h⟩
          · cases h
        · rintro ⟨rfl, rfl⟩
          rw [if_pos ⟨rfl, Ne.symm hab⟩]

/-- The files after some additions: those that were added and those that an
edge joined. -/
theorem mem_keys_after :
    x ∈ (after changes).edges.keys
      ↔ .node x ∈ changes
        ∨ ∃ p ∈ changes.filterMap Change.pair?, x = p.1 ∨ x = p.2 := by
  induction changes using List.reverseRecOn with
  | nil => simp [after_nil, empty, Table.keys]
  | append_singleton changes c ih =>
      have hsound := sound_after changes
      rw [after_concat, List.filterMap_append, List.mem_append,
        List.mem_singleton]
      cases c with
      | node file =>
          show x ∈ ((after changes).addNode file).edges.keys ↔ _
          rw [mem_keys_addNode hsound.edges, ih, Change.node.injEq]
          simp only [Change.pair?, List.filterMap_cons, List.filterMap_nil,
            List.append_nil]
          exact or_left_comm.trans or_assoc.symm
      | edge source target =>
          show x ∈ ((after changes).addEdge source target).edges.keys ↔ _
          rw [hsound.mem_keys_addEdge, ih]
          by_cases heq : source = target
          · simp [Change.pair?, heq]
          · simp only [Change.pair?, heq, if_false, List.filterMap_cons,
              List.filterMap_nil, List.mem_append, List.mem_singleton,
              or_and_right, exists_or, exists_eq_left, ne_eq,
              not_false_eq_true, true_and, reduceCtorEq, or_false]
            exact or_comm.trans or_assoc

-- ==================================================================== counts

/-- The edges as pairs. -/
def pairs (g : ImportGraph) : List (Text × Text) :=
  g.edges.flatMap fun e => e.2.map (Prod.mk e.1)

/-- There are as many pairs as edges. -/
theorem length_pairs (g : ImportGraph) : g.pairs.length = g.edgeCount := by
  unfold pairs edgeCount
  induction g.edges with
  | nil => rfl
  | cons e es ih =>
      rw [List.flatMap_cons, List.length_append, List.length_map, ih,
        List.foldr_cons]

/-- Counting importers, less the file itself if it is one. -/
theorem inDegree_eq_length_erase (g : ImportGraph) (file : Text) :
    g.inDegree file
      = ((g.importersOf (Specifier.lastSegment file)).keys.erase file).length :=
    by
  unfold inDegree importersOf
  cases hget : g.importersByName.get? (Specifier.lastSegment file) with
  | none => rfl
  | some importers =>
      have hlen : importers.length = (Table.keys importers).length := by
        unfold Table.keys
        rw [List.length_map]
      dsimp only
      rw [Option.getD_some, List.length_erase, hlen]
      by_cases hmem : file ∈ Table.keys importers
      · rw [if_pos (Table.isSome_get?_iff.2 hmem), if_pos hmem]
      · rw [if_neg fun hs => hmem (Table.isSome_get?_iff.1 hs), if_neg hmem,
          Nat.sub_zero]

namespace Sound

/-- The pairs are the edges. -/
theorem mem_pairs (h : Sound g) :
    (source, target) ∈ g.pairs ↔ target ∈ g.edgesFrom source := by
  unfold pairs edgesFrom
  simp only [List.mem_flatMap, List.mem_map, Prod.mk.injEq]
  constructor
  · rintro ⟨⟨a, ts⟩, he, t, ht, rfl, rfl⟩
    rw [h.edges.get?_eq_some_iff.2 he]
    exact ht
  · intro hmem
    cases hget : g.edges.get? source with
    | none =>
        rw [hget] at hmem
        cases hmem
    | some ts =>
        rw [hget] at hmem
        exact ⟨(source, ts), h.edges.get?_eq_some_iff.1 hget, target, hmem,
          rfl, rfl⟩

/-- No pair is there twice. -/
theorem nodup_pairs (h : Sound g) : g.pairs.Nodup := by
  unfold pairs
  rw [List.nodup_flatMap]
  constructor
  · intro e he
    have hnodup := h.nodup e.1
    unfold edgesFrom at hnodup
    rw [h.edges.get?_eq_some_iff.2 he, Option.getD_some] at hnodup
    exact hnodup.map fun _ _ heq => (Prod.mk.inj heq).2
  · refine h.edges.imp fun {a b} hlt => ?_
    -- edges of different files differ in where they start
    intro p hp hp'
    obtain ⟨_, _, rfl⟩ := List.mem_map.1 hp
    obtain ⟨_, _, heq⟩ := List.mem_map.1 hp'
    exact ne_of_gt hlt (Prod.mk.inj heq).1

/-- A file is imported, by name, as often as there are other files with an
edge to it or to a file of its name. -/
theorem inDegree_eq (h : Sound g) (file : Text) :
    g.inDegree file
      = (g.edges.keys.filter fun source => source ≠ file
          ∧ ∃ target ∈ g.edgesFrom source, target = file
            ∨ Specifier.lastSegment target = Specifier.lastSegment file).length
    := by
  have hkeys := (h.importers (Specifier.lastSegment file)).nodup_keys
  rw [inDegree_eq_length_erase]
  refine List.Perm.length_eq ((List.perm_ext_iff_of_nodup (hkeys.erase file)
    (h.edges.nodup_keys.filter _)).2 fun source => ?_)
  rw [hkeys.mem_erase_iff, h.importer_iff, List.mem_filter, decide_eq_true_iff]
  constructor
  · rintro ⟨hne, target, htarget, hname⟩
    refine ⟨?_, hne, target, htarget, Or.inr hname⟩
    -- a file with edges is in the graph
    rw [← Table.isSome_get?_iff]
    cases hget : g.edges.get? source with
    | none =>
        unfold edgesFrom at htarget
        rw [hget] at htarget
        cases htarget
    | some _ => rfl
  · rintro ⟨-, hne, target, htarget, hor⟩
    refine ⟨hne, target, htarget, hor.elim (fun he => by rw [he]) id⟩

/-- Two sound graphs with the same nodes and edges have the same lists of
edges. -/
theorem edges_eq (h : Sound g) (h' : Sound g')
    (hkeys : ∀ x, x ∈ g.edges.keys ↔ x ∈ g'.edges.keys)
    (hedges : ∀ x, g.edgesFrom x = g'.edgesFrom x) : g.edges = g'.edges := by
  refine h.edges.ext h'.edges fun x => ?_
  have hk := hkeys x
  have he := hedges x
  rw [← Table.isSome_get?_iff, ← Table.isSome_get?_iff] at hk
  unfold edgesFrom at he
  cases hx : g.edges.get? x with
  | none =>
      rw [hx] at hk
      exact (Option.not_isSome_iff_eq_none.1 fun hs => Bool.noConfusion (hk.2 hs)).symm
  | some ts =>
      rw [hx] at hk he
      obtain ⟨ts', hx'⟩ := Option.isSome_iff_exists.1 (hk.1 rfl)
      rw [hx', Option.getD_some, Option.getD_some] at he
      rw [hx', he]

/-- A name without importers is not kept, so what is kept is told from the
importers. -/
theorem get?_importersByName (h : Sound g) (name : Text) :
    g.importersByName.get? name
      = if g.importersOf name = [] then none else some (g.importersOf name) := by
  have hkept := h.imported name
  unfold importersOf
  cases hget : g.importersByName.get? name with
  | none => rfl
  | some importers =>
      rw [hget] at hkept
      rw [Option.getD_some, if_neg fun hnil => hkept (congrArg some hnil)]

/-- Sound graphs with the same files and edges are the same. -/
theorem ext (h : Sound g) (h' : Sound g')
    (hkeys : ∀ x, x ∈ g.edges.keys ↔ x ∈ g'.edges.keys)
    (hedges : ∀ x, g.edgesFrom x = g'.edgesFrom x) : g = g' := by
  have htable : g.edges = g'.edges := h.edges_eq h' hkeys hedges
  have himporters : ∀ name, g.importersOf name = g'.importersOf name := by
    intro name
    refine (h.importers name).ext_keys (h'.importers name) fun x => ?_
    rw [h.importer_iff, h'.importer_iff, hedges]
  have hnames : g.importersByName = g'.importersByName := by
    refine h.importersByName.ext h'.importersByName fun name => ?_
    rw [h.get?_importersByName, h'.get?_importersByName, himporters]
  cases g
  cases g'
  cases htable
  cases hnames
  rfl

end Sound

/-- Edges are counted by the pairs of different files that were to be
joined, each pair once. -/
theorem edgeCount_after (changes : List Change) :
    (after changes).edgeCount
      = (changes.filterMap Change.pair?).toFinset.card := by
  have h := sound_after changes
  rw [← length_pairs, ← List.toFinset_card_of_nodup h.nodup_pairs]
  congr 1
  ext p
  obtain ⟨source, target⟩ := p
  rw [List.mem_toFinset, List.mem_toFinset, h.mem_pairs, mem_edgesFrom_after]

/-- Whatever files and edges were added in whatever order: a file is
imported as often as there are other files with an edge to it or to a file
of its name; taking the file itself from its importers never takes one
where there is none; edges lead to other files of the graph, to each once;
and there are as many as pairs of different files were to be joined. -/
theorem degrees_and_edges_after (changes : List Change) :
    (∀ file, (after changes).inDegree file
      = ((after changes).edges.keys.filter fun source => source ≠ file
          ∧ ∃ target ∈ (after changes).edgesFrom source, target = file
            ∨ Specifier.lastSegment target
              = Specifier.lastSegment file).length)
    ∧ (∀ file importers,
        (after changes).importersByName.get? (Specifier.lastSegment file)
          = some importers →
        (if (importers.get? file).isSome then 1 else 0) ≤ importers.length)
    ∧ (∀ file, file ∉ (after changes).edgesFrom file
        ∧ ((after changes).edgesFrom file).Nodup)
    ∧ (∀ file, ∀ target ∈ (after changes).edgesFrom file,
        target ∈ (after changes).edges.keys)
    ∧ (after changes).edgeCount
        = (changes.filterMap Change.pair?).toFinset.card := by
  have h := sound_after changes
  refine ⟨h.inDegree_eq, fun file importers _ => ?_,
    fun file => ⟨h.irreflexive file, h.nodup file⟩, h.closed,
    edgeCount_after changes⟩
  split
  · rename_i hsome
    obtain ⟨e, he, -⟩ := List.mem_map.1 (Table.isSome_get?_iff.1 hsome)
    exact List.length_pos_of_mem he
  · exact Nat.zero_le _

end ImportGraph

end SourceDigest
