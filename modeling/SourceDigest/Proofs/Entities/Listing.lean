/-
Which entities are listed, and that both renderings list the same.

The listing of some entities is their selection without a cap. It takes the
kinds one after the other, so a list that has kinds asked for only, in order
(`IsListing`), is its own listing (`listing_eq_self`). Every beginning of a
listing is such a list, which is why selecting again changes nothing, with a
cap or without.

The grouped rendering has a line for each kind that occurs (`groups`). For a
list in order of kinds the names on these lines, one line after the other,
are the names in the order of the list (`names_groups`): those of the flat
rendering. `readLines` and `readRow` read the names off the two texts. A name
with a comma is read as two, but by both (`readLines_format`,
`readRow_format`).
-/
import Mathlib
import SourceDigest.Entities.Select
import SourceDigest.Proofs.Summary.Pieces
import SourceDigest.Proofs.Text.Parts

namespace SourceDigest

variable {α : Type} {s : EntitySettings} {es xs : List Entity} {e : Entity}
  {kind : EntityKind} {kinds : List EntityKind}

-- ===================================================================== by kind

/-- The place of a kind in a listing. -/
def EntityKind.rank (kind : EntityKind) : Nat := EntityKind.listed.idxOf kind

namespace Entity

/-- The entities of some kinds, one kind after the other. -/
def byKind (kinds : List EntityKind) (es : List Entity) : List Entity :=
  kinds.flatMap fun kind => es.filter (·.kind == kind)

theorem byKind_append (ks ls : List EntityKind) (es : List Entity) :
    byKind (ks ++ ls) es = byKind ks es ++ byKind ls es :=
  List.flatMap_append

/-- No entity is left if none is of a kind that is asked for. -/
theorem byKind_eq_nil (h : ∀ e ∈ es, e.kind ∉ kinds) : byKind kinds es = [] := by
  refine List.flatMap_eq_nil_iff.2 fun kind hkind => List.filter_eq_nil_iff.2 fun e he => ?_
  rw [beq_iff_eq]
  rintro rfl
  exact h e he hkind

/-- Entities of another kind may be left out. -/
theorem byKind_cons_of_notMem (h : e.kind ∉ kinds) (es : List Entity) :
    byKind kinds (e :: es) = byKind kinds es := by
  refine List.flatMap_congr fun kind hkind => List.filter_cons_of_neg ?_
  rw [beq_iff_eq]
  rintro rfl
  exact h hkind

/-- Entities whose kinds are in order are left as they are. -/
theorem byKind_eq_self (hkinds : kinds.Pairwise fun k l => k.rank < l.rank)
    (hes : es.Pairwise fun a b => a.kind.rank ≤ b.kind.rank)
    (hmem : ∀ e ∈ es, e.kind ∈ kinds) : byKind kinds es = es := by
  induction es with
  | nil => exact byKind_eq_nil (by simp)
  | cons e es ih =>
      obtain ⟨hfirst, hes⟩ := List.pairwise_cons.1 hes
      obtain ⟨he, hmem⟩ := List.forall_mem_cons.1 hmem
      have hrest := ih hes hmem
      obtain ⟨front, back, rfl⟩ := List.append_of_mem he
      obtain ⟨-, hback, hfront⟩ := List.pairwise_append.1 hkinds
      -- nothing here or behind is of a kind in front of the first entity's
      have hnone : ∀ a ∈ e :: es, a.kind ∉ front := by
        intro a ha hlow
        have hlt := hfront _ hlow _ (List.mem_cons_self ..)
        rcases List.mem_cons.1 ha with rfl | ha
        · exact Nat.lt_irrefl _ hlt
        · exact absurd (hfirst a ha) (by omega)
      have hlater : e.kind ∉ back := fun h =>
        Nat.lt_irrefl _ ((List.pairwise_cons.1 hback).1 _ h)
      have hkeep : (e :: es).filter (·.kind == e.kind) = e :: es.filter (·.kind == e.kind) :=
        List.filter_cons_of_pos (by simp)
      have hsplit : ∀ as, byKind (front ++ e.kind :: back) as
          = byKind front as ++ (as.filter (·.kind == e.kind) ++ byKind back as) :=
        fun as => byKind_append front (e.kind :: back) as
      rw [hsplit, byKind_eq_nil hnone, byKind_cons_of_notMem hlater, hkeep]
      rw [hsplit, byKind_eq_nil fun a ha => hnone a (List.mem_cons_of_mem _ ha)] at hrest
      exact congrArg (e :: ·) hrest

/-- Of one kind there is what there was, if the kind is among those asked
for. -/
theorem filter_byKind (hkinds : kinds.Nodup) (es : List Entity) (kind : EntityKind) :
    (byKind kinds es).filter (·.kind == kind)
      = if kind ∈ kinds then es.filter (·.kind == kind) else [] := by
  induction kinds with
  | nil => rfl
  | cons k kinds ih =>
      obtain ⟨hk, hkinds⟩ := List.nodup_cons.1 hkinds
      have hstep : (byKind (k :: kinds) es).filter (·.kind == kind)
          = (es.filter (·.kind == k)).filter (·.kind == kind)
            ++ (byKind kinds es).filter (·.kind == kind) := List.filter_append ..
      rw [hstep, ih hkinds]
      by_cases h : kind = k
      · have hsame : (es.filter (·.kind == k)).filter (·.kind == k) = es.filter (·.kind == k) :=
          List.filter_eq_self.2 fun e he => (List.mem_filter.1 he).2
        rw [h, hsame, if_neg hk, if_pos (List.mem_cons_self ..), List.append_nil]
      · have hnone : (es.filter (·.kind == k)).filter (·.kind == kind) = [] := by
          refine List.filter_eq_nil_iff.2 fun e he => ?_
          have hek : e.kind = k := by simpa using (List.mem_filter.1 he).2
          simpa [hek] using Ne.symm h
        rw [hnone, List.nil_append]
        simp only [List.mem_cons, h, false_or]

/-- Taken kind by kind, entities are in order of their kinds. -/
theorem pairwise_byKind (hkinds : kinds.Pairwise fun k l => k.rank < l.rank)
    (es : List Entity) :
    (byKind kinds es).Pairwise fun a b => a.kind.rank ≤ b.kind.rank := by
  have hkind : ∀ {k e}, e ∈ es.filter (·.kind == k) → e.kind = k :=
    fun he => by simpa using (List.mem_filter.1 he).2
  refine List.pairwise_flatMap.2 ⟨fun k _ => ?_, hkinds.imp fun hlt a ha b hb => ?_⟩
  · refine List.pairwise_of_forall_mem_list fun a ha b hb => ?_
    rw [hkind ha, hkind hb]
  · rw [hkind ha, hkind hb]
    exact hlt.le

/-- Listed by kind are the entities of those kinds. -/
theorem mem_byKind : e ∈ byKind kinds es ↔ e ∈ es ∧ e.kind ∈ kinds := by
  simp [byKind, and_comm]

end Entity

-- ==================================================================== listings

namespace EntitySettings

/-- The entities of the kinds asked for, however many. -/
def listing (s : EntitySettings) (es : List Entity) : List Entity :=
  Entity.byKind (EntityKind.listed.filter s.lists) es

/-- Kinds asked for only, and in order. -/
structure IsListing (s : EntitySettings) (es : List Entity) : Prop where
  asked : ∀ e ∈ es, s.lists e.kind = true
  inOrder : es.Pairwise fun a b => a.kind.rank ≤ b.kind.rank

/-- The cap is put on the whole listing. -/
theorem select_eq (s : EntitySettings) (es : List Entity) :
    s.select es = takeUnlessZero s.maxEntities (s.listing es) := rfl

theorem select_uncapped (s : EntitySettings) (es : List Entity) :
    { s with maxEntities := 0 }.select es = s.listing es := by
  have hlists : EntitySettings.lists { s with maxEntities := 0 } = s.lists := by
    funext kind
    cases kind <;> rfl
  rw [select_eq, listing, listing, hlists]
  rfl

/-- Other entities are never asked for. -/
theorem mem_listed_of_lists (h : s.lists kind = true) : kind ∈ EntityKind.listed := by
  by_cases hother : kind = .other
  · rw [hother] at h
    cases h
  · revert hother
    cases kind <;> decide

/-- A kind is gone through if it is asked for. -/
theorem mem_asked_iff :
    kind ∈ EntityKind.listed.filter s.lists ↔ s.lists kind = true := by
  rw [List.mem_filter]
  exact ⟨And.right, fun h => ⟨mem_listed_of_lists h, h⟩⟩

/-- The kinds are gone through by rank. -/
theorem pairwise_asked (s : EntitySettings) :
    (EntityKind.listed.filter s.lists).Pairwise fun k l => k.rank < l.rank :=
  List.Pairwise.filter _ (by decide)

/-- A listing has the entities asked for, grouped by kind. -/
theorem isListing_listing (s : EntitySettings) (es : List Entity) :
    s.IsListing (s.listing es) :=
  ⟨fun _ he => mem_asked_iff.1 (Entity.mem_byKind.1 he).2,
    Entity.pairwise_byKind (pairwise_asked s) es⟩

/-- A listing of a listing is itself. -/
theorem IsListing.listing_eq_self (h : s.IsListing es) : s.listing es = es :=
  Entity.byKind_eq_self (pairwise_asked s) h.inOrder fun e he =>
    mem_asked_iff.2 (h.asked e he)

/-- What is left of a listing is one. -/
theorem IsListing.sublist (h : s.IsListing es) (hsub : xs.Sublist es) : s.IsListing xs :=
  ⟨fun e he => h.asked e (hsub.subset he), h.inOrder.sublist hsub⟩

end EntitySettings

theorem takeUnlessZero_sublist (n : Nat) (xs : List α) : (takeUnlessZero n xs).Sublist xs := by
  unfold takeUnlessZero
  split
  · exact .refl _
  · exact List.take_sublist ..

/-- A cap has its effect once. -/
theorem takeUnlessZero_takeUnlessZero (n : Nat) (xs : List α) :
    takeUnlessZero n (takeUnlessZero n xs) = takeUnlessZero n xs := by
  unfold takeUnlessZero
  split
  · rfl
  · rw [List.take_take, Nat.min_self]

namespace EntitySettings

/-- A selection is a listing, capped or not. -/
theorem isListing_select (s : EntitySettings) (es : List Entity) :
    s.IsListing (s.select es) :=
  (isListing_listing s es).sublist (takeUnlessZero_sublist ..)

/-- What is selected stays selected. -/
theorem select_select (s : EntitySettings) (es : List Entity) :
    s.select (s.select es) = s.select es := by
  rw [select_eq s (s.select es), (isListing_select s es).listing_eq_self, select_eq,
    takeUnlessZero_takeUnlessZero]

/-- Of each kind that is asked for a listing has all there are, in their
order. -/
theorem filter_listing (s : EntitySettings) (es : List Entity) (kind : EntityKind) :
    (s.listing es).filter (·.kind == kind)
      = if s.lists kind then es.filter (·.kind == kind) else [] := by
  have hnodup : (EntityKind.listed.filter s.lists).Nodup :=
    List.Nodup.filter _ (by decide)
  unfold listing
  rw [Entity.filter_byKind hnodup]
  simp only [mem_asked_iff]

/-- Each entity is listed as often as it was there. -/
theorem count_listing (s : EntitySettings) (es : List Entity) (e : Entity) :
    (s.listing es).count e = if s.lists e.kind then es.count e else 0 := by
  have hsame : ∀ as : List Entity, as.count e = (as.filter (·.kind == e.kind)).count e :=
    fun as => (List.count_filter (by simp)).symm
  rw [hsame, filter_listing, hsame es]
  split <;> rfl

end EntitySettings

-- ====================================================================== groups

namespace Entity

/-- The names of the entities of one kind under the kind, if there are any. -/
def group? (es : List Entity) (kind : EntityKind) : Option (EntityKind × List Text) :=
  if namesOf kind es = [] then none else some (kind, namesOf kind es)

/-- The kinds that occur, each with the names of its entities. -/
def groups (es : List Entity) : List (EntityKind × List Text) :=
  (EntityKind.listed ++ [EntityKind.other]).filterMap (group? es)

/-- The line of a group. -/
def groupLine (g : EntityKind × List Text) : Text :=
  g.1.plural ++ ": " ++ Text.join ", " g.2

theorem kindLine?_eq (es : List Entity) (kind : EntityKind) :
    kindLine? es kind = (group? es kind).map groupLine := by
  unfold kindLine? group?
  split <;> rfl

/-- Grouped, a selection is written a line for each group. -/
theorem format_grouped (es : List Entity) :
    format es true = Text.join "\n" ((groups es).map groupLine) := by
  rw [groups, List.map_filterMap]
  exact congrArg (Text.join "\n") (List.filterMap_congr fun kind _ => kindLine?_eq es kind)

/-- The groups have the names of the entities, kind by kind. -/
theorem names_filterMap_group? (kinds : List EntityKind) (es : List Entity) :
    (kinds.filterMap (group? es)).flatMap (·.2) = (byKind kinds es).map (·.name) := by
  induction kinds with
  | nil => rfl
  | cons kind kinds ih =>
      have hstep : (byKind (kind :: kinds) es).map (·.name)
          = namesOf kind es ++ (byKind kinds es).map (·.name) := List.map_append
      rw [hstep, ← ih]
      by_cases hnil : namesOf kind es = []
      · have hgroup : group? es kind = none := if_pos hnil
        rw [List.filterMap_cons_none hgroup, hnil, List.nil_append]
      · have hgroup : group? es kind = some (kind, namesOf kind es) := if_neg hnil
        rw [List.filterMap_cons_some hgroup, List.flatMap_cons]

/-- For entities in order of their kinds the names on the lines are the names in
order. -/
theorem names_groups (h : es.Pairwise fun a b => a.kind.rank ≤ b.kind.rank) :
    (groups es).flatMap (·.2) = es.map (·.name) := by
  have hall : byKind (EntityKind.listed ++ [EntityKind.other]) es = es :=
    byKind_eq_self (by decide) h fun e _ => by cases e.kind <;> decide
  rw [groups, names_filterMap_group?, hall]

-- ===================================================================== reading

/-- The names in a text: what stands between the commas, each but the first
without the blank in front of it. -/
def readNames (t : Text) : List Text :=
  match Text.splitOn ',' t with
  | [] => []
  | name :: more => name :: more.map (·.drop 1)

/-- The names on a line: those behind the heading. -/
def readLine (t : Text) : List Text :=
  match Text.cut? ": " t with
  | some (_, names) => readNames names
  | none => []

/-- The names of a grouped rendering, line by line. -/
def readLines (t : Text) : List Text := (Text.splitOn '\n' t).flatMap readLine

/-- A name without the kind in parentheses behind it. -/
def withoutKind (t : Text) : Text :=
  match Text.splitLast? '(' t with
  | some (name, _) => name.dropLast
  | none => t

/-- The names of a flat rendering. -/
def readRow (t : Text) : List Text := if t = [] then [] else (readNames t).map withoutKind

/-- Names on both sides of a comma and a blank. -/
theorem readNames_append (t u : Text) :
    readNames (t ++ ", " ++ u) = readNames t ++ readNames u := by
  obtain ⟨p, ps, ht⟩ := List.exists_cons_of_ne_nil (Text.splitOn_ne_nil ',' t)
  obtain ⟨q, qs, hu⟩ := List.exists_cons_of_ne_nil (Text.splitOn_ne_nil ',' u)
  have hblank : Text.splitOn ',' (' ' :: u) = (' ' :: q) :: qs := by
    rw [Text.splitOn, if_neg (by decide), hu]
  have hwhole : Text.splitOn ',' (t ++ ", " ++ u) = (p :: ps) ++ (' ' :: q) :: qs := by
    rw [List.append_assoc, ← ht, ← hblank]
    exact Text.splitOn_append ',' t (' ' :: u)
  rw [readNames, hwhole, readNames, ht, readNames, hu]
  simp

/-- Names with commas between them are read back one by one. -/
theorem readNames_join {ts : List Text} (hne : ts ≠ []) :
    readNames (Text.join ", " ts) = ts.flatMap readNames := by
  induction ts with
  | nil => exact absurd rfl hne
  | cons t ts ih =>
      by_cases hts : ts = []
      · rw [hts, Text.join_singleton, List.flatMap_singleton]
      · rw [Text.join_cons _ _ hts, readNames_append, ih hts, List.flatMap_cons]

/-- A piece without a comma is one name. -/
theorem readNames_of_notMem {t : Text} (h : ',' ∉ t) : readNames t = [t] := by
  rw [readNames, Text.splitOn_of_notMem h]
  rfl

/-- The heading of a line is not read. -/
theorem readLine_groupLine (kind : EntityKind) (names : List Text) :
    readLine (groupLine (kind, names)) = readNames (Text.join ", " names) := by
  cases kind <;> rfl

/-- Without a bracket there is no kind to take off. -/
theorem withoutKind_of_notMem {t : Text} (h : '(' ∉ t) : withoutKind t = t := by
  rw [withoutKind, Text.splitLast?_of_notMem h]

/-- The kind behind a name is taken off again. -/
theorem withoutKind_append (t : Text) (kind : EntityKind) :
    withoutKind (t ++ " (" ++ kind.label ++ ")") = t := by
  have hinside : '(' ∉ kind.label ++ ")" := by cases kind <;> decide
  have hsplit := Text.splitLast?_append_of_notMem hinside (t ++ " ")
  have htext : t ++ " (" ++ kind.label ++ ")" = t ++ " " ++ '(' :: (kind.label ++ ")") := by
    simp
  rw [withoutKind, htext, hsplit]
  exact List.dropLast_concat

/-- Behind a name the kind belongs to the last piece between commas. -/
theorem splitOn_describe (e : Entity) :
    ∃ ps p, Text.splitOn ',' e.name = ps ++ [p]
      ∧ Text.splitOn ',' e.describe = ps ++ [p ++ " (" ++ e.kind.label ++ ")"] := by
  have htail : ',' ∉ (" (" ++ e.kind.label ++ ")" : Text) := by cases e.kind <;> decide
  obtain ⟨ps, p, q, qs, hname, hpieces, hwhole⟩ :=
    Text.exists_splitOn_append ',' e.name (" (" ++ e.kind.label ++ ")" : Text)
  rw [Text.splitOn_of_notMem htail] at hpieces
  obtain ⟨rfl, rfl⟩ := List.cons.inj hpieces
  have hdescribe : e.describe = e.name ++ (" (" ++ e.kind.label ++ ")") := by simp [describe]
  exact ⟨ps, p, hname, by rw [hdescribe, hwhole, ← List.append_assoc, ← List.append_assoc]⟩

/-- The kind behind a name is not read, unless the name has both a comma and a
parenthesis. -/
theorem readNames_describe (h : ',' ∉ e.name ∨ '(' ∉ e.name) :
    (readNames e.describe).map withoutKind = readNames e.name := by
  obtain ⟨ps, p, hname, hdescribe⟩ := splitOn_describe e
  rw [readNames, hdescribe, readNames, hname]
  cases ps with
  | nil => exact congrArg ([·]) (withoutKind_append p e.kind)
  | cons first ps =>
      -- the kind stands behind the last piece, and no other has a parenthesis
      have hopen : '(' ∉ e.name := h.resolve_left fun hcomma => by
        rw [Text.splitOn_of_notMem hcomma] at hname
        simp at hname
      have hpiece : ∀ r ∈ first :: ps, '(' ∉ r := fun r hr hmem =>
        hopen (Text.mem_of_mem_splitOn (hname ▸ List.mem_append_left [p] hr) hmem)
      have hfirst := withoutKind_of_notMem (hpiece first (List.mem_cons_self ..))
      have hfront : (ps.map (·.drop 1)).map withoutKind = ps.map (·.drop 1) := by
        refine (List.map_congr_left fun r hr => ?_).trans (List.map_id _)
        obtain ⟨r', hr', rfl⟩ := List.mem_map.1 hr
        exact withoutKind_of_notMem fun hmem =>
          hpiece r' (List.mem_cons_of_mem _ hr') (List.mem_of_mem_drop hmem)
      have hlast : withoutKind ((p ++ " (" ++ e.kind.label ++ ")").drop 1) = p.drop 1 := by
        cases p with
        | nil => cases e.kind <;> rfl
        | cons c p => exact withoutKind_append p e.kind
      simp only [List.cons_append, List.map_cons, List.map_append, List.map_nil, hfirst, hfront,
        hlast]

/-- No group is empty. -/
theorem names_ne_nil_of_mem_groups {g : EntityKind × List Text} (hg : g ∈ groups es) :
    g.2 ≠ [] := by
  obtain ⟨kind, -, hgroup⟩ := List.mem_filterMap.1 hg
  unfold group? at hgroup
  split at hgroup
  · cases hgroup
  · rename_i hne
    obtain rfl := Option.some.inj hgroup
    exact hne

/-- The line of a group is one line if its names are. -/
theorem notMem_groupLine {g : EntityKind × List Text} (h : ∀ name ∈ g.2, '\n' ∉ name) :
    '\n' ∉ groupLine g := by
  have hheading : '\n' ∉ g.1.plural ++ ": " := by cases g.1 <;> decide
  intro hmem
  rcases List.mem_append.1 hmem with hmem | hmem
  · exact hheading hmem
  · rcases Text.mem_join hmem with hmem | ⟨name, hname, hmem⟩
    · exact absurd hmem (by decide)
    · exact h name hname hmem

/-- The names that a grouped rendering tells line by line. -/
theorem readLines_format (h : es.Pairwise fun a b => a.kind.rank ≤ b.kind.rank)
    (hlines : ∀ e ∈ es, '\n' ∉ e.name) :
    readLines (format es true) = es.flatMap fun e => readNames e.name := by
  have hnames : ∀ g ∈ groups es, ∀ name ∈ g.2, '\n' ∉ name := by
    intro g hg name hname
    have hmem : name ∈ (groups es).flatMap (·.2) := List.mem_flatMap.2 ⟨g, hg, hname⟩
    rw [names_groups h] at hmem
    obtain ⟨e, he, rfl⟩ := List.mem_map.1 hmem
    exact hlines e he
  have hline : ∀ line ∈ (groups es).map groupLine, '\n' ∉ line := by
    intro line hline
    obtain ⟨g, hg, rfl⟩ := List.mem_map.1 hline
    exact notMem_groupLine (hnames g hg)
  have hread : ∀ g ∈ groups es, readLine (groupLine g) = g.2.flatMap readNames := fun g hg =>
    (readLine_groupLine g.1 g.2).trans (readNames_join (names_ne_nil_of_mem_groups hg))
  have hall : (es.flatMap fun e => readNames e.name) = (groups es).flatMap fun g =>
      g.2.flatMap readNames := by
    rw [← List.flatMap_assoc, names_groups h, List.flatMap_map]
  rw [format_grouped, hall, readLines]
  by_cases hnil : (groups es).map groupLine = []
  · rw [hnil, List.map_eq_nil_iff.1 hnil]
    rfl
  · have hsplit : Text.splitOn '\n' (Text.join "\n" ((groups es).map groupLine))
        = (groups es).map groupLine := Text.splitOn_join hline hnil
    rw [hsplit, List.flatMap_map]
    exact List.flatMap_congr hread

/-- The names that a flat rendering tells. -/
theorem readRow_format (hnames : ∀ e ∈ es, ',' ∉ e.name ∨ '(' ∉ e.name) :
    readRow (format es false) = es.flatMap fun e => readNames e.name := by
  unfold readRow
  by_cases hes : es = []
  · rw [if_pos ((format_eq_nil_iff false).2 hes), hes, List.flatMap_nil]
  · have hjoin : readNames (format es false) = (es.map describe).flatMap readNames :=
      readNames_join (by simpa using hes)
    rw [if_neg (mt (format_eq_nil_iff false).1 hes), hjoin, List.flatMap_map,
      List.map_flatMap]
    exact List.flatMap_congr fun e he => readNames_describe (hnames e he)

end Entity

-- =================================================================== selection

namespace EntitySettings

/-- Selecting again changes nothing. A selection is the beginning of the
selection without a cap, which holds each entity of a kind asked for as often
as it was there, the kinds in order and those of one kind as they stood. Both
renderings of it have the same names in the same order, the grouped one on the
lines of its groups; they can be read off the texts, as far as the names have
no comma and no line feed themselves. -/
theorem select_and_renderings_agree (s : EntitySettings) (es : List Entity) :
    let all := { s with maxEntities := 0 }.select es
    let selected := s.select es
    let names := selected.map (·.name)
    let grouped := Entity.format selected true
    let flat := Entity.format selected false
    s.select selected = selected
      ∧ selected = (if s.maxEntities = 0 then all else all.take s.maxEntities)
      ∧ (∀ e, all.count e = if s.lists e.kind then es.count e else 0)
      ∧ (∀ kind, all.filter (·.kind == kind)
        = if s.lists kind then es.filter (·.kind == kind) else [])
      ∧ all.Pairwise (fun a b => a.kind.rank ≤ b.kind.rank)
      ∧ (grouped = Text.join "\n" ((Entity.groups selected).map Entity.groupLine)
        ∧ (Entity.groups selected).flatMap (·.2) = names
        ∧ flat = Text.join ", " (selected.map Entity.describe))
      ∧ ((∀ e ∈ selected, '\n' ∉ e.name ∧ (',' ∉ e.name ∨ '(' ∉ e.name)) →
        Entity.readLines grouped = Entity.readRow flat)
      ∧ ((∀ e ∈ selected, '\n' ∉ e.name ∧ ',' ∉ e.name) →
        Entity.readLines grouped = names ∧ Entity.readRow flat = names) := by
  intro all selected names grouped flat
  have hall : all = s.listing es := select_uncapped s es
  have horder : selected.Pairwise fun a b => a.kind.rank ≤ b.kind.rank :=
    (isListing_select s es).inOrder
  refine ⟨select_select s es, ?_, fun e => ?_, fun kind => ?_, ?_,
    ⟨Entity.format_grouped selected, Entity.names_groups horder, rfl⟩,
    fun hread => ?_, fun hread => ?_⟩
  · rw [hall]
    rfl
  · rw [hall, count_listing]
  · rw [hall, filter_listing]
  · rw [hall]
    exact (isListing_listing s es).inOrder
  · exact (Entity.readLines_format horder fun e he => (hread e he).1).trans
      (Entity.readRow_format fun e he => (hread e he).2).symm
  · have hnames : (selected.flatMap fun e => Entity.readNames e.name) = names :=
      (List.flatMap_congr fun e he => Entity.readNames_of_notMem (hread e he).2).trans
        List.map_eq_flatMap.symm
    exact ⟨(Entity.readLines_format horder fun e he => (hread e he).1).trans hnames,
      (Entity.readRow_format fun e he => .inl (hread e he).2).trans hnames⟩

/-- The cap takes the last function away, in both renderings. -/
theorem select_and_renderings_agree_under_cap :
    let s : EntitySettings := { includeVariables := true, maxEntities := 3 }
    let es : List Entity := [⟨"run", .function⟩, ⟨"x", .other⟩, ⟨"App", .type⟩,
      ⟨"os", .imported⟩, ⟨"run", .function⟩, ⟨"LIMIT", .variable⟩, ⟨"stop", .function⟩]
    let names : List Text := ["App", "run", "run"]
    (∀ e ∈ s.select es, '\n' ∉ e.name ∧ ',' ∉ e.name)
      ∧ Entity.format (s.select es) true = "Classes: App\nFunctions: run, run".toList
      ∧ Entity.format (s.select es) false
        = "App (class), run (function), run (function)".toList
      ∧ Entity.readLines (Entity.format (s.select es) true) = names
      ∧ Entity.readRow (Entity.format (s.select es) false) = names := by
  intro s es names
  have hread : ∀ e ∈ s.select es, '\n' ∉ e.name ∧ ',' ∉ e.name := by decide
  obtain ⟨-, -, -, -, -, -, -, hnames⟩ := select_and_renderings_agree s es
  exact ⟨hread, by decide, by decide, hnames hread⟩

end EntitySettings

end SourceDigest
