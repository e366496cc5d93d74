/-
Use trees, and which of them are read in full.

A declaration imports the leaves of a tree of names and groups (`UseTree`).
On the first line the path of the tree is found, and if it is the path of a
group, the members are read as a list: one by one, over as many lines as there
are (`scanText_listed`), up to the first closing brace.

So a member that is a plain name is read as it should be, wherever it stands.
A member with a path and a star or a group behind is read as a name as well,
and no path of the tree looks like that name (`exists_stray`). Which trees are
read in full is settled by this alone: a single name, and a group of plain
names (`uses_reported_iff_flat`).

A group stands behind a path. Braces without one, as in `use {a, b};`, put
their members under no module: what they hold are members of the group
around them, or declarations of their own, and as such it can be written
here. So they have no spelling of their own.
-/
import Mathlib
import SourceDigest.Proofs.Imports.UsePaths
import SourceDigest.Proofs.Occurrences

namespace SourceDigest

namespace Imports

open Text (isBlank isWord)

-- ====================================================================== trees

/-- What a declaration imports. -/
inductive UseTree where
  /-- One name, perhaps under another name. -/
  | name (path : List Identifier) (alias? : Option Identifier)
  /-- All names of a module. -/
  | all (path : List Identifier)
  /-- The module of a group itself, perhaps under another name. -/
  | here (alias? : Option Identifier)
  /-- A group of trees below a path. -/
  | group (path : List Identifier) (members : List UseTree)

namespace UseTree

/-- The path that a tree starts with. -/
def path : UseTree → List Identifier
  | name path _ | all path | group path _ => path
  | here _ => []

/-- The paths of the leaves. That of a star is the module that it stands behind,
and that of a module itself is the group that holds it. -/
inductive Leaf : UseTree → List Identifier → Prop
  | name {path alias?} : Leaf (.name path alias?) path
  | all {path} : Leaf (.all path) path
  | here {alias?} : Leaf (.here alias?) []
  | member {path members tree below} : tree ∈ members → Leaf tree below →
      Leaf (.group path members) (path ++ below)

/-- The paths of the groups. -/
inductive Group : UseTree → List Identifier → Prop
  | self {path members} : Group (.group path members) path
  | member {path members tree below} : tree ∈ members → Group tree below →
      Group (.group path members) (path ++ below)

/-- A member of a group that stands for one name or for the module itself. -/
def IsSimple : UseTree → Prop
  | name _ _ | here _ | all [] => True
  | all (_ :: _) | group _ _ => False

/-- A single name, or a group of simple members. -/
def IsFlat : UseTree → Prop
  | name _ _ => True
  | group _ members => ∀ tree ∈ members, tree.IsSimple
  | all _ | here _ => False

/-- All leaves are reported, and nothing but leaves and groups. -/
def Reports (tree : UseTree) (found : List Text) : Prop :=
  (∀ path, tree.Leaf path → pathText path ∈ found)
    ∧ ∀ t ∈ found, ∃ path, (tree.Leaf path ∨ tree.Group path) ∧ pathText path = t

-- ================================================================== spellings

/-- Trees one after the other, with commas between them and perhaps behind the
last one. A line may end in front of a tree and behind the last comma. -/
inductive Listed (spells : UseTree → Text → Prop) : List UseTree → Text → Prop
  | nil {g} : IsSpace g → Listed spells [] g
  | last {tree g t g'} : IsSpace g → spells tree t → IsGap g' →
      Listed spells [tree] (g ++ (t ++ g'))
  | more {tree trees g t g' u} : IsSpace g → spells tree t → IsGap g' →
      Listed spells trees u →
      Listed spells (tree :: trees) (g ++ (t ++ (g' ++ ',' :: u)))

/-- How a tree may be written. -/
inductive Spells : UseTree → Text → Prop
  | name {path alias?} : path ≠ [] → pathText path ≠ ("self" : Text) →
      Spells (.name path alias?)
        (renamed (pathText path) (alias?.map Identifier.text))
  | all {path} : path ≠ [] → Spells (.all path) (pathText path ++ "::*")
  | star : Spells (.all []) "*"
  | here {alias?} :
      Spells (.here alias?) (renamed "self" (alias?.map Identifier.text))
  | group {path members t} : path ≠ [] → Listed Spells members t →
      Spells (.group path members) (pathText path ++ ("::\x7b" ++ (t ++ "\x7d")))

/-- A declaration of a tree, up to its semicolon. -/
inductive Declares (tree : UseTree) : Text → Prop
  | mk {f t g} : UseHeading f → tree.path ≠ [] → Spells tree t → IsGap g →
      Declares tree (f ++ (t ++ (g ++ ";")))

end UseTree

-- =============================================================== an open group

variable {c : Char} {f g l n p t u v w z : Text} {path : List Identifier}
  {tree : UseTree} {trees : List UseTree}

/-- A name as it is reported of the group below a path. -/
def inGroup (p n : Text) : Text := p ++ "::" ++ n

theorem rustLine_open (p l : Text) :
    rustLine (some p) l
      = ((namesIn (Text.before '\x7d' l)).map (inGroup p),
          if l.contains '\x7d' then none else some p) := rfl

/-- Within a group blanks in front of a line do not matter. -/
theorem rustLine_blank (p : Text) (hc : isBlank c = true) (l : Text) :
    rustLine (some p) (c :: l) = rustLine (some p) l := by
  have hspace : IsSpace [c] := by simpa [IsSpace] using hc
  have hbrace : '\x7d' ∉ [c] := hspace.notMem (by decide)
  rw [rustLine_open, rustLine_open, ← List.singleton_append, Text.before_append hbrace,
    namesIn_space_append hspace]
  have hne : '\x7d' ≠ c := by simpa using hbrace
  simp [hne]

/-- What stands in front of a comma adds a name to the rest of the line. -/
theorem rustLine_comma (p : Text) (hcomma : ',' ∉ t) (hbrace : '\x7d' ∉ t)
    (l : Text) :
    rustLine (some p) (t ++ ',' :: l)
      = ((nameIn? t).toList.map (inGroup p) ++ (rustLine (some p) l).1,
          (rustLine (some p) l).2) := by
  have hfront : '\x7d' ∉ t ++ [','] :=
    List.not_mem_append hbrace (by decide)
  have hbefore : Text.before '\x7d' (t ++ ',' :: l)
      = t ++ ',' :: Text.before '\x7d' l := by
    rw [List.append_cons, Text.before_append hfront, List.append_assoc,
      List.singleton_append]
  rw [rustLine_open, rustLine_open, hbefore, namesIn_append hcomma, List.map_append]
  simp [hbrace]

/-- A brace closes the group, and the rest of the line is not read. -/
theorem rustLine_close (p : Text) (hbrace : '\x7d' ∉ t) (l : Text) :
    rustLine (some p) (t ++ '\x7d' :: l) = ((namesIn t).map (inGroup p), none) := by
  rw [rustLine_open, Text.before_append_self hbrace, if_pos (by simp)]

/-- Blanks and ends of lines in a group are passed over. -/
theorem scanText_groupSpace (p : Text) (hg : IsSpace g) (u : Text) :
    scanText rustLine (some p) (g ++ u) = scanText rustLine (some p) u :=
  scanText_space rfl (fun _ hc => rustLine_blank p hc) hg u

/-- The text of a group in front of a comma, on one line. -/
theorem scanText_groupComma (p : Text) (hcomma : ',' ∉ t) (hbrace : '\x7d' ∉ t)
    (hfeed : '\n' ∉ t) (u : Text) :
    scanText rustLine (some p) (t ++ ',' :: u)
      = (nameIn? t).toList.map (inGroup p) ++ scanText rustLine (some p) u := by
  have hadds := scanText_append (isInline_concat (c := ',') hfeed rfl) (by simp)
    (by rfl : (rustLine (some p) []).1 = [])
    (fun l _ => by
      rw [List.append_assoc, List.singleton_append]
      exact rustLine_comma p hcomma hbrace l) u
  rwa [List.append_assoc, List.singleton_append] at hadds

/-- The text of a group in front of the closing brace, on one line. Behind it the
line is as good as one that declares nothing. -/
theorem scanText_groupClose (p : Text) (hbrace : '\x7d' ∉ t) (hfeed : '\n' ∉ t)
    (u : Text) :
    scanText rustLine (some p) (t ++ '\x7d' :: u)
      = (namesIn t).map (inGroup p) ++ scanText rustLine none ('/' :: u) := by
  have hline : ∀ l, '\n' ∉ l → rustLine (some p) (t ++ ['\x7d'] ++ l)
      = ((namesIn t).map (inGroup p) ++ (rustLine none ([] ++ ['/'] ++ l)).1,
          (rustLine none ([] ++ ['/'] ++ l)).2) := by
    intro l _
    rw [List.nil_append, List.singleton_append, rustLine_slash, List.append_nil,
      List.append_assoc, List.singleton_append]
    exact rustLine_close p hbrace l
  have hadds := scanText_exchange (isInline_concat (c := '\x7d') hfeed rfl)
    (isInline_concat (t := []) (c := '/') (by simp) rfl) (by simp) (by simp) hline u
  rwa [List.append_assoc, List.singleton_append] at hadds

-- =============================================================== plain members

namespace UseTree

/-- The name that a simple member adds to its group. -/
def named? : UseTree → Option Text
  | name path _ => some (pathText path)
  | all _ | here _ | group _ _ => none

/-- A simple member is written as one name. -/
theorem Spells.exists_renamed (h : Spells tree t) (hsimple : tree.IsSimple) :
    ∃ n, ∃ alias? : Option Identifier,
      t = renamed n (alias?.map Identifier.text) ∧ IsSolid n
      ∧ (∀ c ∈ n, isWord c = true ∨ c = ':' ∨ c = '*')
      ∧ tree.named? = if n = ['*'] ∨ n = ("self" : Text) then none else some n := by
  cases h with
  | @name path alias? hne hself =>
      have hnot : '*' ∉ pathText path := notMem_pathText (by decide) (by decide)
      have hstar : pathText path ≠ ['*'] := by
        intro h
        exact hnot (by rw [h]; simp)
      refine ⟨pathText path, alias?, rfl, isSolid_pathText hne, fun c hc => ?_, ?_⟩
      · rcases isWord_or_colon hc with h | h
        · exact Or.inl h
        · exact Or.inr (Or.inl h)
      · rw [if_neg (not_or.2 ⟨hstar, hself⟩)]
        rfl
  | @all path hne =>
      obtain ⟨i, path, rfl⟩ := List.exists_cons_of_ne_nil hne
      cases hsimple
  | star =>
      refine ⟨['*'], none, rfl, ⟨by simp, by simp; decide⟩, by simp, rfl⟩
  | @here alias? =>
      have hself : IsIdentifier "self" := by decide
      exact ⟨"self", alias?, rfl, hself.isSolid, fun c hc => Or.inl (hself.2 c hc),
        rfl⟩
  | group _ _ => cases hsimple

theorem notMem_renamed (hn : c ∉ n) (alias? : Option Identifier)
    (hword : isWord c = false) (hspace : c ≠ ' ') :
    c ∉ renamed n (alias?.map Identifier.text) := by
  cases alias? with
  | none => exact hn
  | some a =>
      have has : c ∉ " as ".toList := by
        intro hmem
        have hall : " as ".toList.all (fun c => isWord c || c == ' ') = true := by
          decide +kernel
        have hc := List.all_eq_true.1 hall c hmem
        rw [hword, Bool.false_or, beq_iff_eq] at hc
        exact hspace hc
      show c ∉ n ++ (" as ".toList ++ a.text)
      rw [List.mem_append, List.mem_append, not_or, not_or]
      exact ⟨hn, has, a.isIdentifier.notMem hword⟩

/-- Blanks other than a space and most marks do not occur in what one name is
written as. -/
theorem Spells.notMem (h : Spells tree t) (hsimple : tree.IsSimple)
    (hword : isWord c = false) (hmarks : c ≠ ':' ∧ c ≠ '*' ∧ c ≠ ' ') : c ∉ t := by
  obtain ⟨n, alias?, rfl, -, hn, -⟩ := h.exists_renamed hsimple
  have hname : c ∉ n := by
    intro hmem
    rcases hn c hmem with h | h | h
    · rw [h] at hword
      cases hword
    · exact hmarks.1 h
    · exact hmarks.2.1 h
  exact notMem_renamed hname alias? hword hmarks.2.2

/-- A simple member is read as its name. -/
theorem Spells.nameIn?_eq (h : Spells tree t) (hsimple : tree.IsSimple)
    (hg : IsSpace g) : nameIn? (t ++ g) = tree.named? := by
  obtain ⟨n, alias?, rfl, hn, -, hnamed⟩ := h.exists_renamed hsimple
  have halias : ∀ a ∈ alias?.map Identifier.text, IsSolid a := by
    intro a ha
    obtain ⟨i, -, rfl⟩ := Option.map_eq_some_iff.1 ha
    exact i.isIdentifier.isSolid
  have hread := nameIn?_renamed (g := []) (by simp [IsSpace]) hn halias hg
  rw [hnamed]
  exact hread

/-- With the blanks behind it, it stands on one line and ends no member and no
group. -/
theorem Spells.notMem_marks (h : Spells tree t) (hsimple : tree.IsSimple)
    (hg : IsGap g) : ',' ∉ t ++ g ∧ '\x7d' ∉ t ++ g ∧ '\n' ∉ t ++ g := by
  refine ⟨?comma, ?brace, ?feed⟩
  case comma =>
    exact List.not_mem_append (h.notMem hsimple (by decide) (by decide))
      (hg.isSpace.notMem (by decide))
  case brace =>
    exact List.not_mem_append (h.notMem hsimple (by decide) (by decide))
      (hg.isSpace.notMem (by decide))
  case feed =>
    exact List.not_mem_append (h.notMem hsimple (by decide) (by decide)) hg.notMem_feed

/-- A simple member in front of a comma. -/
theorem Spells.scanText_comma (h : Spells tree t) (hsimple : tree.IsSimple)
    (hg : IsGap g) (p u : Text) :
    scanText rustLine (some p) (t ++ (g ++ ',' :: u))
      = tree.named?.toList.map (inGroup p) ++ scanText rustLine (some p) u := by
  obtain ⟨hcomma, hbrace, hfeed⟩ := h.notMem_marks hsimple hg
  rw [← List.append_assoc, scanText_groupComma p hcomma hbrace hfeed,
    h.nameIn?_eq hsimple hg.isSpace]

/-- A simple member in front of the closing brace. -/
theorem Spells.scanText_close (h : Spells tree t) (hsimple : tree.IsSimple)
    (hg : IsGap g) (p u : Text) :
    scanText rustLine (some p) (t ++ (g ++ '\x7d' :: u))
      = tree.named?.toList.map (inGroup p) ++ scanText rustLine none ('/' :: u) := by
  obtain ⟨hcomma, hbrace, hfeed⟩ := h.notMem_marks hsimple hg
  rw [← List.append_assoc, scanText_groupClose p hbrace hfeed, namesIn_of_notMem hcomma,
    h.nameIn?_eq hsimple hg.isSpace]

/-- Each tree of a list is written somehow. -/
theorem Listed.exists_spells (h : Listed Spells trees t) :
    ∀ tree ∈ trees, ∃ t, Spells tree t := by
  induction h with
  | nil _ => simp
  | last _ ht _ => simpa using ⟨_, ht⟩
  | more _ ht _ _ ih => exact List.forall_mem_cons.2 ⟨⟨_, ht⟩, ih⟩

/-- A simple member has one leaf, which is its name or the group itself. -/
theorem Spells.exists_leaf (h : Spells tree t) (hsimple : tree.IsSimple) :
    ∃ below, (∀ path, tree.Leaf path ↔ path = below)
      ∧ tree.named? = if below = [] then none else some (pathText below) := by
  cases h with
  | @name path alias? hne _ =>
      refine ⟨path, fun q => ⟨?_, ?_⟩, (if_neg hne).symm⟩
      · rintro ⟨⟩
        rfl
      · rintro rfl
        exact .name
  | @all path hne =>
      obtain ⟨i, path, rfl⟩ := List.exists_cons_of_ne_nil hne
      cases hsimple
  | star =>
      refine ⟨[], fun q => ⟨?_, ?_⟩, rfl⟩
      · rintro ⟨⟩
        rfl
      · rintro rfl
        exact .all
  | here =>
      refine ⟨[], fun q => ⟨?_, ?_⟩, rfl⟩
      · rintro ⟨⟩
        rfl
      · rintro rfl
        exact .here
  | group _ _ => cases hsimple

/-- **Simple members are all read,** up to the brace behind them. -/
theorem scanText_listed (h : Listed Spells trees t)
    (hsimple : ∀ tree ∈ trees, tree.IsSimple) (p u : Text) :
    scanText rustLine (some p) (t ++ '\x7d' :: u)
      = (trees.filterMap named?).map (inGroup p)
          ++ scanText rustLine none ('/' :: u) := by
  induction h with
  | @nil g hg =>
      rw [scanText_groupSpace p hg]
      exact scanText_groupClose (t := []) p (by simp) (by simp) u
  | @last tree g t g' hg ht hg' =>
      have hone := hsimple tree (List.mem_singleton_self tree)
      rw [List.append_assoc, scanText_groupSpace p hg, List.append_assoc,
        ht.scanText_close hone hg']
      cases hn : tree.named? <;> simp [hn]
  | @more tree trees g t g' u' hg ht hg' _ ih =>
      obtain ⟨hone, hrest⟩ := List.forall_mem_cons.1 hsimple
      rw [List.append_assoc, scanText_groupSpace p hg, List.append_assoc,
        List.append_assoc, List.cons_append, ht.scanText_comma hone hg', ih hrest]
      cases hn : tree.named? <;> simp [hn]

-- =============================================================== other members

/-- What is first in a line of a group and solid is the front of a name that is
reported. -/
theorem exists_mem_rustLine (hn : IsSolid n) (hcolon : ':' ∈ n) (hcomma : ',' ∉ n)
    (p l : Text) : ∃ z, z <+: l ∧ inGroup p (n ++ z) ∈ (rustLine (some p) (n ++ l)).1 := by
  have hbrace : '\x7d' ∉ n := by
    intro hmem
    have hmark := (hn.2 _ hmem).2
    cases hmark
  have hname : ∀ x, n ++ nameTail x ∈ (nameIn? (n ++ x)).toList := by
    intro x
    have hread := nameIn?_append (g := []) (by simp [IsSpace]) hn x
    have hother : ∀ w : Text, ':' ∉ w → n ++ nameTail x ≠ w := by
      intro w hw heq
      exact hw (heq ▸ List.mem_append_left _ hcolon)
    rw [List.nil_append, if_neg (not_or.2 ⟨hother [] (by simp), not_or.2
      ⟨hother ['*'] (by simp), hother "self" (by decide)⟩⟩)] at hread
    rw [hread]
    simp
  obtain ⟨x, hx, hmem⟩ : ∃ x, x <+: Text.before '\x7d' l
      ∧ n ++ nameTail x ∈ namesIn (n ++ Text.before '\x7d' l) := by
    by_cases h : ',' ∈ Text.before '\x7d' l
    · obtain ⟨x, y, hxy, hx⟩ := List.eq_append_cons_of_mem h
      refine ⟨x, ⟨',' :: y, hxy.symm⟩, ?_⟩
      have hfront : ',' ∉ n ++ x :=
        List.not_mem_append hcomma hx
      rw [hxy, ← List.append_assoc, namesIn_append hfront]
      exact List.mem_append_left _ (hname x)
    · have hwhole : ',' ∉ n ++ Text.before '\x7d' l :=
        List.not_mem_append hcomma h
      refine ⟨_, List.prefix_rfl, ?_⟩
      rw [namesIn_of_notMem hwhole]
      exact hname _
  refine ⟨nameTail x, (nameTail_isPrefix x).trans
    (hx.trans (List.takeWhile_prefix _)), ?_⟩
  rw [rustLine_open, Text.before_append hbrace]
  exact List.mem_map_of_mem hmem

/-- The same for the text of a group, with some of what stands behind on the
line. -/
theorem exists_mem_scanText (hn : IsSolid n) (hcolon : ':' ∈ n) (hcomma : ',' ∉ n)
    (hinline : IsInline (n ++ v)) (p u : Text) :
    ∃ l z, z <+: v ++ l
      ∧ inGroup p (n ++ z) ∈ scanText rustLine (some p) (n ++ (v ++ u)) := by
  obtain ⟨l, more, hlines⟩ : ∃ l more,
      Text.lines (n ++ (v ++ u)) = (n ++ (v ++ l)) :: more := by
    rw [← List.append_assoc, lines_append hinline.1 hinline.2]
    cases Text.lines u with
    | nil =>
        refine ⟨[], [], ?_⟩
        have hne : n ++ v ≠ [] := by simp [hn.1]
        show Text.lines (n ++ v) = _
        rw [Text.lines_of_notMem hinline.1, if_neg hne, List.append_nil]
    | cons line more => exact ⟨line, more, by simp⟩
  obtain ⟨z, hz, hmem⟩ := exists_mem_rustLine hn hcolon hcomma p (v ++ l)
  refine ⟨l, z, hz, ?_⟩
  unfold scanText
  rw [hlines, scanLines]
  exact List.mem_append_left _ hmem

/-- A text that is not the text of a path. -/
def IsStray (t : Text) : Prop := ∀ path, pathText path ≠ t

/-- What holds more than words and colons is no path. -/
theorem isStray_of_mem (hc : c ∈ t) (hword : isWord c = false) (hcolon : c ≠ ':') :
    IsStray t := by
  rintro path rfl
  exact notMem_pathText hword hcolon hc

/-- What ends with a colon is no path. -/
theorem isStray_of_getLast? (h : t.getLast? = some ':') : IsStray t := by
  rintro path rfl
  by_cases hne : path = []
  · subst hne
    cases h
  · obtain ⟨s, c, hs, hc⟩ := exists_pathText_eq_concat hne
    rw [hs, List.getLast?_concat] at h
    cases h
    cases hc

/-- The text of a path with marks behind it. -/
theorem isSolid_pathText_append (hne : path ≠ [])
    (hw : w.all (fun c => !isBlank c && !isListMark c) = true) :
    IsSolid (pathText path ++ w) := by
  obtain ⟨hnil, hpath⟩ := isSolid_pathText hne
  refine ⟨by simp [hnil], fun c hc => ?_⟩
  rcases List.mem_append.1 hc with hc | hc
  · exact hpath c hc
  · simpa using List.all_eq_true.1 hw c hc

theorem notMem_feed_pathText_colons (path : List Identifier) :
    '\n' ∉ pathText path ++ [':', ':'] :=
  List.not_mem_append (notMem_pathText (by decide) (by decide)) (by decide)

/-- All names of a module are read with the star. -/
theorem exists_stray_all (hne : path ≠ []) (p u : Text) :
    ∃ s ∈ scanText rustLine (some p) (pathText path ++ "::*" ++ u), IsStray s := by
  have hn : IsSolid (pathText path ++ [':', ':', '*']) :=
    isSolid_pathText_append hne (by decide)
  have hcomma : ',' ∉ pathText path ++ [':', ':', '*'] :=
    List.not_mem_append (notMem_pathText (by decide) (by decide)) (by decide)
  have hinline : IsInline ((pathText path ++ [':', ':', '*']) ++ []) := by
    have hstar := isInline_concat (c := '*') (notMem_feed_pathText_colons path) rfl
    rw [List.append_assoc] at hstar
    rw [List.append_nil]
    exact hstar
  obtain ⟨l, z, -, hmem⟩ := exists_mem_scanText hn
    (List.mem_append_right _ (by decide)) hcomma hinline p u
  refine ⟨_, hmem, isStray_of_mem (c := '*') ?_ (by decide) (by decide)⟩
  unfold inGroup
  simp

/-- A group in a group is read with its colons, and with its brace if the line goes
on. -/
theorem exists_stray_group (hne : path ≠ []) (p u : Text) :
    ∃ s ∈ scanText rustLine (some p) (pathText path ++ ("::\x7b" ++ u)), IsStray s := by
  have hn : IsSolid (pathText path ++ [':', ':']) :=
    isSolid_pathText_append hne (by decide)
  have hcomma : ',' ∉ pathText path ++ [':', ':'] :=
    List.not_mem_append (notMem_pathText (by decide) (by decide)) (by decide)
  have hinline : IsInline ((pathText path ++ [':', ':']) ++ ['\x7b']) :=
    isInline_concat (notMem_feed_pathText_colons path) rfl
  obtain ⟨l, z, hz, hmem⟩ := exists_mem_scanText hn
    (List.mem_append_right _ (by decide)) hcomma hinline p u
  have hshape : (pathText path ++ [':', ':']) ++ (['\x7b'] ++ u)
      = pathText path ++ ("::\x7b".toList ++ u) := List.append_assoc ..
  rw [hshape] at hmem
  refine ⟨_, hmem, ?_⟩
  cases z with
  | nil =>
      refine isStray_of_getLast? ?_
      rw [List.append_nil]
      unfold inGroup
      rw [← List.append_assoc]
      exact List.getLast?_append_of_ne_nil _ (by simp)
  | cons c z =>
      have hbrace : c = '\x7b' := (List.cons_prefix_cons.1 hz).1
      subst hbrace
      refine isStray_of_mem (c := '\x7b') ?_ (by decide) (by decide)
      unfold inGroup
      simp

/-- A member that is not simple is read as a name that is no path. -/
theorem Spells.exists_stray (h : Spells tree t) (hsimple : ¬ tree.IsSimple)
    (p u : Text) :
    ∃ s ∈ scanText rustLine (some p) (t ++ u), IsStray s := by
  cases h with
  | name _ _ => exact absurd trivial hsimple
  | star => exact absurd trivial hsimple
  | here => exact absurd trivial hsimple
  | all hne => exact exists_stray_all hne p u
  | group hne _ =>
      rw [List.append_assoc, List.append_assoc]
      exact exists_stray_group hne p _

/-- So is the first such member of a group. -/
theorem exists_stray_of_listed (h : Listed Spells trees t)
    (hsimple : ¬ ∀ tree ∈ trees, tree.IsSimple) (p u : Text) :
    ∃ s ∈ scanText rustLine (some p) (t ++ u), IsStray s := by
  induction h with
  | nil _ => exact absurd (by simp) hsimple
  | @last tree g t g' hg ht hg' =>
      have hone : ¬ tree.IsSimple := by simpa using hsimple
      rw [List.append_assoc, scanText_groupSpace p hg, List.append_assoc]
      exact ht.exists_stray hone p (g' ++ u)
  | @more tree trees g t g' u' hg ht hg' _ ih =>
      rw [List.append_assoc, scanText_groupSpace p hg, List.append_assoc,
        List.append_assoc, List.cons_append]
      by_cases hone : tree.IsSimple
      · have hrest : ¬ ∀ tree ∈ trees, tree.IsSimple := fun h =>
          hsimple (List.forall_mem_cons.2 ⟨hone, h⟩)
        obtain ⟨s, hs, hstray⟩ := ih hrest
        rw [ht.scanText_comma hone hg']
        exact ⟨s, List.mem_append_right _ hs, hstray⟩
      · exact ht.exists_stray hone p _

-- ================================================================== all trees

/-- The end of the text, with or without the end of a line. -/
def IsEnd (t : Text) : Prop := t = [] ∨ t = ['\n'] ∨ t = ['\r', '\n']

/-- What ends with no carriage return is the only line before the end. -/
theorem lines_of_isEnd (ht : IsInline t) (hne : t ≠ []) (hu : IsEnd u) :
    Text.lines (t ++ u) = [t] := by
  rw [lines_append ht.1 ht.2]
  rcases hu with rfl | rfl | rfl
  · show Text.lines t = [t]
    rw [Text.lines_of_notMem ht.1, if_neg hne]
  · show [t ++ []] = [t]
    rw [List.append_nil]
  · show [t ++ []] = [t]
    rw [List.append_nil]

/-- A declaration on one line reports what the line does. -/
theorem ofLines_declaration (hf : UseHeading f) (ht : '\n' ∉ t) (hg : IsGap g)
    (hu : IsEnd u) :
    ofLines .rust (Text.lines (f ++ (t ++ (g ++ ";")) ++ u))
      = (rustLine none (f ++ (t ++ (g ++ ";")))).1 := by
  have hfeed : '\n' ∉ f ++ (t ++ g) := by
    simp only [List.mem_append, hf.notMem_feed, ht, hg.notMem_feed, or_self,
      not_false_eq_true]
  have hinline : IsInline (f ++ (t ++ (g ++ ";".toList))) := by
    have hsemicolon := isInline_concat (c := ';') hfeed rfl
    simp only [List.append_assoc] at hsemicolon
    exact hsemicolon
  rw [lines_of_isEnd hinline (by simp) hu]
  show (rustLine none _).1 ++ [] = _
  rw [List.append_nil]

/-- A single name is reported. -/
theorem reports_name (hf : UseHeading f) (hne : path ≠ [])
    (alias? : Option Identifier) (hg : IsGap g) (hu : IsEnd u) :
    (UseTree.name path alias?).Reports (scan .rust
      (f ++ (renamed (pathText path) (alias?.map Identifier.text) ++ (g ++ ";"))
        ++ u)) := by
  have hfeed : '\n' ∉ renamed (pathText path) (alias?.map Identifier.text) :=
    notMem_renamed (notMem_pathText (by decide) (by decide)) alias? (by decide)
      (by decide)
  have halias : ∀ a ∈ alias?.map Identifier.text, IsIdentifier a := by
    intro a ha
    obtain ⟨i, -, rfl⟩ := Option.map_eq_some_iff.1 ha
    exact i.isIdentifier
  have hmem : ∀ t, t ∈ scan .rust
      (f ++ (renamed (pathText path) (alias?.map Identifier.text) ++ (g ++ ";"))
        ++ u) ↔ t = pathText path := by
    intro t
    unfold scan
    rw [mem_firstOccurrences, ofLines_declaration hf hfeed hg hu,
      rustLine_name hf hne halias hg, List.mem_singleton]
  constructor
  · rintro _ ⟨⟩
    exact (hmem _).2 rfl
  · intro t ht
    exact ⟨path, Or.inl .name, ((hmem t).1 ht).symm⟩

/-- All names of a module are not. -/
theorem not_reports_all (hf : UseHeading f) (hne : path ≠ []) (hg : IsGap g)
    (hu : IsEnd u) :
    ¬ (UseTree.all path).Reports (scan .rust
      (f ++ ((pathText path ++ "::*") ++ (g ++ ";")) ++ u)) := by
  intro hreports
  have hfeed : '\n' ∉ pathText path ++ "::*".toList :=
    List.not_mem_append (notMem_pathText (by decide) (by decide)) (by decide)
  have hbrace : '\x7b' ∉ g ++ ";".toList :=
    List.not_mem_append (hg.isSpace.notMem (by decide)) (by decide)
  have hmem := hreports.1 path .all
  unfold scan at hmem
  rw [mem_firstOccurrences, ofLines_declaration hf hfeed hg hu, List.append_assoc,
    rustLine_all hf hne hbrace] at hmem
  cases hmem

/-- The path of a group is reported, and its members are read in the open
group. -/
theorem scanText_useGroup (hf : UseHeading f) (hne : path ≠ []) (u : Text) :
    scanText rustLine none (f ++ (pathText path ++ ("::\x7b" ++ u)))
      = pathText path :: scanText rustLine (some (pathText path)) u := by
  have hfeed : '\n' ∉ f ++ (pathText path ++ "::".toList) := by
    rw [List.mem_append, List.mem_append, not_or, not_or]
    exact ⟨hf.notMem_feed, notMem_pathText (by decide) (by decide), by decide⟩
  have hinline : IsInline (f ++ (pathText path ++ "::\x7b".toList)) := by
    have hopen := isInline_concat (c := '\x7b') hfeed rfl
    simp only [List.append_assoc] at hopen
    exact hopen
  have hadds := scanText_append hinline (by simp)
    (by rfl : (rustLine (some (pathText path)) []).1 = [])
    (fun l hl => by
      rw [List.append_assoc, List.append_assoc]
      exact rustLine_group hf hne hl) u
  rw [List.append_assoc, List.append_assoc] at hadds
  exact hadds

/-- What is reported of the declaration of a group: its path, and what is read in
the open group. -/
theorem mem_scan_group (hf : UseHeading f) (hne : path ≠ []) (t g u s : Text) :
    s ∈ scan .rust
        (f ++ ((pathText path ++ ("::\x7b" ++ (t ++ "\x7d"))) ++ (g ++ ";")) ++ u)
      ↔ s = pathText path ∨ s ∈ scanText rustLine (some (pathText path))
          (t ++ '\x7d' :: (g ++ ";".toList ++ u)) := by
  have hshape : f ++ ((pathText path ++ ("::\x7b".toList ++ (t ++ "\x7d".toList)))
        ++ (g ++ ";".toList)) ++ u
      = f ++ (pathText path ++ ("::\x7b".toList ++ (t ++ '\x7d' ::
          (g ++ ";".toList ++ u)))) := by
    simp only [List.append_assoc]
    rfl
  rw [hshape, ← List.mem_cons, ← scanText_useGroup hf hne]
  exact mem_firstOccurrences

/-- Nothing is read behind the brace that closes it. -/
theorem scanText_closed (hg : IsGap g) (hu : IsEnd u) :
    scanText rustLine none ('/' :: (g ++ ";".toList ++ u)) = [] := by
  have hinline : IsInline (('/' :: g) ++ [';']) :=
    isInline_concat (by simpa using hg.notMem_feed) rfl
  have hlines := lines_of_isEnd hinline (by simp) hu
  unfold scanText
  show scanLines rustLine none (Text.lines (('/' :: g) ++ [';'] ++ u)) = []
  rw [hlines]
  show (rustLine none ('/' :: (g ++ [';']))).1 ++ [] = []
  rw [rustLine_slash]
  rfl

/-- In a group the paths go on from that of the group. -/
theorem inGroup_pathText {below : List Identifier} (hne : path ≠ [])
    (hbelow : below ≠ []) :
    inGroup (pathText path) (pathText below) = pathText (path ++ below) := by
  rw [pathText_append hne hbelow]
  unfold inGroup
  rw [List.append_assoc]

/-- The leaves of a group are those of its trees, each behind the path of the
group. -/
theorem leaf_group_iff {q : List Identifier} :
    (UseTree.group path trees).Leaf q
      ↔ ∃ tree ∈ trees, ∃ below, tree.Leaf below ∧ q = path ++ below := by
  constructor
  · rintro (_ | _ | _ | ⟨htree, hbelow⟩)
    exact ⟨_, htree, _, hbelow, rfl⟩
  · rintro ⟨tree, htree, below, hbelow, rfl⟩
    exact .member htree hbelow

/-- The names that simple members add to a group are the leaves below it. -/
theorem mem_named_iff (ht : Listed Spells trees t)
    (hsimple : ∀ tree ∈ trees, tree.IsSimple) (hne : path ≠ []) {s : Text} :
    s ∈ (trees.filterMap named?).map (inGroup (pathText path))
      ↔ ∃ below ≠ [], (∃ tree ∈ trees, tree.Leaf below) ∧ pathText (path ++ below) = s := by
  have hleaf : ∀ tree ∈ trees, ∃ below, (∀ q, tree.Leaf q ↔ q = below)
      ∧ tree.named? = if below = [] then none else some (pathText below) := by
    intro tree htree
    obtain ⟨t, ht⟩ := ht.exists_spells tree htree
    exact ht.exists_leaf (hsimple tree htree)
  constructor
  · intro hs
    obtain ⟨n, hn, rfl⟩ := List.mem_map.1 hs
    obtain ⟨tree, htree, hnamed⟩ := List.mem_filterMap.1 hn
    obtain ⟨below, honly, hread⟩ := hleaf tree htree
    by_cases hnil : below = []
    · rw [hnamed, if_pos hnil] at hread
      cases hread
    · rw [hnamed, if_neg hnil, Option.some_inj] at hread
      rw [hread, inGroup_pathText hne hnil]
      exact ⟨below, hnil, ⟨tree, htree, (honly below).2 rfl⟩, rfl⟩
  · rintro ⟨below, hnil, ⟨tree, htree, hbelow⟩, rfl⟩
    obtain ⟨_, honly, hnamed⟩ := hleaf tree htree
    obtain rfl := (honly below).1 hbelow
    rw [if_neg hnil] at hnamed
    rw [← inGroup_pathText hne hnil]
    exact List.mem_map_of_mem (List.mem_filterMap.2 ⟨tree, htree, hnamed⟩)

/-- A group is read in full if its members are simple, and in no other case. -/
theorem reports_group_iff (hf : UseHeading f) (hne : path ≠ [])
    (ht : Listed Spells trees t) (hg : IsGap g) (hu : IsEnd u) :
    (UseTree.group path trees).Reports (scan .rust
      (f ++ ((pathText path ++ ("::\x7b" ++ (t ++ "\x7d"))) ++ (g ++ ";")) ++ u))
      ↔ ∀ tree ∈ trees, tree.IsSimple := by
  have hmem := mem_scan_group hf hne t g u
  constructor
  · intro hreports
    by_contra hsimple
    obtain ⟨s, hs, hstray⟩ := exists_stray_of_listed ht hsimple (pathText path)
      ('\x7d' :: (g ++ ";".toList ++ u))
    obtain ⟨below, -, hbelow⟩ := hreports.2 s ((hmem s).2 (Or.inr hs))
    exact hstray below hbelow
  · intro hsimple
    have hread := scanText_listed ht hsimple (pathText path) (g ++ ";".toList ++ u)
    rw [scanText_closed hg hu, List.append_nil] at hread
    rw [hread] at hmem
    constructor
    · intro q hq
      obtain ⟨tree, htree, below, hbelow, rfl⟩ := leaf_group_iff.1 hq
      rw [hmem]
      by_cases hnil : below = []
      · rw [hnil, List.append_nil]
        exact Or.inl rfl
      · exact Or.inr ((mem_named_iff ht hsimple hne).2
          ⟨below, hnil, ⟨tree, htree, hbelow⟩, rfl⟩)
    · intro s hs
      rcases (hmem s).1 hs with rfl | hs
      · exact ⟨path, Or.inr .self, rfl⟩
      · obtain ⟨below, -, ⟨tree, htree, hbelow⟩, rfl⟩ :=
          (mem_named_iff ht hsimple hne).1 hs
        exact ⟨path ++ below, Or.inl (.member htree hbelow), rfl⟩

/-- **A declaration is read in full if it imports one name or a group of plain
names, and in no other case.** -/
theorem uses_reported_iff_flat (h : Declares tree t) (hu : IsEnd u) :
    tree.Reports (scan .rust (t ++ u)) ↔ tree.IsFlat := by
  obtain @⟨f, t, g, hf, hpath, ht, hg⟩ := h
  cases ht with
  | @name path alias? hne _ =>
      exact iff_of_true (reports_name hf hne alias? hg hu) trivial
  | @all path hne => exact iff_of_false (not_reports_all hf hne hg hu) id
  | star => exact absurd rfl hpath
  | here => exact absurd rfl hpath
  | @group path members t hne ht => exact reports_group_iff hf hne ht hg hu

/-- A public group over three lines, with the module itself and a name under
another name. -/
theorem uses_reported_of_broken_group :
    (UseTree.group [⟨"a", by decide⟩] [.name [⟨"b", by decide⟩] none, .here none,
      .name [⟨"c", by decide⟩] (some ⟨"d", by decide⟩)]).Reports
        (scan .rust "pub use a::\x7b\n    b, self,\n    c as d,\x7d;\n") := by
  have hf : UseHeading "pub use " :=
    .mk (g := []) (by decide) (.all (g := " ") (by decide) (by simp))
      (by decide : IsGap " ") (by simp)
  have hb : Spells (.name [⟨"b", by decide⟩] none) "b" := .name (by simp) (by decide)
  have hself : Spells (.here none) "self" := .here
  have hc : Spells (.name [⟨"c", by decide⟩] (some ⟨"d", by decide⟩)) "c as d" :=
    .name (by simp) (by decide)
  have hline : IsSpace "\n    " := by decide
  have hgap : IsGap [] := by decide
  have hlisted : Listed Spells _ "\n    b, self,\n    c as d," :=
    .more hline hb hgap (.more (g := " ") (by decide) hself hgap
      (.more hline hc hgap (.nil (g := []) (by decide))))
  exact (uses_reported_iff_flat
    (Declares.mk hf (by simp [UseTree.path]) (.group (by simp) hlisted) hgap)
    (Or.inr (Or.inl rfl))).2 (by simp [IsFlat, IsSimple])

/-- The names of a whole module are one leaf, which is not reported. -/
theorem scan_of_starred_module :
    (UseTree.all [⟨"a", by decide⟩, ⟨"b", by decide⟩]).Declares "use a::b::*;"
      ∧ (UseTree.all [⟨"a", by decide⟩, ⟨"b", by decide⟩]).Leaf
          [⟨"a", by decide⟩, ⟨"b", by decide⟩]
      ∧ pathText [⟨"a", by decide⟩, ⟨"b", by decide⟩] = "a::b"
      ∧ scan .rust "use a::b::*;\n" = [] := by
  refine ⟨?_, .all, rfl, by decide +kernel⟩
  have hf : UseHeading "use " :=
    .mk (g := []) (by decide) .none (by decide : IsGap " ") (by simp)
  exact Declares.mk hf (by simp [UseTree.path]) (.all (by simp))
    (by decide : IsGap [])

end UseTree

end Imports

end SourceDigest
