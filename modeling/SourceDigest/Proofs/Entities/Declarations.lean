/-
What the lines of a text declare, line by line.

Whether a line stands in an import block is settled by the lines before it.
Once each line has been given its role (`withRoles`), no state is left: what
is found on a line is told by the line and its role alone (`readLines_eq`).
Lines that stand by themselves go through the check for usable names
(`spec_of_declared?`). Entries of import blocks do not, so an entry of whose
path cleaning leaves nothing becomes an import without a name, and nothing
else does.
-/
import Mathlib
import SourceDigest.Declaration
import SourceDigest.Proofs.Occurrences

namespace SourceDigest

namespace DeclarationRules

variable {r : DeclarationRules} {inBlock : Bool} {line name path : Text} {e : Entity}
  {language : Language} {ls : List Text}

-- ====================================================================== roles

/-- How a line is read. -/
inductive Role where
  /-- By itself. -/
  | single
  /-- As an entry of an import block. -/
  | entry
  /-- As a line that opens or closes a block. -/
  | edge
deriving DecidableEq

def role (r : DeclarationRules) (inBlock : Bool) (line : Text) : Role :=
  match r.importBlock with
  | none => .single
  | some block =>
    if inBlock then if block.closes.isIn line then .edge else .entry
    else if block.opens.isIn line then .edge else .single

/-- Lines with their roles. -/
def withRoles (r : DeclarationRules) : (inBlock : Bool) → List Text → List (Text × Role)
  | _, [] => []
  | inBlock, line :: rest =>
    (line, r.role inBlock line) :: withRoles r (r.readLine inBlock line).2 rest

/-- The path on a line, if it is an entry of an import block. -/
def path? (r : DeclarationRules) (line : Text) : Option Text :=
  r.importBlock.bind fun block => block.entry.capture? 1 line

/-- The entity on a line in its role. -/
def readAs (r : DeclarationRules) (line : Text) : Role → Option Entity
  | .single => r.declared? line
  | .entry => (r.path? line).map fun path => ⟨cleanName path, .imported⟩
  | .edge => none

theorem readLine_fst (r : DeclarationRules) (inBlock : Bool) (line : Text) :
    (r.readLine inBlock line).1 = r.readAs line (r.role inBlock line) := by
  unfold readLine role
  cases hblock : r.importBlock with
  | none => rfl
  | some block =>
      cases inBlock with
      | true =>
          simp only [if_true]
          split
          · rfl
          · simp only [readAs, path?, hblock, Option.bind_some]
      | false =>
          simp only [Bool.false_eq_true, if_false]
          split <;> rfl

theorem readLines_cons (r : DeclarationRules) (inBlock : Bool) (line : Text)
    (ls : List Text) :
    r.readLines inBlock (line :: ls)
      = (r.readLine inBlock line).1.toList
        ++ r.readLines (r.readLine inBlock line).2 ls := rfl

/-- What is found on lines is told by their roles. -/
theorem readLines_eq (r : DeclarationRules) (inBlock : Bool) (ls : List Text) :
    r.readLines inBlock ls
      = (r.withRoles inBlock ls).filterMap fun l => r.readAs l.1 l.2 := by
  induction ls generalizing inBlock with
  | nil => rfl
  | cons line ls ih =>
      rw [readLines_cons, withRoles, List.filterMap_cons, ih, readLine_fst]
      dsimp only
      cases r.readAs line (r.role inBlock line) <;> rfl

theorem map_fst_withRoles (r : DeclarationRules) (inBlock : Bool) (ls : List Text) :
    (r.withRoles inBlock ls).map Prod.fst = ls := by
  induction ls generalizing inBlock with
  | nil => rfl
  | cons line ls ih => rw [withRoles, List.map_cons, ih]

/-- Without import blocks every line stands by itself. -/
theorem snd_of_mem_withRoles (hblock : r.importBlock = none) {l : Text × Role}
    (h : l ∈ r.withRoles inBlock ls) : l.2 = .single := by
  induction ls generalizing inBlock with
  | nil => cases h
  | cons line ls ih =>
      rcases List.mem_cons.1 h with rfl | h
      · simp only [role, hblock]
      · exact ih h

/-- Import blocks are a matter of one language. -/
theorem importBlock_of_ne_go (h : language ≠ .go) : (of language).importBlock = none := by
  cases language with
  | go => exact absurd rfl h
  | _ => rfl

-- ====================================================================== names

theorem isKeyword_iff : isKeyword name = true ↔ name ∈ keywords.map String.toList := by
  unfold isKeyword
  simp only [List.any_eq_true, beq_iff_eq, List.mem_map]

theorem isUsable_iff {kind : EntityKind} :
    isUsable kind name = true
      ↔ name ≠ [] ∧ (kind ≠ .imported → name ∉ keywords.map String.toList) := by
  rw [← isKeyword_iff, Bool.not_eq_true]
  unfold isUsable
  by_cases hkind : kind = .imported <;> simp [hkind]

/-- What a pattern finds on a line is what it captures there, cleaned. -/
theorem entityBy?_eq_some {kind : EntityKind} {p : Pattern} :
    entityBy? kind line p = some e
      ↔ ∃ raw, p.capture? 1 line = some raw ∧ isUsable kind (cleanName raw) = true
        ∧ e = ⟨cleanName raw, kind⟩ := by
  unfold entityBy?
  cases p.capture? 1 line with
  | none => simp
  | some raw =>
      dsimp only
      constructor
      · intro h
        split at h
        · exact ⟨raw, rfl, ‹_›, (Option.some.inj h).symm⟩
        · cases h
      · intro h
        obtain ⟨raw', hraw, husable, rfl⟩ := h
        obtain rfl := Option.some.inj hraw
        exact if_pos husable

/-- What a line declares by itself is captured by a pattern and has a usable
name. -/
theorem spec_of_declared? (h : r.declared? line = some e) :
    (∃ (p : Pattern) (raw : Text), p.capture? 1 line = some raw
        ∧ e.name = cleanName raw)
      ∧ isUsable e.kind e.name = true := by
  obtain ⟨family, -, hfamily⟩ := List.exists_of_findSome?_eq_some h
  obtain ⟨p, -, hp⟩ := List.exists_of_findSome?_eq_some hfamily
  obtain ⟨raw, hraw, husable, rfl⟩ := entityBy?_eq_some.1 hp
  exact ⟨⟨p, raw, hraw, rfl⟩, husable⟩

/-- A line declares an import by itself when a pattern for imports finds one,
for those are tried first. -/
theorem namesOf_declared? (r : DeclarationRules) (line : Text) :
    Entity.namesOf .imported (r.declared? line).toList
      = ((r.imports.findSome? (entityBy? .imported line)).map (·.name)).toList := by
  unfold declared? families
  rw [List.findSome?_cons]
  cases himports : r.imports.findSome? (entityBy? .imported line) with
  | some e =>
      obtain ⟨p, -, hp⟩ := List.exists_of_findSome?_eq_some himports
      obtain ⟨raw, -, -, rfl⟩ := entityBy?_eq_some.1 hp
      rfl
  | none =>
      dsimp only
      cases hother : List.findSome? _ _ with
      | none => rfl
      | some e =>
          obtain ⟨family, hmem, hfamily⟩ := List.exists_of_findSome?_eq_some hother
          obtain ⟨p, -, hp⟩ := List.exists_of_findSome?_eq_some hfamily
          obtain ⟨raw, -, -, rfl⟩ := entityBy?_eq_some.1 hp
          have hkind : family.1 ≠ .imported := by
            simp only [List.mem_cons, List.not_mem_nil, or_false] at hmem
            rcases hmem with rfl | rfl | rfl | rfl <;> exact nofun
          simp [Entity.namesOf, hkind]

end DeclarationRules

namespace Entity

open DeclarationRules

variable {language : Language} {content path : Text} {e : Entity}

theorem namesOf_append (kind : EntityKind) (es es' : List Entity) :
    namesOf kind (es ++ es') = namesOf kind es ++ namesOf kind es' := by
  unfold namesOf
  rw [List.filter_append, List.map_append]

/-- Names of one kind occur first where their entities do. -/
theorem namesOf_firstOccurrences (kind : EntityKind) (es : List Entity) :
    namesOf kind (firstOccurrences es) = firstOccurrences (namesOf kind es) := by
  unfold namesOf
  rw [filter_firstOccurrences, map_firstOccurrences]
  -- entities of one kind are told apart by their names
  intro e he e' he' hname
  simp only [List.mem_filter, beq_iff_eq] at he he'
  cases e
  cases e'
  dsimp only at hname he he'
  rw [hname, he.2, he'.2]

/-- The lines of a text with the roles they are read in. -/
def roles (language : Language) (content : Text) : List (Text × Role) :=
  (of language).withRoles false (Text.lines content)

/-- The lines that are read in a role. -/
def linesAs (language : Language) (content : Text) (role : Role) : List Text :=
  ((roles language content).filter (·.2 = role)).map Prod.fst

/-- The paths that stand in import blocks, as they are written. -/
def listedPaths (language : Language) (content : Text) : List Text :=
  (linesAs language content .entry).filterMap (of language).path?

theorem mem_linesAs {line : Text} {role : Role} :
    line ∈ linesAs language content role ↔ (line, role) ∈ roles language content := by
  simp [linesAs]

/-- What patterns find on a line is an import listed in a block, or what a line
declares by itself. -/
theorem mem_byPatterns_iff :
    e ∈ byPatterns language content
      ↔ (∃ line ∈ linesAs language content .single, (of language).declared? line = some e)
        ∨ ∃ path ∈ listedPaths language content, e = ⟨cleanName path, .imported⟩ := by
  unfold byPatterns listedPaths
  rw [mem_firstOccurrences, readLines_eq, List.mem_filterMap]
  simp only [List.mem_filterMap, mem_linesAs]
  constructor
  · intro h
    obtain ⟨⟨line, role⟩, hline, he⟩ := h
    cases role with
    | single => exact .inl ⟨line, hline, he⟩
    | entry =>
        obtain ⟨path, hpath, rfl⟩ := Option.map_eq_some_iff.1 he
        exact .inr ⟨path, ⟨line, hline, hpath⟩, rfl⟩
    | edge => cases he
  · intro h
    rcases h with ⟨line, hline, he⟩ | ⟨path, ⟨line, hline, hpath⟩, rfl⟩
    · exact ⟨(line, .single), hline, he⟩
    · exact ⟨(line, .entry), hline, Option.map_eq_some_iff.2 ⟨path, hpath, rfl⟩⟩

theorem linesAs_entry_of_ne_go (h : language ≠ .go) :
    linesAs language content .entry = [] := by
  refine List.eq_nil_iff_forall_not_mem.2 fun line hline => ?_
  have hrole := snd_of_mem_withRoles (importBlock_of_ne_go h) (mem_linesAs.1 hline)
  cases hrole

theorem listedPaths_of_ne_go (h : language ≠ .go) : listedPaths language content = [] := by
  rw [listedPaths, linesAs_entry_of_ne_go h, List.filterMap_nil]

/-- Whatever the text, no entity is found twice, and apart from imports each
has a name that is no keyword. All entities have names exactly when something
is left of each path in an import block, so in a language without such blocks
they always do. -/
theorem found_once_and_named_iff (language : Language) (content : Text) :
    let found := byPatterns language content
    (found.map fun e => (e.name, e.kind)).Nodup
      ∧ (∀ e ∈ found, e.kind ≠ .imported →
          e.name ≠ [] ∧ e.name ∉ keywords.map String.toList)
      ∧ ((∀ e ∈ found, e.name ≠ [])
          ↔ ∀ path ∈ listedPaths language content, cleanName path ≠ [])
      ∧ (language ≠ .go → ∀ e ∈ found, e.name ≠ []) := by
  intro found
  have hpairs : Function.Injective fun e : Entity => (e.name, e.kind) := by
    intro e e' h
    cases e
    cases e'
    simpa using h
  have hnamed : (∀ e ∈ found, e.name ≠ [])
      ↔ ∀ path ∈ listedPaths language content, cleanName path ≠ [] := by
    constructor
    · exact fun h path hpath => h _ (mem_byPatterns_iff.2 (.inr ⟨path, hpath, rfl⟩))
    · intro h e he
      rcases mem_byPatterns_iff.1 he with ⟨line, -, hline⟩ | ⟨path, hpath, rfl⟩
      · exact (isUsable_iff.1 (spec_of_declared? hline).2).1
      · exact h path hpath
  refine ⟨(nodup_firstOccurrences _).map hpairs, ?_, hnamed, fun hgo => ?_⟩
  · intro e he hkind
    rcases mem_byPatterns_iff.1 he with ⟨line, -, hline⟩ | ⟨path, -, rfl⟩
    · obtain ⟨hne, hkeyword⟩ := isUsable_iff.1 (spec_of_declared? hline).2
      exact ⟨hne, hkeyword hkind⟩
    · exact absurd rfl hkind
  · exact hnamed.2 (by simp [listedPaths_of_ne_go hgo])

/-- A colon in quotes gives no entity on a line of its own, and one without a
name in an import block. -/
theorem byPatterns_of_colon_path :
    byPatterns .go "import \":\"\n" = []
      ∧ byPatterns .go "import (\n\t\":\"\n)\n" = [⟨[], .imported⟩] := by
  decide +kernel

end Entity

end SourceDigest
