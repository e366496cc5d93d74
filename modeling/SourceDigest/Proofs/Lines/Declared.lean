/-
What is found in a text against what is counted in it.

Statistics count a code line for the kind of what it declares by itself
(`counts_collect`); a blank line declares nothing (`kindOfLine?_of_blank`), so
where no line is a comment every line is counted. The entities of a text come
from its lines as well, one from each at most, and all but imports are declared
by their lines themselves. So there are no more of them than are counted
(`countP_byPatterns_le`).

Imports may also be listed in blocks, whose lines declare nothing by themselves.
They are told apart by their names: each is imported on a line of its own or
only listed (`length_imports_byPatterns`). On the other side there are lines
that are counted and bring no further name. So the imports that are found are
as many as those that are counted, but for these two numbers.
-/
import Mathlib
import SourceDigest.Proofs.Entities.Declarations
import SourceDigest.Proofs.Lines.Stats
import SourceDigest.Proofs.Pattern.Stretches

namespace SourceDigest

namespace LineStats

open DeclarationRules
open Entity (byPatterns kindOfLine? linesAs listedPaths namesOf roles)

variable {language : Language} {content line : Text} {kinds : List EntityKind}
  {ls : List Text} {s : LineStats}

-- ================================================================== statistics

/-- How many of some lines declare by themselves something of certain kinds. -/
def declaring (language : Language) (kinds : List EntityKind) (ls : List Text) : Nat :=
  ls.countP fun line => (kindOfLine? language line).any (· ∈ kinds)

/-- Statistics that count what lines of code declare. -/
structure Counts (language : Language) (ls : List Text) (s : LineStats) : Prop where
  functions : s.functions = declaring language [.function] ls
  classes : s.classes = declaring language [.type, .enum] ls
  imports : s.imports = declaring language [.imported] ls

theorem declaring_concat (language : Language) (kinds : List EntityKind)
    (ls : List Text) (line : Text) :
    declaring language kinds (ls ++ [line])
      = declaring language kinds ls
        + if (kindOfLine? language line).any (· ∈ kinds) = true then 1 else 0 := by
  rw [declaring, List.countP_append, List.countP_singleton, declaring]

/-- A line of code is counted for what it declares, and no other line is. -/
theorem Counts.addLine (h : Counts language ls s) (line : Text) (c : LineClass) :
    Counts language (ls ++ if c = .code then [line] else [])
      (s.addLine language line c) := by
  obtain ⟨hfunctions, hclasses, himports⟩ := h
  cases c with
  | code =>
      unfold LineStats.addLine
      rw [if_pos rfl]
      rcases hkind : kindOfLine? language line with _ | kind
      · constructor <;>
          simp [declaring_concat, hkind, addDeclaration, hfunctions, hclasses, himports]
      · cases kind <;> constructor <;>
          simp [declaring_concat, hkind, addDeclaration, hfunctions, hclasses, himports]
  | comment | blank =>
      rw [if_neg (by decide), List.append_nil]
      exact ⟨hfunctions, hclasses, himports⟩

/-- Line by line. -/
theorem Counts.addLines (h : Counts language ls s) (more : List (Text × LineClass)) :
    Counts language (ls ++ (more.filter fun l => l.2 == .code).map Prod.fst)
      (more.foldl (fun s l => s.addLine language l.1 l.2) s) := by
  induction more generalizing ls s with
  | nil => simpa using h
  | cons l more ih =>
      have hmore := ih (h.addLine l.1 l.2)
      rw [List.append_assoc] at hmore
      rw [List.filter_cons]
      by_cases hcode : l.2 = .code
      · rw [if_pos hcode, List.singleton_append] at hmore
        rwa [if_pos (beq_iff_eq.2 hcode), List.map_cons]
      · rw [if_neg hcode, List.nil_append] at hmore
        rwa [if_neg (by simpa using hcode)]

theorem counts_collect (language : Language) (content : Text) :
    Counts language (codeLines language content) (collect language content) := by
  have hstart : Counts language [] {} := ⟨rfl, rfl, rfl⟩
  have h := hstart.addLines (classified language content)
  -- how deep braces nest is no count of lines
  exact ⟨h.functions, h.classes, h.imports⟩

-- ================================================================= blank lines

/-- Of blanks nothing is left as a name. -/
theorem kindOfLine?_of_blank (h : Text.trim line = []) :
    kindOfLine? language line = none := by
  have hblank : ∀ c ∈ line, Text.isBlank c = true := by
    intro c hc
    by_contra hne
    exact Text.trim_ne_nil hc (by simpa using hne) h
  refine Option.map_eq_none_iff.2 (Option.eq_none_iff_forall_ne_some.2 fun e he => ?_)
  obtain ⟨⟨p, raw, hraw, hname⟩, husable⟩ := spec_of_declared? he
  have htrim : Text.trim raw = [] :=
    Text.trim_eq_nil fun c hc => hblank c ((Pattern.isInfix_of_capture? hraw).subset hc)
  refine (isUsable_iff.1 husable).1 ?_
  rw [hname, cleanName, htrim]
  rfl

/-- Only a line of blanks is of the class of blank lines. -/
theorem trim_of_mem_classified (h : (line, LineClass.blank) ∈ classified language content) :
    Text.trim line = [] := by
  suffices hall : ∀ (ls : List Text) (inside : Option Text),
      (line, LineClass.blank) ∈ ls.zip (LineClass.ofLines language.comments inside ls) →
        Text.trim line = [] from hall _ _ h
  intro ls
  induction ls with
  | nil => exact fun _ hmem => absurd hmem (by simp)
  | cons l ls ih =>
      intro inside hmem
      rw [LineClass.ofLines, List.zip_cons_cons, List.mem_cons] at hmem
      rcases hmem with heq | hmem
      · obtain ⟨rfl, hclass⟩ := Prod.mk.inj heq
        unfold LineClass.of at hclass
        dsimp only at hclass
        split at hclass
        · cases hclass
        · split at hclass
          · rename_i hnil
            exact List.isEmpty_iff.1 hnil
          · split at hclass
            · cases hclass
            · split at hclass <;> cases hclass
      · exact ih _ hmem

/-- Where no line is a comment, every line that declares something is code. -/
theorem declaring_codeLines (h : (collect language content).comment = 0)
    (kinds : List EntityKind) :
    declaring language kinds (codeLines language content)
      = declaring language kinds (Text.lines content) := by
  have hlines : (classified language content).map Prod.fst = Text.lines content :=
    List.map_fst_zip (LineClass.length_ofLines ..).ge
  have hcomment : ∀ l ∈ classified language content, l.2 ≠ .comment := by
    rw [(sums_collect language content).comment, List.count_eq_zero] at h
    exact fun l hl hclass => h (List.mem_map.2 ⟨l, hl, hclass⟩)
  unfold declaring codeLines
  rw [← hlines, List.countP_map, List.countP_map, List.countP_filter]
  refine List.countP_congr fun ⟨line, c⟩ hl => ?_
  cases c with
  | code => simp
  | comment => exact absurd rfl (hcomment _ hl)
  | blank => simp [kindOfLine?_of_blank (trim_of_mem_classified hl)]

-- ==================================================================== entities

/-- Of all kinds but imports no more is found than lines declare. -/
theorem countP_byPatterns_le (hkinds : .imported ∉ kinds) :
    (byPatterns language content).countP (·.kind ∈ kinds)
      ≤ declaring language kinds (Text.lines content) := by
  calc (byPatterns language content).countP (·.kind ∈ kinds)
      ≤ ((of language).readLines false (Text.lines content)).countP (·.kind ∈ kinds) :=
        (firstOccurrences_sublist _).countP_le
    _ = (roles language content).countP
          fun l => (((of language).readAs l.1 l.2).map (decide <| ·.kind ∈ kinds)).getD false := by
        rw [readLines_eq, List.countP_filterMap]
        rfl
    _ ≤ (roles language content).countP
          fun l => (kindOfLine? language l.1).any (· ∈ kinds) := by
        refine List.countP_mono_left fun ⟨line, role⟩ _ hfound => ?_
        cases role with
        | single =>
            unfold kindOfLine?
            dsimp only [readAs] at hfound
            cases hdeclared : (of language).declared? line with
            | none => simp [hdeclared] at hfound
            | some e => simpa [hdeclared] using hfound
        | entry =>
            cases hpath : (of language).path? line <;>
              simp [readAs, hpath, hkinds] at hfound
        | edge => simp [readAs] at hfound
    _ = declaring language kinds (Text.lines content) := by
        unfold declaring
        rw [← map_fst_withRoles (of language) false (Text.lines content),
          List.countP_map]
        rfl

-- ===================================================================== imports

/-- The names that lines outside of import blocks import, line by line. -/
def ownImports (language : Language) (content : Text) : List Text :=
  namesOf .imported ((linesAs language content .single).filterMap (of language).declared?)

/-- The names that are listed in import blocks and imported nowhere else. -/
def onlyListed (language : Language) (content : Text) : List Text :=
  (firstOccurrences ((listedPaths language content).map cleanName)).filter
    fun name => !(ownImports language content).contains name

/-- The lines of import blocks, those that open and close them included. -/
def blockLines (language : Language) (content : Text) : List Text :=
  ((roles language content).filter (·.2 ≠ .single)).map Prod.fst

/-- How many lines are counted as imports that bring no name of their own:
those that repeat one, and those in blocks. -/
def spareImports (language : Language) (content : Text) : Nat :=
  (ownImports language content).length
      - (firstOccurrences (ownImports language content)).length
    + declaring language [.imported] (blockLines language content)

/-- Each import is imported on a line of its own or only listed. -/
theorem length_imports_byPatterns (language : Language) (content : Text) :
    (namesOf .imported (byPatterns language content)).length
      = (firstOccurrences (ownImports language content)).length
        + (onlyListed language content).length := by
  have hnodup : (namesOf .imported (byPatterns language content)).Nodup := by
    unfold byPatterns
    rw [Entity.namesOf_firstOccurrences]
    exact nodup_firstOccurrences _
  have hmem : ∀ name, name ∈ namesOf .imported (byPatterns language content)
      ↔ name ∈ ownImports language content
        ++ (listedPaths language content).map cleanName := by
    intro name
    unfold ownImports namesOf
    simp only [List.mem_append, List.mem_map, List.mem_filter, List.mem_filterMap,
      Entity.mem_byPatterns_iff, beq_iff_eq]
    constructor
    · intro h
      obtain ⟨e, ⟨⟨line, hline, he⟩ | ⟨path, hpath, rfl⟩, hkind⟩, rfl⟩ := h
      · exact .inl ⟨e, ⟨⟨line, hline, he⟩, hkind⟩, rfl⟩
      · exact .inr ⟨path, hpath, rfl⟩
    · intro h
      rcases h with ⟨e, ⟨⟨line, hline, he⟩, hkind⟩, rfl⟩ | ⟨path, hpath, rfl⟩
      · exact ⟨e, ⟨.inl ⟨line, hline, he⟩, hkind⟩, rfl⟩
      · exact ⟨_, ⟨.inr ⟨path, hpath, rfl⟩, rfl⟩, rfl⟩
  rw [← firstOccurrences_of_nodup hnodup, length_firstOccurrences_congr hmem,
    firstOccurrences_append, List.length_append]
  exact congrArg (_ + List.length ·) (List.filter_congr fun name _ => by simp)

/-- Lines that declare an import stand by themselves or in a block. -/
theorem declaring_imported (language : Language) (content : Text) :
    declaring language [.imported] (Text.lines content)
      = (ownImports language content).length
        + declaring language [.imported] (blockLines language content) := by
  have hown : declaring language [.imported] (linesAs language content .single)
      = (ownImports language content).length := by
    unfold declaring ownImports namesOf kindOfLine?
    rw [List.length_map, ← List.countP_eq_length_filter, List.countP_filterMap]
    refine List.countP_congr fun line _ => ?_
    cases (of language).declared? line <;> simp
  rw [← hown]
  unfold declaring linesAs blockLines
  rw [← map_fst_withRoles (of language) false (Text.lines content), List.countP_map,
    List.countP_map, List.countP_map, List.countP_filter, List.countP_filter]
  show (roles language content).countP _ = _
  rw [List.countP_eq_countP_filter_add _ _ fun l => decide (l.2 = .single),
    List.countP_filter, List.countP_filter]
  simp

/-- A text none of whose lines is a comment, in any language. The types, enums
and functions that are found in it are no more than are counted. So are the
imports in a language without import blocks, and in any language exactly when
the names that only blocks list are no more than the lines that are counted and
bring no further name. -/
theorem found_are_counted_iff (h : (collect language content).comment = 0) :
    let found := byPatterns language content
    let s := collect language content
    found.countP (·.kind ∈ [.type, .enum]) ≤ s.classes
      ∧ found.countP (·.kind ∈ [.function]) ≤ s.functions
      ∧ (language ≠ .go → found.countP (·.kind ∈ [.imported]) ≤ s.imports)
      ∧ (found.countP (·.kind ∈ [.imported]) ≤ s.imports
          ↔ (onlyListed language content).length ≤ spareImports language content) := by
  intro found s
  have hcounts := counts_collect language content
  have hfound : found.countP (·.kind ∈ [.imported])
      = (firstOccurrences (ownImports language content)).length
        + (onlyListed language content).length := by
    rw [← length_imports_byPatterns, namesOf, List.length_map,
      ← List.countP_eq_length_filter]
    exact List.countP_congr fun e _ => by simp
  have himports : s.imports = (ownImports language content).length
      + declaring language [.imported] (blockLines language content) := by
    rw [hcounts.imports, declaring_codeLines h, declaring_imported]
  have hown := (firstOccurrences_sublist (ownImports language content)).length_le
  have hiff : found.countP (·.kind ∈ [.imported]) ≤ s.imports
      ↔ (onlyListed language content).length ≤ spareImports language content := by
    rw [hfound, himports, spareImports]
    omega
  refine ⟨?_, ?_, fun hgo => hiff.2 ?_, hiff⟩
  · rw [hcounts.classes, declaring_codeLines h]
    exact countP_byPatterns_le (by decide)
  · rw [hcounts.functions, declaring_codeLines h]
    exact countP_byPatterns_le (by decide)
  · rw [onlyListed, Entity.listedPaths_of_ne_go hgo]
    apply Nat.zero_le

/-- One name is only listed, on a line that is counted all the same, since it
would import the name by itself. -/
theorem found_are_counted_of_nested_import :
    let content : Text := "import \"fmt\"\nimport (\n\t\"fmt\"\nimport \"io\"\n"
    (collect .go content).comment = 0
      ∧ (onlyListed .go content).length ≤ spareImports .go content
      ∧ (byPatterns .go content).countP (·.kind ∈ [.imported])
        ≤ (collect .go content).imports := by
  intro content
  have hcomment : (collect .go content).comment = 0 := by decide +kernel
  have hspare : (onlyListed .go content).length ≤ spareImports .go content := by
    decide +kernel
  exact ⟨hcomment, hspare, (found_are_counted_iff hcomment).2.2.2.2 hspare⟩

/-- What a block lists is found and not counted. -/
theorem imports_of_listed_path :
    let content : Text :=
      "package main\n\nimport (\n\t\"fmt\"\n)\n\nfunc main() \x7b\n\x7d\n"
    (collect .go content).comment = 0
      ∧ (byPatterns .go content).countP (·.kind ∈ [.imported]) = 1
      ∧ (collect .go content).imports = 0 := by
  decide +kernel

end LineStats

end SourceDigest
