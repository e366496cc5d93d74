/-
Paths that are spelled differently and mean the same.

The parts of a path say whether it starts at the root (`isAbsolute_iff`)
and which names are followed from there, since the other pieces between
its slashes are blank (`filter_splitOn`). Written out with slashes, parts
can be read again (`ofParts_injective`), so paths that are alike when seen
from a root have the same parts (`parts_eq_of_relativeTo_eq`). They must
be below it or start at the root of all: a path that is neither is written
whole and may look like one from below.
-/
import Mathlib
import SourceDigest.Proofs.Path.Below

namespace SourceDigest

namespace Path

variable {root p q : Path} {n : Text} {a b : Part} {ps qs : List Part}

-- ===================================================================== pieces

/-- A piece between slashes that leads nowhere. -/
def IsBlank (piece : Text) : Prop := piece = [] ∨ piece = ['.']

instance (piece : Text) : Decidable (IsBlank piece) :=
  inferInstanceAs (Decidable (_ ∨ _))

/-- What is followed for a part, if it takes a step. -/
def Part.step? : Part → Option Text
  | .root | .here => none
  | .up => some ['.', '.']
  | .name n => some n

/-- Of the pieces between slashes those that are not blank lead on. -/
theorem Part.ofInner?_bind_step? (piece : Text) :
    (Part.ofInner? piece).bind Part.step?
      = if IsBlank piece then none else some piece := by
  unfold Part.ofInner?
  by_cases hblank : piece = [] ∨ piece = ['.']
  · rw [if_pos hblank, if_pos (show IsBlank piece from hblank)]
    rfl
  · rw [if_neg hblank, if_neg (show ¬IsBlank piece from hblank)]
    by_cases hup : piece = ['.', '.']
    · rw [if_pos hup, hup]
      rfl
    · rw [if_neg hup]
      rfl

/-- The pieces that are not blank are the steps of the parts. -/
theorem filter_splitOn (p : Path) :
    (Text.splitOn '/' p).filter (fun piece => ¬IsBlank piece)
      = (parts p).filterMap Part.step? := by
  have hinner : ∀ inner : List Text,
      (inner.filterMap Part.ofInner?).filterMap Part.step?
        = inner.filter fun piece => ¬IsBlank piece := by
    intro inner
    rw [List.filterMap_filterMap, ← List.filterMap_eq_filter]
    congr 1
    funext piece
    rw [Part.ofInner?_bind_step?]
    by_cases hblank : IsBlank piece
    · simp [hblank, Option.guard]
    · simp [hblank, Option.guard]
  unfold parts
  cases hsplit : Text.splitOn '/' p with
  | nil => exact absurd hsplit (Text.splitOn_ne_nil '/' p)
  | cons first inner =>
      dsimp only
      rw [← hinner (first :: inner), List.filterMap_cons]
      by_cases hfirst : first = []
      · rw [if_pos hfirst, hfirst]
        by_cases hnil : inner = []
        · rw [if_pos hnil]
          rfl
        · rw [if_neg hnil]
          rfl
      · rw [if_neg hfirst]
        by_cases hhere : first = ['.']
        · rw [if_pos hhere, hhere]
          rfl
        · rw [if_neg hhere]
          cases Part.ofInner? first <;> rfl

/-- The first piece of a text that does not begin with the separator. -/
theorem exists_splitOn_cons {c : Char} (hc : c ≠ '/') (p : Text) :
    ∃ first inner, Text.splitOn '/' (c :: p) = (c :: first) :: inner := by
  rw [Text.splitOn, if_neg hc]
  cases Text.splitOn '/' p with
  | nil => exact ⟨[], [], rfl⟩
  | cons piece more => exact ⟨piece, more, rfl⟩

/-- A path starts at the root when its first part is the root. -/
theorem isAbsolute_iff :
    isAbsolute p = true ↔ (parts p).head? = some .root := by
  cases p with
  | nil => exact iff_of_false (by decide) (by decide)
  | cons c p =>
      unfold isAbsolute parts
      rw [List.head?_cons]
      by_cases hc : c = '/'
      · refine iff_of_true (by simp [hc]) ?_
        rw [hc, Text.splitOn, if_pos rfl]
        dsimp only
        rw [if_pos rfl, if_neg (Text.splitOn_ne_nil '/' p)]
        rfl
      · refine iff_of_false (by simpa using hc) ?_
        obtain ⟨first, inner, hsplit⟩ := exists_splitOn_cons hc p
        rw [hsplit]
        dsimp only
        rw [if_neg (List.cons_ne_nil c first)]
        split
        · simp
        · rename_i hhere
          unfold Part.ofInner?
          rw [if_neg (by simpa using hhere)]
          split
          · simp
          · simp

-- ================================================================== spelling

/-- A part that can stand in a path. -/
def Part.IsProper : Part → Prop
  | .name n => IsName n
  | _ => True

theorem Part.isProper_of_ofInner? {piece : Text}
    (hslash : '/' ∉ piece) (h : Part.ofInner? piece = some a) : a.IsProper := by
  unfold Part.ofInner? at h
  split at h
  · cases h
  · rename_i hblank
    split at h
    · cases h
      trivial
    · rename_i hup
      cases h
      rw [not_or] at hblank
      exact ⟨hblank.1, hslash, hblank.2, hup⟩

theorem isProper_of_mem_parts (h : a ∈ parts p) : a.IsProper := by
  have hpiece : ∀ piece ∈ Text.splitOn '/' p,
      ∀ b, Part.ofInner? piece = some b → b.IsProper := fun piece hmem b =>
    Part.isProper_of_ofInner? (Text.notMem_of_mem_splitOn hmem)
  unfold parts at h
  cases hsplit : Text.splitOn '/' p with
  | nil => exact absurd hsplit (Text.splitOn_ne_nil '/' p)
  | cons first inner =>
      rw [hsplit] at h hpiece
      have hbelow : a ∈ inner.filterMap Part.ofInner? → a.IsProper := by
        intro hmem
        obtain ⟨piece, hpiece', hof⟩ := List.mem_filterMap.1 hmem
        exact hpiece piece (List.mem_cons_of_mem _ hpiece') a hof
      dsimp only at h
      split at h
      · split at h
        · exact hbelow h
        · rcases List.mem_cons.1 h with rfl | h
          · trivial
          · exact hbelow h
      · split at h
        · rcases List.mem_cons.1 h with rfl | h
          · trivial
          · exact hbelow h
        · rcases List.mem_append.1 h with h | h
          · exact hpiece first (List.mem_cons_self ..) a (Option.mem_toList.1 h)
          · exact hbelow h

/-- The pieces of a part that is written out. -/
def Part.pieces : Part → List Text
  | .root => [[], []]
  | .here => [['.']]
  | .up => [['.', '.']]
  | .name n => [n]

/-- Between slashes the text of a part has its pieces. -/
theorem Part.splitOn_text (ha : a.IsProper) :
    Text.splitOn '/' a.text = a.pieces := by
  cases a with
  | root => rfl
  | here => rfl
  | up => rfl
  | name n => exact Text.splitOn_of_notMem (IsName.notMem_slash ha)

/-- The part that begins with a piece. -/
def Part.ofPiece (piece : Text) : Part :=
  if piece = [] then .root
  else if piece = ['.'] then .here
  else if piece = ['.', '.'] then .up
  else .name piece

/-- The first of them tells the part. -/
theorem Part.exists_pieces_eq (ha : a.IsProper) :
    ∃ piece more, a.pieces = piece :: more ∧ Part.ofPiece piece = a := by
  cases a with
  | root => exact ⟨[], [[]], rfl, rfl⟩
  | here => exact ⟨['.'], [], rfl, rfl⟩
  | up => exact ⟨['.', '.'], [], rfl, rfl⟩
  | name n =>
      refine ⟨n, [], rfl, ?_⟩
      unfold Part.ofPiece
      rw [if_neg (IsName.ne_nil ha), if_neg (IsName.ne_here ha),
        if_neg (IsName.ne_up ha)]

/-- From the first piece the part is known, and so where the others begin. -/
theorem Part.pieces_append_inj {xs ys : List Text} (ha : a.IsProper)
    (hb : b.IsProper) (h : a.pieces ++ xs = b.pieces ++ ys) :
    a = b ∧ xs = ys := by
  obtain ⟨piece, more, hpieces, hof⟩ := Part.exists_pieces_eq ha
  obtain ⟨piece', more', hpieces', hof'⟩ := Part.exists_pieces_eq hb
  have hab : a = b := by
    rw [hpieces, hpieces'] at h
    rw [← hof, ← hof', (List.cons.inj h).1]
  subst hab
  exact ⟨rfl, List.append_cancel_left h⟩

/-- So a path put together from parts has their pieces between slashes. -/
theorem splitOn_ofParts (hps : ps ≠ []) (hproper : ∀ a ∈ ps, a.IsProper) :
    Text.splitOn '/' (ofParts ps) = ps.flatMap Part.pieces := by
  unfold ofParts
  induction ps with
  | nil => exact absurd rfl hps
  | cons a ps ih =>
      have ha := Part.splitOn_text (hproper a (List.mem_cons_self ..))
      by_cases hnil : ps = []
      · rw [hnil, List.map_singleton, Text.join_singleton, ha,
          List.flatMap_singleton]
      · rw [List.map_cons, Text.join_cons _ _ (by simpa using hnil),
          List.append_assoc, List.singleton_append, Text.splitOn_append, ha,
          ih hnil fun b hb => hproper b (List.mem_cons_of_mem _ hb),
          List.flatMap_cons]

/-- The pieces of some parts settle them. -/
theorem flatMap_pieces_injective (hps : ∀ a ∈ ps, a.IsProper)
    (hqs : ∀ a ∈ qs, a.IsProper)
    (h : ps.flatMap Part.pieces = qs.flatMap Part.pieces) : ps = qs := by
  have hne : ∀ {a : Part} {xs : List Text}, a.IsProper →
      a.pieces ++ xs ≠ [] := by
    intro a xs ha he
    obtain ⟨piece, more, hpieces, -⟩ := Part.exists_pieces_eq ha
    rw [hpieces] at he
    cases he
  induction ps generalizing qs with
  | nil =>
      cases qs with
      | nil => rfl
      | cons b qs =>
          rw [List.flatMap_cons] at h
          exact absurd h.symm (hne (hqs b (List.mem_cons_self ..)))
  | cons a ps ih =>
      rw [List.flatMap_cons] at h
      cases qs with
      | nil => exact absurd h (hne (hps a (List.mem_cons_self ..)))
      | cons b qs =>
          rw [List.flatMap_cons] at h
          obtain ⟨rfl, hrest⟩ := Part.pieces_append_inj
            (hps a (List.mem_cons_self ..)) (hqs b (List.mem_cons_self ..)) h
          rw [ih (fun a ha => hps a (List.mem_cons_of_mem _ ha))
            (fun a ha => hqs a (List.mem_cons_of_mem _ ha)) hrest]

/-- Only no parts at all are written as nothing. -/
theorem ofParts_ne_nil (hps : ps ≠ []) (hproper : ∀ a ∈ ps, a.IsProper) :
    ofParts ps ≠ [] := by
  intro he
  have hsplit := splitOn_ofParts hps hproper
  obtain ⟨a, ps, rfl⟩ := List.exists_cons_of_ne_nil hps
  rw [he, List.flatMap_cons] at hsplit
  cases a with
  | root => cases hsplit
  | here => cases hsplit
  | up => cases hsplit
  | name n =>
      exact IsName.ne_nil (hproper _ (List.mem_cons_self ..))
        (List.cons.inj hsplit).1.symm

/-- Parts that are written out alike are the same. -/
theorem ofParts_injective (hps : ∀ a ∈ ps, a.IsProper)
    (hqs : ∀ a ∈ qs, a.IsProper) (h : ofParts ps = ofParts qs) : ps = qs := by
  by_cases hp : ps = []
  · by_contra hq
    exact ofParts_ne_nil (fun he => hq (hp.trans he.symm)) hqs
      (by rw [← h, hp]; rfl)
  · have hq : qs ≠ [] := by
      intro hq
      exact ofParts_ne_nil hp hps (by rw [h, hq]; rfl)
    refine flatMap_pieces_injective hps hqs ?_
    rw [← splitOn_ofParts hp hps, ← splitOn_ofParts hq hqs, h]

-- ====================================================================== below

/-- A path that starts with the parts of a root. -/
def IsBelow (root p : Path) : Prop := ∃ rest, parts p = parts root ++ rest

/-- A path starts at the root or does not come to it at all. -/
theorem root_notMem_tail_parts (p : Path) : Part.root ∉ (parts p).tail := by
  have hinner : ∀ inner : List Text,
      Part.root ∉ inner.filterMap Part.ofInner? := by
    intro inner hmem
    obtain ⟨piece, -, hof⟩ := List.mem_filterMap.1 hmem
    unfold Part.ofInner? at hof
    split at hof
    · cases hof
    · split at hof
      · cases hof
      · cases hof
  unfold parts
  split
  · exact List.not_mem_nil
  · rename_i first inner _
    dsimp only
    split
    · split
      · exact fun hmem => hinner inner (List.mem_of_mem_tail hmem)
      · exact hinner inner
    · split
      · exact hinner inner
      · cases Part.ofInner? first with
        | none => exact fun hmem => hinner inner (List.mem_of_mem_tail hmem)
        | some a => exact hinner inner

/-- What is below a path that has parts does not start at the root. -/
theorem head?_ne_root_of_parts_eq_append (hroot : parts root ≠ [])
    (h : parts p = parts root ++ ps) : ps.head? ≠ some .root := by
  intro hhead
  obtain ⟨a, lead, hlead⟩ := List.exists_cons_of_ne_nil hroot
  refine root_notMem_tail_parts p ?_
  rw [h, hlead, List.cons_append, List.tail_cons]
  exact List.mem_append_right _ (List.mem_of_mem_head? hhead)

/-- What has parts below a front begins with it. -/
theorem eq_append_of_partsBelow? {lead : List Part}
    (h : partsBelow? lead ps = some qs) : ps = lead ++ qs := by
  induction lead generalizing ps with
  | nil => exact Option.some.inj h
  | cons a lead ih =>
      cases ps with
      | nil => cases h
      | cons b ps =>
          rw [partsBelow?] at h
          split at h
          · rename_i hab
            rw [hab, List.cons_append, ih h]
          · cases h

/-- A path is told from a root by the parts behind those of the root. -/
theorem relativeTo_of_parts_eq_append (h : parts p = parts root ++ ps) :
    relativeTo root p = ofParts ps := by
  unfold relativeTo
  rw [h, partsBelow?_append, Option.getD_some]

/-- A path that is not below a root is written whole. -/
theorem relativeTo_of_not_isBelow (h : ¬IsBelow root p) :
    relativeTo root p = ofParts (parts p) := by
  unfold relativeTo
  cases hps : partsBelow? (parts root) (parts p) with
  | none => rfl
  | some ps => exact absurd ⟨ps, eq_append_of_partsBelow? hps⟩ h

/-- A path below a root has the parts of every path that looks like it from
there. -/
private theorem parts_eq_of_isBelow (hp : IsBelow root p)
    (hq : IsBelow root q ∨ isAbsolute q = true)
    (h : relativeTo root p = relativeTo root q) : parts p = parts q := by
  obtain ⟨ps, hps⟩ := hp
  have hproper : ∀ a ∈ ps, a.IsProper := fun a ha =>
    isProper_of_mem_parts (p := p) (hps ▸ List.mem_append_right _ ha)
  rw [relativeTo_of_parts_eq_append hps] at h
  by_cases hbelow : IsBelow root q
  · obtain ⟨qs, hqs⟩ := hbelow
    rw [relativeTo_of_parts_eq_append hqs] at h
    have hrest := ofParts_injective hproper (fun a ha =>
      isProper_of_mem_parts (p := q) (hqs ▸ List.mem_append_right _ ha)) h
    rw [hps, hqs, hrest]
  · rw [relativeTo_of_not_isBelow hbelow] at h
    have hwhole := ofParts_injective hproper
      (fun a ha => isProper_of_mem_parts ha) h
    have hroot : parts root ≠ [] := fun hnil =>
      hbelow ⟨parts q, by rw [hnil, List.nil_append]⟩
    refine absurd ?_ (head?_ne_root_of_parts_eq_append hroot hps)
    rw [hwhole]
    exact isAbsolute_iff.1 (hq.resolve_left hbelow)

/-- Paths that are alike when seen from a root have the same parts, if they
are below it or start at the root of all. -/
theorem parts_eq_of_relativeTo_eq (hp : IsBelow root p ∨ isAbsolute p = true)
    (hq : IsBelow root q ∨ isAbsolute q = true)
    (h : relativeTo root p = relativeTo root q) : parts p = parts q := by
  by_cases hbelow : IsBelow root p
  · exact parts_eq_of_isBelow hbelow hq h
  · by_cases hbelow' : IsBelow root q
    · exact (parts_eq_of_isBelow hbelow' hp h.symm).symm
    · rw [relativeTo_of_not_isBelow hbelow, relativeTo_of_not_isBelow hbelow']
        at h
      exact ofParts_injective (fun a ha => isProper_of_mem_parts ha)
        (fun a ha => isProper_of_mem_parts ha) h

/-- The extension of a path is that of its last part. -/
theorem extension?_eq_of_parts_eq (h : parts p = parts q) :
    extension? p = extension? q := by
  unfold extension? fileName?
  rw [h]

end Path

end SourceDigest
