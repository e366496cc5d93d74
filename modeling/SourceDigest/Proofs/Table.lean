/-
Tables are settled by what stands under their keys.

Every operation keeps the keys strictly ascending (`Ordered.alter`), so a
key stands in one place, and changing the value under one key leaves the
other keys alone (`Ordered.get?_alter`). Two ordered tables with the same
values under the same keys are then the same table (`Ordered.ext`): in
which order the keys came in is not to be seen.

A table of nothing but keys is a finite set; putting a key in adds it once
(`Ordered.mem_keys_put`), and its keys settle it (`Ordered.ext_keys`).
-/
import Mathlib
import SourceDigest.Proofs.Path.Order
import SourceDigest.Table

namespace SourceDigest

namespace Table

variable {α : Type} {t t' : Table α} {key k : Text} {f : Option α → α}

-- =================================================================== look-up

theorem get?_nil (k : Text) : get? ([] : Table α) k = none := rfl

/-- A key is looked up entry by entry. -/
theorem get?_cons (e : Text × α) (t : Table α) (k : Text) :
    get? (e :: t) k = if e.1 = k then some e.2 else get? t k := by
  unfold get?
  rw [List.find?_cons]
  by_cases h : e.1 = k
  · rw [if_pos h, beq_iff_eq.2 h]
    rfl
  · rw [if_neg h, beq_false_of_ne h]

/-- A key is looked up as something when it is one of the keys. -/
theorem isSome_get?_iff : (t.get? k).isSome = true ↔ k ∈ t.keys := by
  unfold keys
  induction t with
  | nil => simp [get?_nil]
  | cons e t ih =>
      rw [get?_cons, List.map_cons, List.mem_cons]
      by_cases h : e.1 = k
      · rw [if_pos h]
        simp [h]
      · rw [if_neg h, ih]
        exact ⟨Or.inr, fun hk => hk.resolve_left fun he => h he.symm⟩

/-- What is not found has no key. -/
theorem get?_eq_none_iff : t.get? k = none ↔ k ∉ t.keys := by
  rw [← isSome_get?_iff, Bool.not_eq_true, Option.isSome_eq_false_iff,
    Option.isNone_iff_eq_none]

-- ===================================================================== order

/-- Keys stand in strictly ascending order. -/
def Ordered (t : Table α) : Prop := t.Pairwise fun a b => a.1 < b.1

theorem ordered_nil : Ordered ([] : Table α) := List.Pairwise.nil

/-- An entry of a changed table stands under the key that was changed or
was there before. -/
theorem mem_alter {e : Text × α} (h : e ∈ t.alter key f) :
    e.1 = key ∨ e ∈ t := by
  induction t with
  | nil =>
      rw [alter, List.mem_singleton] at h
      exact Or.inl (by rw [h])
  | cons a t ih =>
      rw [alter] at h
      split at h
      · rcases List.mem_cons.1 h with rfl | h
        · exact Or.inl rfl
        · exact Or.inr (List.mem_cons_of_mem _ h)
      · split at h
        · rcases List.mem_cons.1 h with rfl | h
          · exact Or.inl rfl
          · exact Or.inr h
        · rcases List.mem_cons.1 h with rfl | h
          · exact Or.inr (List.mem_cons_self ..)
          · exact (ih h).imp_right (List.mem_cons_of_mem _)

namespace Ordered

theorem tail {e : Text × α} (h : Ordered (e :: t)) : t.Ordered :=
  List.Pairwise.of_cons h

/-- The first key is the smallest. -/
theorem head_lt {e a : Text × α} (h : Ordered (e :: t)) (ha : a ∈ t) :
    e.1 < a.1 :=
  List.rel_of_pairwise_cons h ha

/-- Changing a value keeps the order of the keys. -/
theorem alter (h : t.Ordered) (key : Text) (f : Option α → α) :
    Ordered (t.alter key f) := by
  induction t with
  | nil => exact List.pairwise_singleton ..
  | cons e t ih =>
      rw [Table.alter]
      split
      · rename_i heq
        exact List.pairwise_cons.2
          ⟨fun a ha => heq ▸ h.head_lt ha, h.tail⟩
      · rename_i hne
        split
        · rename_i hle
          have hlt : key < e.1 :=
            lt_of_le_of_ne (Text.le_iff.1 hle) (Ne.symm hne)
          refine List.pairwise_cons.2 ⟨fun a ha => ?_, h⟩
          rcases List.mem_cons.1 ha with rfl | ha
          · exact hlt
          · exact hlt.trans (h.head_lt ha)
        · rename_i hle
          have hlt : e.1 < key := not_le.1 fun hk => hle (Text.le_iff.2 hk)
          refine List.pairwise_cons.2 ⟨fun a ha => ?_, ih h.tail⟩
          rcases mem_alter ha with hkey | ha
          · exact hkey ▸ hlt
          · exact h.head_lt ha

/-- Putting an entry in keeps the order. -/
theorem put (h : t.Ordered) (key : Text) (value : α) :
    Ordered (t.put key value) :=
  h.alter key _

/-- So does leaving entries out. -/
theorem filter (h : t.Ordered) (keep : Text × α → Bool) :
    Ordered (t.filter keep) :=
  List.Pairwise.filter keep h

/-- No key is there twice. -/
theorem nodup_keys (h : t.Ordered) : t.keys.Nodup :=
  List.pairwise_map.2 (h.imp fun hlt => ne_of_lt hlt)

theorem nodup (h : t.Ordered) : t.Nodup := h.nodup_keys.of_map _

/-- A key before all others is not there. -/
theorem get?_eq_none_of_lt {e : Text × α} (h : Ordered (e :: t))
    (hlt : key < e.1) : get? (e :: t) key = none := by
  rw [get?_eq_none_iff]
  unfold keys
  rw [List.map_cons, List.mem_cons, not_or]
  refine ⟨ne_of_lt hlt, fun hmem => ?_⟩
  obtain ⟨a, ha, rfl⟩ := List.mem_map.1 hmem
  exact lt_asymm hlt (h.head_lt ha)

/-- A change is seen under its own key only. -/
theorem get?_alter (h : t.Ordered) (key : Text) (f : Option α → α) (k : Text) :
    (t.alter key f).get? k
      = if k = key then some (f (t.get? key)) else t.get? k := by
  induction t with
  | nil =>
      rw [Table.alter, get?_cons, get?_nil, get?_nil]
      by_cases hk : k = key
      · rw [if_pos hk, if_pos hk.symm]
      · rw [if_neg hk, if_neg (Ne.symm hk)]
  | cons e t ih =>
      rw [Table.alter]
      split
      · rename_i heq
        rw [get?_cons, get?_cons, get?_cons, if_pos heq, heq]
        by_cases hk : k = key
        · rw [if_pos hk, if_pos hk.symm]
        · rw [if_neg hk, if_neg (Ne.symm hk), if_neg (Ne.symm hk)]
      · rename_i hne
        split
        · rename_i hle
          have hlt : key < e.1 :=
            lt_of_le_of_ne (Text.le_iff.1 hle) (Ne.symm hne)
          rw [get?_cons, h.get?_eq_none_of_lt hlt]
          by_cases hk : k = key
          · rw [if_pos hk, if_pos hk.symm]
          · rw [if_neg hk, if_neg (Ne.symm hk)]
        · rw [get?_cons, ih h.tail, get?_cons, get?_cons, if_neg hne]
          by_cases he : e.1 = k
          · rw [if_pos he, if_pos he, if_neg fun hk => hne (he.trans hk)]
          · rw [if_neg he, if_neg he]

/-- The keys of a changed table: those of before, and the changed one. -/
theorem mem_keys_alter (h : t.Ordered) :
    k ∈ (t.alter key f).keys ↔ k = key ∨ k ∈ t.keys := by
  rw [← isSome_get?_iff, ← isSome_get?_iff, h.get?_alter]
  by_cases hk : k = key
  · simp [hk]
  · simp [hk]

/-- The key of what is put in is there, with those that were. -/
theorem mem_keys_put (h : t.Ordered) (value : α) :
    k ∈ (t.put key value).keys ↔ k = key ∨ k ∈ t.keys :=
  h.mem_keys_alter

-- ============================================================ extensionality

/-- An entry is what its key is looked up as. -/
theorem get?_eq_some_iff (h : t.Ordered) {value : α} :
    t.get? k = some value ↔ (k, value) ∈ t := by
  induction t with
  | nil => simp [get?_nil]
  | cons e t ih =>
      rw [get?_cons, List.mem_cons]
      by_cases he : e.1 = k
      · rw [if_pos he, Option.some.injEq]
        constructor
        · intro hv
          exact Or.inl (Prod.ext he.symm hv.symm)
        · rintro (hv | hmem)
          · rw [← hv]
          · exact absurd he (ne_of_lt (h.head_lt hmem))
      · rw [if_neg he, ih h.tail]
        exact ⟨Or.inr, fun hmem =>
          hmem.resolve_left fun hv => he (congrArg Prod.fst hv).symm⟩

/-- Leaving entries out keeps the others under their keys. -/
theorem get?_filter (h : t.Ordered) (keep : Text × α → Bool) (k : Text) :
    Table.get? (t.filter keep) k
      = (t.get? k).filter fun value => keep (k, value) := by
  ext value
  rw [(h.filter keep).get?_eq_some_iff, List.mem_filter, ← h.get?_eq_some_iff,
    Option.filter_eq_some_iff]

/-- As many entries have been left out as there are keys that are not there
any more. -/
theorem length_sub_filter (h : t.Ordered) (keep : Text × α → Bool) :
    t.length - (t.filter keep).length
      = {k | (t.get? k).isSome = true
          ∧ Table.get? (t.filter keep) k = none}.ncard := by
  have hlost : {k | (t.get? k).isSome = true
      ∧ Table.get? (t.filter keep) k = none}
      = ((Table.keys (t.filter fun e => !keep e)).toFinset : Set Text) := by
    ext k
    rw [Set.mem_ofPred_eq, h.get?_filter, List.coe_toFinset, Set.mem_ofPred_eq,
      ← isSome_get?_iff, h.get?_filter]
    cases t.get? k with
    | none => simp
    | some value => cases hkeep : keep (k, value) <;> simp [hkeep]
  have hnodup := (h.filter fun e => !keep e).nodup_keys
  rw [hlost, Set.ncard_coe_finset, List.toFinset_card_of_nodup hnodup]
  unfold keys
  rw [List.length_map, List.length_eq_length_filter_add (l := t) keep,
    Nat.add_sub_cancel_left]

/-- Ordered tables with the same entries are the same. -/
theorem ext (h : t.Ordered) (h' : t'.Ordered)
    (hget : ∀ k, t.get? k = t'.get? k) : t = t' := by
  have hmem : ∀ e, e ∈ t ↔ e ∈ t' := by
    intro e
    rw [← h.get?_eq_some_iff, ← h'.get?_eq_some_iff, hget]
  exact List.Perm.eq_of_pairwise
    (fun a b _ _ hab hba => absurd hab (lt_asymm hba)) h h'
    ((List.perm_ext_iff_of_nodup h.nodup h'.nodup).2 hmem)

/-- Ordered tables of keys alone with the same keys are the same. -/
theorem ext_keys {s s' : Table Unit} (h : s.Ordered) (h' : s'.Ordered)
    (hkeys : ∀ k, k ∈ s.keys ↔ k ∈ s'.keys) : s = s' := by
  refine h.ext h' fun k => ?_
  have hk := hkeys k
  rw [← isSome_get?_iff, ← isSome_get?_iff] at hk
  cases hs : s.get? k with
  | none =>
      rw [hs] at hk
      cases hs' : s'.get? k with
      | none => rfl
      | some u =>
          rw [hs'] at hk
          simp at hk
  | some u =>
      rw [hs] at hk
      obtain ⟨u', hu'⟩ := Option.isSome_iff_exists.1 (hk.1 rfl)
      rw [hu']

end Ordered

end Table

end SourceDigest
