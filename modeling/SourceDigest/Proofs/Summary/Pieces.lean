/-
The pieces of a summary say something.

No signature, comment or excerpt is empty, so a section of them is empty
only when it has none (`join_eq_nil_iff`). Comments are put down only when
they say something. A signature ends with what stands for the body, or with
the semicolon that ends it; where it is a whole line, that line starts a
declaration, and the pattern for it ends with a letter. A list of entities
is empty as text only when there are none: in a row each stands with its
kind, and in groups every kind has its own line.
-/
import Mathlib
import SourceDigest.Summary.Document
import SourceDigest.Proofs.Pattern.Stretches
import SourceDigest.Proofs.Text.Blanks
import SourceDigest.Proofs.Text.Pieces

namespace SourceDigest

namespace Text

variable {c : Char} {t sep : Text} {pieces : List Text}

/-- Pieces that say something are joined into a text that does. -/
theorem join_eq_nil_iff (h : ∀ p ∈ pieces, p ≠ []) :
    join sep pieces = [] ↔ pieces = [] := by
  constructor
  · intro hjoin
    cases pieces with
    | nil => rfl
    | cons p pieces =>
        have hp := h p (by simp)
        by_cases hnil : pieces = []
        · subst hnil
          exact absurd hjoin hp
        · rw [join_cons sep p hnil] at hjoin
          simp [hp] at hjoin
  · rintro rfl
    rfl

/-- A last piece is part of what is joined. -/
theorem join_concat_ne_nil (ht : t ≠ []) : join sep (pieces ++ [t]) ≠ [] := by
  by_cases hnil : pieces = []
  · subst hnil
    exact ht
  · rw [join_append sep hnil (by simp), join_singleton]
    simp [ht]

end Text

-- =================================================================== entities

namespace Entity

variable {es : List Entity}

/-- A kind has no line if no entity is of that kind. -/
theorem kindLine?_eq_none_iff {kind : EntityKind} :
    kindLine? es kind = none ↔ ∀ e ∈ es, e.kind ≠ kind := by
  unfold kindLine? namesOf
  simp

theorem kindLine?_ne_some_nil (kind : EntityKind) : kindLine? es kind ≠ some [] := by
  unfold kindLine?
  split
  · exact Option.some_ne_none _ ∘ Eq.symm
  · intro h
    have hcolon : (": " : Text) ≠ [] := by decide
    have := Option.some.inj h
    simp only [List.append_eq_nil_iff] at this
    exact hcolon this.1.2

/-- A list of entities shows nothing only when there are none. -/
theorem format_eq_nil_iff (grouped : Bool) : format es grouped = [] ↔ es = [] := by
  unfold format
  split
  · rw [Text.join_eq_nil_iff, List.filterMap_eq_nil_iff]
    · constructor
      · intro h
        rw [List.eq_nil_iff_forall_not_mem]
        intro e he
        have hkind : e.kind ∈ EntityKind.listed ++ [EntityKind.other] := by
          cases e.kind <;> decide
        exact kindLine?_eq_none_iff.1 (h _ hkind) e he rfl
      · rintro rfl kind -
        exact kindLine?_eq_none_iff.2 (by simp)
    · intro line hline
      obtain ⟨kind, -, hkind⟩ := List.mem_filterMap.1 hline
      rintro rfl
      exact kindLine?_ne_some_nil kind hkind
  · rw [Text.join_eq_nil_iff, List.map_eq_nil_iff]
    intro line hline
    obtain ⟨e, -, rfl⟩ := List.mem_map.1 hline
    exact List.append_ne_nil_of_right_ne_nil _ (by decide)

end Entity

-- ================================================================= signatures

namespace Signature

variable {language : Language} {lines : List Text} {line signature : Text}
  {parts : List Text} {taken depth skip : Nat}

/-- No captured signature is empty, be it told by indentation or by braces. -/
theorem captureIndented_ne_nil
    (h : captureIndented parts taken depth lines = some (signature, skip)) :
    signature ≠ [] := by
  induction lines generalizing parts taken depth with
  | nil => cases h
  | cons line rest ih =>
      rw [captureIndented] at h
      split at h
      · obtain ⟨rfl, -⟩ := Prod.mk.inj (Option.some.inj h)
        exact List.append_ne_nil_of_right_ne_nil _ (by decide)
      · exact ih h

theorem captureBraced_ne_nil
    (h : captureBraced parts taken lines = some (signature, skip)) :
    signature ≠ [] := by
  induction lines generalizing parts taken with
  | nil => cases h
  | cons line rest ih =>
      rw [captureBraced] at h
      split at h
      · obtain ⟨rfl, -⟩ := Prod.mk.inj (Option.some.inj h)
        exact List.append_ne_nil_of_right_ne_nil _ (by decide)
      split at h
      · obtain ⟨rfl, -⟩ := Prod.mk.inj (Option.some.inj h)
        exact Text.join_concat_ne_nil
          (Text.trim_ne_nil (c := ';') (by simp) (by decide))
      · exact ih h

/-- A line that starts a declaration outside braces has more than blanks. -/
theorem trim_ne_nil_of_startsAt (h : startsAt language line = true)
    (hpython : language ≠ .python) (hbraces : language.usesBraces = false) :
    Text.trim line ≠ [] := by
  have hgeneral : generalStart.isIn line = true := by
    cases language <;> first | exact h | exact absurd rfl hpython | cases hbraces
  obtain ⟨c, hmem, hc⟩ := Pattern.exists_mem_of_isIn hgeneral
  exact Text.trim_ne_nil hmem (Text.isBlank_eq_false
    (fun c => c.isAlpha || c == '_') (by decide +kernel) c hc)

theorem ne_nil_of_capture (hstart : startsAt language line = true)
    (h : capture language (line :: lines) = some (signature, skip)) :
    signature ≠ [] := by
  unfold capture at h
  split at h
  · exact captureIndented_ne_nil h
  rename_i hpython
  split at h
  · exact captureBraced_ne_nil h
  · rename_i hbraces
    obtain ⟨rfl, -⟩ := Prod.mk.inj (Option.some.inj h)
    exact trim_ne_nil_of_startsAt hstart hpython (by simpa using hbraces)

/-- No signature that is collected is empty. -/
theorem ne_nil_of_mem_collect (h : signature ∈ collect language skip lines) :
    signature ≠ [] := by
  fun_induction collect language skip lines with
  | case1 => cases h
  | case2 skip line rest ih => exact ih h
  | case3 line rest hstart signature' taken hcapture ih =>
      rcases List.mem_cons.1 h with rfl | h
      · exact ne_nil_of_capture hstart hcapture
      · exact ih h
  | case4 line rest hstart hcapture ih => exact ih h
  | case5 line rest hstart ih => exact ih h

/-- No signature is empty. -/
theorem ne_nil_of_mem_all {content : Text} (h : signature ∈ all language content) :
    signature ≠ [] :=
  ne_nil_of_mem_collect h

end Signature

-- =================================================================== comments

namespace Comment

variable {marks : CommentSyntax} {comment : Text} {more lines : List Text}

/-- What is put in front says something. -/
theorem ne_nil_of_mem_cons {first : Text} (h : comment ∈ cons first more)
    (hmore : comment ∈ more → comment ≠ []) : comment ≠ [] := by
  unfold cons at h
  split at h
  · exact hmore h
  · rename_i hne
    rcases List.mem_cons.1 h with rfl | h
    · exact hne
    · exact hmore h

/-- No signature that is collected is empty. -/
theorem ne_nil_of_mem_collect {room : Nat} {group : List Text}
    {block : Option Block} (h : comment ∈ collect marks room group block lines) :
    comment ≠ [] := by
  fun_induction collect marks room group block lines with
  | case1 | case6 => cases h
  | case2 | case3 => exact ne_nil_of_mem_cons h fun h => by cases h
  | case4 _ _ _ _ _ _ _ ih => exact ne_nil_of_mem_cons h ih
  | case5 _ _ _ _ _ _ _ _ _ ih | case7 _ _ _ _ _ _ _ _ ih => exact ih h
  | case8 _ _ _ _ _ _ _ _ _ ihnone ihended ihopen =>
      refine ne_nil_of_mem_cons h fun h => ?_
      split at h
      · cases h
      split at h
      · exact ihnone h
      · dsimp only at h
        split at h
        · exact ne_nil_of_mem_cons h (ihended _)
        · exact ihopen _ h

/-- No comment is empty. -/
theorem ne_nil_of_mem_extract {language : Language} {content : Text} {max : Nat}
    (h : comment ∈ extract language content max) : comment ≠ [] :=
  ne_nil_of_mem_collect h

end Comment

-- =================================================================== snippets

/-- Snippets are some, and no excerpt is empty. -/
theorem Snippet.join_ne_nil {content : Text} {count length : Nat} {found : List Text}
    (h : Snippet.extract content count length = some found) (sep : Text) :
    Text.join sep found ≠ [] := by
  unfold extract at h
  split at h
  · cases h
  rename_i hcount
  dsimp only at h
  split at h
  · cases h
  obtain rfl := Option.some.inj h
  rw [Ne, Text.join_eq_nil_iff]
  · simpa using hcount
  · intro p hp
    obtain ⟨i, -, rfl⟩ := List.mem_map.1 hp
    unfold excerpt
    have hdashes : ("--- lines " : Text) ≠ [] := by decide
    intro hnil
    simp only [List.append_eq_nil_iff] at hnil
    exact hdashes hnil.1.1.1.1.1

end SourceDigest
