/-
What the cap on comments does.

The collector counts down how many more comments there is room for. It asks at
three places whether there is room: in front of each line, behind the line
comments that a line ends, and at the end of the text. A block that is begun is
read to its end without asking, so there must have been room when it was begun;
that is what the induction carries.

A comment that says nothing takes no room, so putting a comment in front of
others and taking the first few comments can be exchanged once the room is
counted in the same way (`take_cons`). With that each step of a collector with
less room is the step of one with more, cut off, and so is the whole run
(`collect_eq_take`).
-/
import Mathlib
import SourceDigest.Summary.Comments

namespace SourceDigest

namespace Comment

variable {marks : CommentSyntax} {group : List Text} {block : Option Block}
  {lines more : List Text} {comment : Text} {room most : Nat}

-- ======================================================================= room

theorem roomAfter_le_roomAfter (h : room ≤ most) (comment : Text) :
    roomAfter room comment ≤ roomAfter most comment := by
  unfold roomAfter
  split
  · exact h
  · exact Nat.sub_le_sub_right h 1

/-- Of a comment and those behind it the first few are the comment, if there is
room for it and it says something, and fewer of those behind it. -/
theorem take_cons (hroom : room ≠ 0) (comment : Text) (more : List Text) :
    (cons comment more).take room = cons comment (more.take (roomAfter room comment)) := by
  unfold cons roomAfter
  split
  · rfl
  · obtain ⟨n, rfl⟩ := Nat.exists_eq_succ_of_ne_zero hroom
    rfl

/-- Where a comment is put in front, comments with less room are cut off from
those with more if those behind it are. -/
theorem cons_eq_take (hroom : room ≠ 0) {behind : List Text}
    (h : behind = more.take (roomAfter room comment)) :
    cons comment behind = (cons comment more).take room := by
  rw [take_cons hroom, h]

-- ================================================================== collecting

/-- With less room the comments collected from some point on are the first of
those collected with more. Within a block there is room for the comment that it
will be. -/
theorem collect_eq_take (hblock : block ≠ none → room ≠ 0) :
    ∀ most, room ≤ most → collect marks room group block lines
      = (collect marks most group block lines).take room := by
  fun_induction collect marks room group block lines with
  | case1 =>
      intro most _
      rw [List.take_zero]
  | case2 room group hroom =>
      intro most h
      have hmost : most ≠ 0 := by omega
      rw [collect, if_neg hmost]
      exact cons_eq_take hroom List.take_nil.symm
  | case3 room group b =>
      intro most _
      rw [collect]
      exact cons_eq_take (hblock (Option.some_ne_none b)) List.take_nil.symm
  | case4 room group b line rest b' hadd ih =>
      intro most h
      rw [collect, hadd]
      exact cons_eq_take (hblock (Option.some_ne_none b))
        (ih (absurd rfl) _ (roomAfter_le_roomAfter h b'.text))
  | case5 room group b line rest b' ended hadd hended ih =>
      intro most h
      rw [collect, hadd]
      dsimp only
      rw [if_neg hended]
      exact ih (fun _ => hblock (Option.some_ne_none b)) most h
  | case6 =>
      intro most _
      rw [List.take_zero]
  | case7 room group line rest trimmed hroom body hbody ih =>
      intro most h
      have hmost : most ≠ 0 := by omega
      rw [collect, if_neg hmost, hbody]
      exact ih (absurd rfl) most h
  | case8 room group line rest trimmed hroom hbody comment room' ihnone ihended
      ihopen =>
      intro most h
      have hmost : most ≠ 0 := by omega
      have hmore : room' ≤ roomAfter most comment := roomAfter_le_roomAfter h comment
      rw [collect, if_neg hmost, hbody]
      refine cons_eq_take hroom ?_
      show (if room' = 0 then _ else _) = List.take room' _
      by_cases hroom' : room' = 0
      · rw [if_pos hroom', hroom', List.take_zero]
      have hmost' : roomAfter most comment ≠ 0 := Nat.ne_of_gt
        (lt_of_lt_of_le (Nat.pos_of_ne_zero hroom') hmore)
      rw [if_neg hroom', if_neg hmost']
      cases Block.opened? marks (Text.trim line) with
      | none => exact ihnone (absurd rfl) _ hmore
      | some opened =>
          dsimp only
          split
          · exact cons_eq_take hroom'
              (ihended _ (absurd rfl) _ (roomAfter_le_roomAfter hmore _))
          · exact ihopen _ (fun _ => hroom') _ hmore

/-- A smaller cap gives the first of the comments that a larger one gives, as
they are, and no more of them than it allows. -/
theorem smaller_cap_gives_first (language : Language) (content : Text) {m n : Nat}
    (h : m ≤ n) :
    extract language content m = (extract language content n).take m
      ∧ (extract language content m).length ≤ m := by
  have htake : extract language content m = (extract language content n).take m :=
    collect_eq_take (absurd rfl) n h
  refine ⟨htake, ?_⟩
  rw [htake]
  exact List.length_take_le m _

/-- The cap is met by line comments that a block comment ends. -/
theorem smaller_cap_gives_first_before_block :
    let content : Text := "// a\n// b\n/* c\n */\n// d\n"
    1 ≤ 3 ∧ extract .rust content 3 = ["a\nb".toList, "c".toList, "d".toList]
      ∧ extract .rust content 1 = ["a\nb".toList] := by
  intro content
  have hthree : extract .rust content 3 = ["a\nb".toList, "c".toList, "d".toList] := by
    decide +kernel
  refine ⟨by decide, hthree, ?_⟩
  rw [(smaller_cap_gives_first .rust content (by decide : 1 ≤ 3)).1, hthree]
  rfl

end Comment

end SourceDigest
