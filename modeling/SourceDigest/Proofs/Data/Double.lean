/-
The order of numbers by their bits.

It tells every two apart (`rank_injective`). Among numbers it keeps to their
values, and tells only the two zeros apart on top (`rank_lt_rank_iff`). What
is no number stands outside, by its sign: below all numbers with a minus,
above them without (`rank_lt_rank_of_isNegative`,
`rank_lt_rank_of_not_isNegative`).

For the values a number is read from its sign and its size (`standsFor`),
both by its own bits and by those that a `Float` keeps of it
(`unpack_toFloat`). That a smaller size means a smaller value is then seen
from the digits and the place of the last (`digits_lt`).
-/
import Mathlib
import SourceDigest.Data.Double

namespace SourceDigest.Double

open Float.Model Float.Model.UnpackedFloat

variable {x y : Double}

-- ============================================================== size and sign

/-- The bits are the size and, with a minus, the weight of the sign. -/
theorem toNat_bits (x : Double) :
    x.bits.toNat = x.size + if x.isNegative then signWeight else 0 := by
  have hlt := x.bits.toNat_lt
  unfold size isNegative signWeight
  simp only [UInt64.size, decide_eq_true_eq] at *
  split <;> omega

/-- The rank by sign and size: with a minus, large sizes are low. -/
theorem rank_eq (x : Double) :
    x.rank = if x.isNegative then -1 - (x.size : Int) else x.size := by
  have hbits := toNat_bits x
  unfold rank
  split
  · next hneg =>
    rw [if_pos hneg] at hbits
    omega
  · next hneg =>
    rw [if_neg hneg] at hbits
    omega

/-- Numbers of one size and one sign are the same. -/
theorem eq_of_size_of_isNegative (hsize : x.size = y.size)
    (hneg : x.isNegative = y.isNegative) : x = y := by
  have hbits : x.bits.toNat = y.bits.toNat := by
    rw [toNat_bits, toNat_bits, hsize, hneg]
  cases x
  cases y
  exact congrArg Double.mk (UInt64.toNat_inj.1 hbits)

/-- Numbers of one rank are the same. -/
theorem rank_injective : Function.Injective rank := by
  intro x y h
  rw [rank_eq, rank_eq] at h
  have hneg : x.isNegative = y.isNegative := by
    cases hx : x.isNegative <;> cases hy : y.isNegative <;>
      simp only [hx, hy, if_true, Bool.false_eq_true, if_false] at h ⊢ <;> omega
  refine eq_of_size_of_isNegative ?_ hneg
  rw [hneg] at h
  split at h <;> omega

-- ======================================================= what bits stand for

/-- The sign of a number. -/
def sign (x : Double) : Sign := if x.isNegative then .negative else .positive

/-- The digits of a number with a size. -/
def significand (n : Nat) : Nat :=
  if n < 2 ^ 52 then n else 2 ^ 52 + n % 2 ^ 52

/-- The place of the last digit of a number with a size. -/
def exponent (n : Nat) : Int := max (n / 2 ^ 52 : Nat) 1 - 1075

theorem significand_pos {n : Nat} (h : 0 < n) : 0 < significand n := by
  unfold significand
  split <;> omega

/-- What a sign and a size stand for. -/
def standsFor (s : Sign) (n : Nat) : UnpackedFloat :=
  if infinityBits < n then .notANumber
  else if n = infinityBits then .infinity s
  else if h : 0 < n then
    .finite s (significand n) (exponent n) (significand_pos h)
  else .zero s

variable {s t : Sign} {m n : Nat}

/-- A number is told from its sign and its size, taken apart into exponent and
mantissa. -/
theorem unpack_eq_standsFor {b : BitVec Format.binary64.numBits}
    (hsign : unpackSign b = s.toBitVec)
    (hexponent : (unpackExponent b).toNat = n / 2 ^ 52)
    (hmantissa : (unpackMantissa b).toNat = n % 2 ^ 52) :
    UnpackedFloat.unpack .binary64 b = standsFor s n := by
  have hs : Sign.ofBitVec (unpackSign b) = s := by
    rw [hsign]
    cases s <;> rfl
  have hinf : unpackExponent b = -1#_ ↔ n / 2 ^ 52 = 2047 := by
    rw [← BitVec.toNat_inj, hexponent]
    rfl
  have hlow : unpackExponent b = 0#_ ↔ n / 2 ^ 52 = 0 := by
    rw [← BitVec.toNat_inj, hexponent]
    rfl
  have hnone : unpackMantissa b = 0#_ ↔ n % 2 ^ 52 = 0 := by
    rw [← BitVec.toNat_inj, hmantissa]
    rfl
  have hfull : (1#1 ++ unpackMantissa b).toNat = 2 ^ 52 + n % 2 ^ 52 := by
    rw [BitVec.toNat_append, hmantissa,
      ← Nat.shiftLeft_add_eq_or_of_lt (by omega)]
    rfl
  have hlt : n / 2 ^ 52 < 2048 := hexponent ▸ (unpackExponent b).isLt
  unfold UnpackedFloat.unpack
  simp only [hs, hinf, hlow, hnone, hexponent, hmantissa]
  -- the highest exponent has infinity and what is no number, the lowest has
  -- zero and digits without the implied one
  by_cases h : n / 2 ^ 52 = 2047
  · rw [if_pos h]
    unfold standsFor infinityBits
    by_cases hm : n % 2 ^ 52 = 0
    · rw [if_pos hm, if_neg (by omega), if_pos (by omega)]
    · rw [if_neg hm, if_pos (by omega)]
  · have hn : n < infinityBits := by
      unfold infinityBits
      omega
    rw [if_neg h, standsFor, if_neg hn.not_gt, if_neg hn.ne]
    by_cases hz : n / 2 ^ 52 = 0
    · rw [if_pos hz]
      by_cases hm : n % 2 ^ 52 = 0
      · rw [dif_pos hm, dif_neg (by omega)]
      · rw [dif_neg hm, dif_pos (by omega)]
        congr 1
        · rw [significand, if_pos (by omega)]
          omega
        · rw [exponent, hz]
          rfl
    · rw [if_neg hz, dif_pos (by omega)]
      congr 1
      · rw [significand, if_neg (by omega), hfull]
      · rw [exponent, max_eq_left (by omega)]
        rfl

/-- What a number stands for by its own bits. -/
theorem unpack_bits (x : Double) :
    UnpackedFloat.unpack .binary64 x.bits.toBitVec
      = standsFor x.sign x.size := by
  have hlt := x.bits.toNat_lt
  refine unpack_eq_standsFor ?_ ?_ ?_
  · rw [← BitVec.toNat_inj]
    unfold unpackSign sign isNegative signWeight
    simp only [BitVec.toNat_cast, BitVec.extractLsb_toNat,
      UInt64.toNat_toBitVec, UInt64.size, Nat.shiftRight_eq_div_pow,
      decide_eq_true_eq]
    have hone : (Sign.negative.toBitVec).toNat = 1 := rfl
    have hzero : (Sign.positive.toBitVec).toNat = 0 := rfl
    split <;> omega
  · unfold unpackExponent size signWeight
    simp only [BitVec.toNat_cast, BitVec.extractLsb_toNat,
      UInt64.toNat_toBitVec, UInt64.size, Nat.shiftRight_eq_div_pow]
    omega
  · unfold unpackMantissa size signWeight
    simp only [BitVec.toNat_cast, BitVec.extractLsb_toNat,
      UInt64.toNat_toBitVec, UInt64.size, Nat.shiftRight_eq_div_pow]
    omega

-- ==================================================== what a `Float` keeps

/-- The sign stands in front of what it is put together with. -/
theorem unpackSign_packComponents {spec : Format}
    (e : BitVec spec.exponentBits)
    (f : BitVec spec.mantissaBitsWithoutImplicit) :
    unpackSign (packComponents spec s e f) = s.toBitVec := by
  ext i hi
  obtain rfl : i = 0 := by omega
  simp [unpackSign, packComponents, BitVec.getLsbD_append,
    BitVec.getElem_append]

/-- A finite number is packed into the bits of its size. -/
theorem pack_finite (h : 0 < n) (hn : n < infinityBits) :
    UnpackedFloat.pack .binary64
        (.finite s (significand n) (exponent n) (significand_pos h))
      = packComponents .binary64 s (BitVec.ofNat _ (n / 2 ^ 52))
          (BitVec.ofNat _ n) := by
  have hplace : (exponent n + Format.exponentBias .binary64
      + (52 : Nat)).toNat = max (n / 2 ^ 52) 1 := by
    simp only [exponent, Format.exponentBias]
    omega
  -- all digits are there from the first normal number on
  have hdigits : (significand n).log2 + 1 = Format.mantissaBits .binary64
      ↔ 2 ^ 52 ≤ n := by
    have hpos := significand_pos h
    have hlt : significand n < 2 ^ 53 := by
      unfold significand
      split <;> omega
    have hfull : 2 ^ 52 ≤ significand n ↔ 2 ^ 52 ≤ n := by
      unfold significand
      split <;> omega
    have hlog := (Nat.log2_lt hpos.ne').2 hlt
    rw [← hfull, ← Nat.le_log2 hpos.ne']
    simp only [Format.mantissaBits]
    omega
  unfold infinityBits at hn
  unfold UnpackedFloat.pack
  rw [hplace]
  dsimp only
  rw [if_neg (by omega)]
  by_cases hnormal : 2 ^ 52 ≤ n
  · rw [if_pos (hdigits.2 hnormal), max_eq_left (by omega)]
    congr 1
    rw [significand, if_neg (by omega), ← BitVec.toNat_inj,
      BitVec.toNat_ofNat, BitVec.toNat_ofNat]
    omega
  · rw [if_neg (mt hdigits.1 hnormal), significand, if_pos (by omega),
      Nat.div_eq_of_lt (by omega)]

/-- A number is given back by its bits. -/
theorem unpack_pack_standsFor (s : Sign) (n : Nat) :
    UnpackedFloat.unpack .binary64 (UnpackedFloat.pack .binary64
      (standsFor s n)) = standsFor s n := by
  by_cases hfinite : 0 < n ∧ n < infinityBits
  · obtain ⟨hpos, hn⟩ := hfinite
    have hstands : standsFor s n
        = .finite s (significand n) (exponent n) (significand_pos hpos) := by
      rw [standsFor, if_neg hn.not_gt, if_neg hn.ne, dif_pos hpos]
    rw [hstands, pack_finite hpos hn, ← hstands]
    refine unpack_eq_standsFor (unpackSign_packComponents ..) ?_ ?_
    · rw [unpackExponent_packComponents]
      unfold infinityBits at hn
      exact Nat.mod_eq_of_lt (show n / 2 ^ 52 < 2 ^ 11 by omega)
    · rw [unpackMantissa_packComponents]
      rfl
  · unfold standsFor
    split_ifs with hnan hinf hpos
    · rfl
    · cases s <;> rfl
    · exact absurd ⟨hpos, by omega⟩ hfinite
    · cases s <;> rfl

/-- What a number stands for as a `Float`. -/
theorem unpack_toFloat (x : Double) :
    x.toFloat.toModel.unpack = standsFor x.sign x.size := by
  change UnpackedFloat.unpack .binary64 (UnpackedFloat.pack .binary64
    (UnpackedFloat.unpack .binary64 x.bits.toBitVec)) = _
  rw [unpack_bits, unpack_pack_standsFor]

-- ====================================================================== order

/-- Of two sizes, the smaller has its last digit further behind, or in the
same place and smaller digits. -/
theorem digits_lt (h : m < n) : exponent m < exponent n
    ∨ exponent m = exponent n ∧ significand m < significand n := by
  unfold exponent significand
  split <;> split <;> omega

/-- By places and digits, numbers compare as their sizes do. -/
theorem compare_digits (m n : Nat) :
    (compare (exponent m) (exponent n)).then
        (compare (significand m) (significand n)) = compare m n := by
  rcases lt_trichotomy m n with h | rfl | h
  · rw [compare_lt_iff_lt.2 h]
    rcases digits_lt h with he | ⟨he, hs⟩
    · rw [compare_lt_iff_lt.2 he]
      rfl
    · rw [compare_eq_iff_eq.2 he, compare_lt_iff_lt.2 hs]
      rfl
  · simp
  · rw [compare_gt_iff_gt.2 h]
    rcases digits_lt h with he | ⟨he, hs⟩
    · rw [compare_gt_iff_gt.2 he]
      rfl
    · rw [compare_eq_iff_eq.2 he.symm, compare_gt_iff_gt.2 hs]
      rfl

/-- Numbers are ordered by their sizes with their signs. -/
theorem compare_standsFor (hm : m ≤ infinityBits) (hn : n ≤ infinityBits) :
    (standsFor s m).compare (standsFor t n) = some .lt
      ↔ s.apply m < t.apply n := by
  have hpos : 0 < infinityBits := by decide
  have hsigns : compare Sign.negative Sign.positive = .lt := rfl
  rw [standsFor, standsFor, if_neg hm.not_gt, if_neg hn.not_gt]
  -- Both are infinite, finite or zero; with the signs the comparison is
  -- settled, but for two finite numbers of one sign.
  split_ifs <;> cases s <;> cases t <;>
    simp [UnpackedFloat.compare, Sign.apply, compare_digits, hsigns,
      compare_lt_iff_lt, compare_gt_iff_gt] <;> omega

/-- What is no number is below nothing and above nothing. -/
theorem compare_standsFor_ne (h : infinityBits < m ∨ infinityBits < n) :
    (standsFor s m).compare (standsFor t n) ≠ some .lt := by
  have hleft (u) : UnpackedFloat.compare .notANumber u = none := by
    cases u <;> rfl
  have hright (u) : UnpackedFloat.compare u .notANumber = none := by
    rcases u with ⟨⟨⟩⟩ | _ | ⟨_⟩ | ⟨⟨⟩⟩ <;> rfl
  rcases h with h | h
  · rw [standsFor, if_pos h, hleft]
    simp
  · rw [standsFor.eq_1 t, if_pos h, hright]
    simp

/-- Numbers are ordered by their sizes with their signs, and what is no
number is below nothing and above nothing. -/
theorem lt_iff : x < y ↔ x.isNaN = false ∧ y.isNaN = false
    ∧ x.sign.apply x.size < y.sign.apply y.size := by
  have hlt : x < y
      ↔ (standsFor x.sign x.size).compare (standsFor y.sign y.size)
        = some .lt := by
    rw [← unpack_toFloat, ← unpack_toFloat]
    exact decide_eq_true_iff.trans beq_iff_eq
  rw [hlt, isNaN, isNaN, decide_eq_false_iff_not, decide_eq_false_iff_not]
  by_cases hnan : infinityBits < x.size ∨ infinityBits < y.size
  · have hne := compare_standsFor_ne (s := x.sign) (t := y.sign) hnan
    tauto
  · obtain ⟨hx, hy⟩ := not_or.1 hnan
    rw [compare_standsFor (not_lt.1 hx) (not_lt.1 hy)]
    tauto

/-- The size of a number with its sign. -/
theorem apply_sign (x : Double) :
    x.sign.apply x.size = if x.isNegative then -(x.size : Int) else x.size := by
  unfold sign
  split <;> rfl

/-- Numbers are in order by their bits if they are in order by their values,
or both are zero and the first has a minus. -/
theorem rank_lt_rank_iff (hx : x.isNaN = false) (hy : y.isNaN = false) :
    x.rank < y.rank ↔ x < y ∨ x = -0.0 ∧ y = 0.0 := by
  have hminus : x = -0.0 ↔ x.isNegative = true ∧ x.size = 0 := by
    constructor
    · rintro rfl
      decide
    · exact fun h => eq_of_size_of_isNegative h.2 h.1
  have hzero : y = 0.0 ↔ y.isNegative = false ∧ y.size = 0 := by
    constructor
    · rintro rfl
      decide
    · exact fun h => eq_of_size_of_isNegative h.2 h.1
  rw [lt_iff, apply_sign, apply_sign, rank_eq, rank_eq, hminus, hzero]
  simp only [hx, hy, true_and]
  cases x.isNegative <;> cases y.isNegative <;>
    simp only [Bool.false_eq_true, Bool.true_eq_false, if_true, if_false,
      true_and, false_and, and_false, or_false] <;> omega

/-- With a minus, what is no number comes before all numbers. -/
theorem rank_lt_rank_of_isNegative (hx : x.isNaN = true)
    (hneg : x.isNegative = true) (hy : y.isNaN = false) : x.rank < y.rank := by
  unfold isNaN at hx hy
  rw [decide_eq_true_iff] at hx
  rw [decide_eq_false_iff_not] at hy
  rw [rank_eq, rank_eq, if_pos hneg]
  split <;> omega

/-- Without a minus, what is no number comes behind all numbers. -/
theorem rank_lt_rank_of_not_isNegative (hx : x.isNaN = true)
    (hneg : x.isNegative = false) (hy : y.isNaN = false) : y.rank < x.rank := by
  unfold isNaN at hx hy
  rw [decide_eq_true_iff] at hx
  rw [decide_eq_false_iff_not] at hy
  rw [rank_eq, rank_eq x, hneg]
  split <;> simp <;> omega

-- An infinite weight of nothing ranks below all numbers.
example : infinity * 0.0 = noResult ∧ noResult.rank < (-infinity).rank := by
  decide

end SourceDigest.Double
