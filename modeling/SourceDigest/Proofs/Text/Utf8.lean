/-
Bytes read as text.

Two facts carry everything that is said of content further on. What was
written as bytes is read back (`ofBytes_toBytes`): the first byte of a
character gives its leading bits and how many bytes follow, and each of
these adds six bits, so the induction is on the bytes to follow. And a
line feed stands for itself wherever it is (`ofBytes_append_feed`,
`feed_notMem_ofBytes`): it is no byte in the middle of a character, so it
ends one that is unfinished, and no other bytes come out as a line feed.
The latter asks that the bits read so far are not too few, which
`Unfinished.IsSound` says and every first byte grants.
-/
import Mathlib
import SourceDigest.Text.Utf8

namespace SourceDigest

namespace Text

namespace Utf8

variable {b : UInt8} {bs rest : Bytes} {u : Unfinished} {st : Option Unfinished}
  {n v x : Nat} {c : Char}

-- ==================================================================== writing

/-- The last `n` bytes of a character with a value, six bits in each. -/
def tailBytes : (n v : Nat) → Bytes
  | 0, _ => []
  | n + 1, v => UInt8.ofNat (v / 64 ^ n % 64 + 0x80) :: tailBytes n v

/-- A tail is read as the bits that it adds, if its first byte may come. -/
theorem readFrom_tailBytes (hmissing : u.missing = n + 1)
    (hleast : u.least.toNat ≤ v / 64 ^ n % 64 + 0x80)
    (hgreatest : v / 64 ^ n % 64 + 0x80 ≤ u.greatest.toNat) (rest : Bytes) :
    readFrom (some u) (tailBytes (n + 1) v ++ rest)
      = some (Char.ofNat (u.value * 64 ^ (n + 1) + v % 64 ^ (n + 1)))
        :: readFrom none rest := by
  induction n generalizing u with
  | zero =>
      have hb : (UInt8.ofNat (v / 64 ^ 0 % 64 + 0x80)).toNat = v % 64 + 0x80 := by
        rw [UInt8.toNat_ofNat', pow_zero, Nat.div_one]
        omega
      rw [pow_zero, Nat.div_one] at hleast hgreatest
      rw [tailBytes, tailBytes, List.cons_append, List.nil_append, readFrom,
        if_pos (by
          rw [UInt8.le_iff_toNat_le, UInt8.le_iff_toNat_le, hb]
          exact ⟨hleast, hgreatest⟩)]
      dsimp only
      rw [if_pos hmissing.le, hb, Nat.add_sub_cancel, zero_add, pow_one]
  | succ n ih =>
      have hb : (UInt8.ofNat (v / 64 ^ (n + 1) % 64 + 0x80)).toNat
          = v / 64 ^ (n + 1) % 64 + 0x80 := by
        rw [UInt8.toNat_ofNat']
        omega
      rw [tailBytes, List.cons_append, readFrom,
        if_pos (by
          rw [UInt8.le_iff_toNat_le, UInt8.le_iff_toNat_le, hb]
          exact ⟨hleast, hgreatest⟩)]
      dsimp only
      rw [if_neg (by omega), hb, Nat.add_sub_cancel]
      -- the bytes behind the first may be anything from 0x80 to 0xBF
      rw [ih (by dsimp only; omega) (Nat.le_add_left _ _)
        (by show _ ≤ 0xBF; omega)]
      dsimp only
      rw [Nat.mod_pow_succ (k := n + 1)]
      congr 3
      ring

theorem lead_one (h : v ≤ 0x7F) :
    lead (UInt8.ofNat v) = .char (Char.ofNat v) := by
  have hb : (UInt8.ofNat v).toNat = v := by
    rw [UInt8.toNat_ofNat']
    omega
  rw [lead, if_pos (by rw [UInt8.lt_iff_toNat_lt, hb]; exact Nat.lt_succ_of_le h),
    hb]

/-- A byte with two high bits opens a character of two bytes. -/
theorem lead_two (h : 2 ≤ x) (hx : x < 32) :
    lead (UInt8.ofNat (x + 0xC0)) = .opens { value := x, missing := 1 } := by
  interval_cases x <;> rfl

/-- One with three opens a character of three. -/
theorem lead_three (hx : x < 16) :
    lead (UInt8.ofNat (x + 0xE0)) = .opens {
      value := x
      missing := 2
      least := if x = 0 then 0xA0 else 0x80
      greatest := if x = 0xD then 0x9F else 0xBF } := by
  interval_cases x <;> rfl

/-- One with four opens a character of four. -/
theorem lead_four (hx : x < 5) :
    lead (UInt8.ofNat (x + 0xF0)) = .opens {
      value := x
      missing := 3
      least := if x = 0 then 0x90 else 0x80
      greatest := if x = 4 then 0x8F else 0xBF } := by
  interval_cases x <;> rfl

/-- A first byte with the leading bits of a value, and its tail. -/
theorem readFrom_opens (hlead : lead b = .opens u) (hvalue : u.value = v / 64 ^ (n + 1))
    (hmissing : u.missing = n + 1) (hleast : u.least.toNat ≤ v / 64 ^ n % 64 + 0x80)
    (hgreatest : v / 64 ^ n % 64 + 0x80 ≤ u.greatest.toNat) (rest : Bytes) :
    readFrom none (b :: tailBytes (n + 1) v ++ rest)
      = some (Char.ofNat v) :: readFrom none rest := by
  rw [List.cons_append, readFrom, hlead]
  dsimp only
  rw [readFrom_tailBytes hmissing hleast hgreatest, hvalue, Nat.div_add_mod']

theorem readFrom_two (hlow : 0x80 ≤ v) (hhigh : v < 0x800) (rest : Bytes) :
    readFrom none ([UInt8.ofNat (v / 64 % 32 + 192), UInt8.ofNat (v % 64 + 128)] ++ rest)
      = some (Char.ofNat v) :: readFrom none rest := by
  have htail : [UInt8.ofNat (v / 64 % 32 + 192), UInt8.ofNat (v % 64 + 128)]
      = UInt8.ofNat (v / 64 + 0xC0) :: tailBytes 1 v := by
    rw [Nat.mod_eq_of_lt (show v / 64 < 32 by omega)]
    simp [tailBytes]
  rw [htail]
  refine readFrom_opens (n := 0) (lead_two (x := v / 64) (by omega) (by omega))
    rfl rfl ?_ ?_ rest
  · simp
  · simp
    omega

theorem readFrom_three (hlow : 0x800 ≤ v) (hhigh : v < 0x10000)
    (hvalid : v < 0xD800 ∨ 0xDFFF < v) (rest : Bytes) :
    readFrom none ([UInt8.ofNat (v / 4096 % 16 + 224), UInt8.ofNat (v / 64 % 64 + 128),
        UInt8.ofNat (v % 64 + 128)] ++ rest)
      = some (Char.ofNat v) :: readFrom none rest := by
  have htail : [UInt8.ofNat (v / 4096 % 16 + 224), UInt8.ofNat (v / 64 % 64 + 128),
        UInt8.ofNat (v % 64 + 128)]
      = UInt8.ofNat (v / 4096 + 0xE0) :: tailBytes 2 v := by
    rw [Nat.mod_eq_of_lt (show v / 4096 < 16 by omega)]
    simp [tailBytes]
  rw [htail]
  refine readFrom_opens (n := 1) (lead_three (x := v / 4096) (by omega))
    rfl rfl ?_ ?_ rest
  -- too small a value would have fewer bytes
  · dsimp only
    split <;> simp
    omega
  -- surrogates are no characters
  · dsimp only
    split <;> (simp; omega)

theorem readFrom_four (hlow : 0x10000 ≤ v) (hhigh : v < 0x110000) (rest : Bytes) :
    readFrom none ([UInt8.ofNat (v / 262144 % 8 + 240),
        UInt8.ofNat (v / 4096 % 64 + 128), UInt8.ofNat (v / 64 % 64 + 128),
        UInt8.ofNat (v % 64 + 128)] ++ rest)
      = some (Char.ofNat v) :: readFrom none rest := by
  have htail : [UInt8.ofNat (v / 262144 % 8 + 240), UInt8.ofNat (v / 4096 % 64 + 128),
        UInt8.ofNat (v / 64 % 64 + 128), UInt8.ofNat (v % 64 + 128)]
      = UInt8.ofNat (v / 262144 + 0xF0) :: tailBytes 3 v := by
    rw [Nat.mod_eq_of_lt (show v / 262144 < 8 by omega)]
    simp [tailBytes]
  rw [htail]
  refine readFrom_opens (n := 2) (lead_four (x := v / 262144) (by omega))
    rfl rfl ?_ ?_ rest
  · dsimp only
    split <;> simp
    omega
  -- nothing is above the last character
  · dsimp only
    split <;> (simp; omega)

/-- The bytes of a character are read as it. -/
theorem readFrom_encode (c : Char) (rest : Bytes) :
    readFrom none (String.utf8EncodeChar c ++ rest)
      = some c :: readFrom none rest := by
  have hvalid : c.toNat < 0xD800 ∨ 0xDFFF < c.toNat ∧ c.toNat < 0x110000 := c.valid
  have hc : Char.ofNat c.toNat = c := Char.ofNat_toNat c
  have hval : c.val.toNat = c.toNat := rfl
  unfold String.utf8EncodeChar
  dsimp only
  rw [hval]
  generalize c.toNat = v at hvalid hc
  rw [← hc]
  split
  · rename_i hone
    rw [List.singleton_append, readFrom, lead_one hone]
  split
  · exact readFrom_two (by omega) (by omega) rest
  split
  · exact readFrom_three (by omega) (by omega) (by omega) rest
  · exact readFrom_four (by omega) (by omega) rest

/-- What is written is read back, and no byte is bad. -/
theorem read_toBytes (t : Text) : read (toBytes t) = t.map some := by
  unfold read toBytes
  induction t with
  | nil => rfl
  | cons c t ih =>
      rw [List.flatMap_cons, readFrom_encode, ih]
      rfl

-- ================================================================= line feeds

/-- A character of which enough has been read that it is no line feed, and
that a line feed does not go on with. -/
structure Unfinished.IsSound (u : Unfinished) : Prop where
  tail : 0x80 ≤ u.least.toNat
  bits : if u.missing ≤ 1 then 2 ≤ u.value
    else 2 ≤ u.value * 64 + (u.least.toNat - 0x80)

/-- A first byte says enough, together with those that may come behind it. -/
theorem isSound_of_lead (h : lead b = .opens u) : u.IsSound := by
  have hle : ∀ {k : UInt8}, ¬ b < k → k.toNat ≤ b.toNat := fun hk =>
    UInt8.le_iff_toNat_le.1 (UInt8.not_lt.1 hk)
  have hne : ∀ {k : UInt8}, b ≠ k → b.toNat ≠ k.toNat := fun hk he =>
    hk (UInt8.toNat_inj.1 he)
  unfold lead at h
  split at h
  · cases h
  split at h
  · cases h
  rename_i hC2
  split at h
  · obtain rfl := Lead.opens.inj h
    have := hle hC2
    exact ⟨le_rfl, by simp at this ⊢; omega⟩
  rename_i hE0
  split at h
  · obtain rfl := Lead.opens.inj h
    exact ⟨by decide, by decide⟩
  rename_i heE0
  split at h
  · obtain rfl := Lead.opens.inj h
    exact ⟨by decide, by decide⟩
  split at h
  · obtain rfl := Lead.opens.inj h
    have := hle hE0
    have := hne heE0
    exact ⟨le_rfl, by simp at *; omega⟩
  rename_i hF0
  split at h
  · obtain rfl := Lead.opens.inj h
    exact ⟨by decide, by decide⟩
  rename_i heF0
  split at h
  · obtain rfl := Lead.opens.inj h
    have := hle hF0
    have := hne heF0
    exact ⟨le_rfl, by simp at *; omega⟩
  split at h
  · obtain rfl := Lead.opens.inj h
    exact ⟨by decide, by decide⟩
  · cases h

/-- One more byte leaves a character sound that is still unfinished. -/
theorem Unfinished.IsSound.next (hu : u.IsSound) (hb : u.least ≤ b)
    (hmissing : ¬ u.missing ≤ 1) :
    IsSound {
      value := u.value * 64 + (b.toNat - 0x80)
      missing := u.missing - 1 } := by
  have hbits := hu.bits
  have hleast := UInt8.le_iff_toNat_le.1 hb
  rw [if_neg hmissing] at hbits
  refine ⟨le_rfl, ?_⟩
  dsimp only
  split <;> omega

/-- The line feed has one value only. -/
theorem eq_of_ofNat_eq_feed (h : Char.ofNat v = '\n') : v = 0x0A := by
  have hv := congrArg Char.toNat h
  rw [Char.toNat_ofNat] at hv
  split at hv
  · exact hv
  · cases hv

/-- Only its own byte stands for a line feed. -/
theorem eq_feed_of_lead (h : lead b = .char '\n') : b = 0x0A := by
  unfold lead at h
  split at h
  · exact UInt8.toNat_inj.1 (eq_of_ofNat_eq_feed (Lead.char.inj h))
  · repeat' split at h
    all_goals cases h

/-- A line feed ends what is unfinished. -/
theorem readFrom_append_feed (hst : ∀ u ∈ st, u.IsSound) (bs rest : Bytes) :
    readFrom st (bs ++ 0x0A :: rest)
      = readFrom st bs ++ some '\n' :: readFrom none rest := by
  have hfeed : lead 0x0A = .char '\n' := rfl
  fun_induction readFrom st bs with
  | case1 => simp [readFrom, hfeed]
  | case2 u =>
      have hout : ¬ (u.least ≤ 0x0A ∧ (0x0A : UInt8) ≤ u.greatest) := by
        rintro ⟨hle, -⟩
        have htail := (hst u rfl).tail
        have := UInt8.le_iff_toNat_le.1 hle
        simp at this
        omega
      rw [List.nil_append, readFrom, if_neg hout, hfeed]
      rfl
  | case3 u b bs hb value hmissing ih =>
      simp [readFrom, hb, hmissing, value, ih]
  | case4 u b bs hb value hmissing ih =>
      have hnext := (hst u rfl).next hb.1 hmissing
      rw [← ih (by simpa using hnext)]
      simp [readFrom, hb, hmissing, value]
  | case5 u b bs hb c hlead ih =>
      rw [List.cons_append, readFrom, if_neg hb, hlead]
      simp [ih]
  | case6 u b bs hb v hlead ih =>
      rw [List.cons_append, readFrom, if_neg hb, hlead]
      simp [ih, isSound_of_lead hlead]
  | case7 u b bs hb hlead ih =>
      rw [List.cons_append, readFrom, if_neg hb, hlead]
      simp [ih]
  | case8 b bs c hlead ih => simp [readFrom, hlead, ih]
  | case9 b bs u hlead ih => simp [readFrom, hlead, ih, isSound_of_lead hlead]
  | case10 b bs hlead ih => simp [readFrom, hlead, ih]

/-- Nothing else is read as a line feed. -/
theorem feed_notMem_readFrom (hst : ∀ u ∈ st, u.IsSound) (h : 0x0A ∉ bs) :
    some '\n' ∉ readFrom st bs := by
  have hne : ∀ {b c bs}, lead b = .char c → (0x0A : UInt8) ∉ b :: bs → '\n' ≠ c := by
    rintro b c bs hlead hmem rfl
    exact hmem (eq_feed_of_lead hlead ▸ List.mem_cons_self)
  fun_induction readFrom st bs with
  | case1 => simp
  | case2 u => simp
  | case3 u b bs hb value hmissing ih =>
      have hbits := (hst u rfl).bits
      rw [if_pos hmissing] at hbits
      have hvalue : Char.ofNat value ≠ '\n' := fun hfeed => by
        have := eq_of_ofNat_eq_feed hfeed
        omega
      simp [hvalue.symm, ih (by simp) (List.not_mem_of_not_mem_cons h)]
  | case4 u b bs hb value hmissing ih =>
      have hnext := (hst u rfl).next hb.1 hmissing
      exact ih (by simpa using hnext) (List.not_mem_of_not_mem_cons h)
  | case5 u b bs hb c hlead ih =>
      simp [hne hlead h, ih (by simp) (List.not_mem_of_not_mem_cons h)]
  | case6 u b bs hb v hlead ih =>
      simp [ih (by simpa using isSound_of_lead hlead)
        (List.not_mem_of_not_mem_cons h)]
  | case7 u b bs hb hlead ih =>
      simp [ih (by simp) (List.not_mem_of_not_mem_cons h)]
  | case8 b bs c hlead ih =>
      simp [hne hlead h, ih (by simp) (List.not_mem_of_not_mem_cons h)]
  | case9 b bs u hlead ih =>
      exact ih (by simpa using isSound_of_lead hlead)
        (List.not_mem_of_not_mem_cons h)
  | case10 b bs hlead ih =>
      simp [ih (by simp) (List.not_mem_of_not_mem_cons h)]

/-- Where there is a byte there is something to read. -/
theorem readFrom_eq_nil_iff : readFrom st bs = [] ↔ st = none ∧ bs = [] := by
  fun_induction readFrom st bs with
  | case4 u b bs hb value hmissing ih => simp [ih]
  | case9 b bs u hlead ih => simp [ih]
  | _ => simp

end Utf8

-- ====================================================================== texts

/-- What is written is read back. -/
theorem ofBytes_toBytes (t : Text) : ofBytes (toBytes t) = t := by
  unfold ofBytes
  rw [Utf8.read_toBytes, List.map_map]
  exact List.map_id t

/-- What is written as bytes is well-formed. -/
theorem ofBytes?_toBytes (t : Text) : ofBytes? (toBytes t) = some t := by
  unfold ofBytes?
  rw [Utf8.read_toBytes]
  simp

/-- A line feed stands for itself. -/
theorem ofBytes_append_feed (bs rest : Bytes) :
    ofBytes (bs ++ 0x0A :: rest) = ofBytes bs ++ '\n' :: ofBytes rest := by
  unfold ofBytes Utf8.read
  rw [Utf8.readFrom_append_feed (by simp), List.map_append, List.map_cons]
  rfl

theorem feed_notMem_ofBytes {bs : Bytes} (h : 0x0A ∉ bs) : '\n' ∉ ofBytes bs := by
  unfold ofBytes Utf8.read
  rw [List.mem_map]
  rintro ⟨x, hx, heq⟩
  cases x with
  | none => cases heq
  | some c =>
      obtain rfl : c = '\n' := heq
      exact Utf8.feed_notMem_readFrom (by simp) h hx

/-- Every byte shows in the text. -/
theorem ofBytes_eq_nil_iff {bs : Bytes} : ofBytes bs = [] ↔ bs = [] := by
  unfold ofBytes Utf8.read
  rw [List.map_eq_nil_iff, Utf8.readFrom_eq_nil_iff]
  simp

end Text

end SourceDigest
