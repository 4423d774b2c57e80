import Iec61850.Asn1Contents
import Iec61850.ModelNodes

/-! The bits of bit strings. -/
namespace Iec61850.Mms
open Asn1 BitString List Option

lemma testBit_octet (b : UInt8) (on : Bool) {m k : ℕ} (hm : m < 8) (hk : k < 8) :
    (if on then b ||| UInt8.ofNat (2 ^ m) else b &&& ~~~UInt8.ofNat (2 ^ m)).toNat.testBit k =
      if k = m then on else b.toNat.testBit k := by
  have hbit (x : UInt8) : x.toNat.testBit k = x.toBitVec.getLsbD k := (BitVec.testBit_toNat x.toBitVec).symm ▸ rfl
  have hmask : (UInt8.ofNat (2 ^ m)).toBitVec = BitVec.twoPow 8 m := by
    apply BitVec.eq_of_toNat_eq
    simp [BitVec.toNat_twoPow]
  rw [hbit, hbit]
  cases on with
  | true =>
    rw [if_pos rfl, UInt8.toBitVec_or, hmask, BitVec.getLsbD_or, BitVec.getLsbD_twoPow]
    by_cases h : k = m
    · simp [h, hm]
    · simp [h, Ne.symm h]
  | false =>
    rw [if_neg Bool.false_ne_true, UInt8.toBitVec_and, UInt8.toBitVec_not, hmask, BitVec.getLsbD_and,
      BitVec.getLsbD_not, BitVec.getLsbD_twoPow]
    by_cases h : k = m
    · simp [h, hm]
    · simp [h, Ne.symm h, hk]

namespace BitString
variable {bs : BitString} {i j : ℕ} {on : Bool}

lemma packed_new (n : ℕ) : Packed (new n) := length_replicate

lemma bit_new (n i : ℕ) : (new n).bit i = false := by
  unfold bit new
  split
  · rfl
  have hz : (replicate ((n + 7) / 8) (0 : UInt8)).getD (i / 8) 0 = 0 := by
    rw [getD_eq_getElem?_getD, getElem?_replicate]
    split
    · rfl
    · rfl
  rw [hz]
  exact Nat.zero_testBit _

lemma length_setBit : (bs.setBit i on).length = bs.length := by
  unfold setBit
  split
  · rfl
  · rfl

lemma packed_setBit (h : Packed bs) : Packed (bs.setBit i on) := by
  unfold setBit
  split
  · exact h
  · exact (length_modify _ _ _).trans h

lemma bit_setBit (h : Packed bs) (hi : i < bs.length) : (bs.setBit i on).bit j = if j = i then on else bs.bit j := by
  have hlen : bs.bits.length = (bs.length + 7) / 8 := h
  unfold setBit
  rw [if_neg (Nat.not_le.mpr hi)]
  unfold bit
  by_cases hj : bs.length ≤ j
  · rw [if_pos hj, if_pos hj, if_neg (by omega)]
  rw [if_neg hj, if_neg hj, getD_eq_getElem?_getD, getD_eq_getElem?_getD]
  by_cases hoctet : j / 8 = i / 8
  · have hlt : i / 8 < bs.bits.length := by omega
    rw [hoctet, getElem?_eq_getElem hlt, ListIndex.getElem?_modify_self (getElem?_eq_getElem hlt),
      getD_some, getD_some, testBit_octet _ _ (by omega) (by omega)]
    by_cases hij : j = i
    · rw [if_pos (by omega), if_pos hij]
    · rw [if_neg (by omega), if_neg hij]
  · rw [ListIndex.getElem?_modify_of_ne hoctet, if_neg (by rintro rfl; exact hoctet rfl)]

/-- What the last octet holds beyond the valid bits. -/
def padding (bs : BitString) : ℕ := (bs.bits.getLastD 0).toNat % 2 ^ (bs.bits.length * 8 - bs.length)

variable {bs : BitString}

lemma testBit_octet_eq (h : Packed bs) {k : ℕ} (hj : j < bs.bits.length) (hk : k < 8) : bs.bits[j].toNat.testBit k =
      if j * 8 + (7 - k) < bs.length then bs.bit (j * 8 + (7 - k)) else bs.padding.testBit k := by
  have h : bs.bits.length = (bs.length + 7) / 8 := h
  split
  next hlt =>
    have hoctet : (j * 8 + (7 - k)) / 8 = j := by omega
    have hplace : 7 - (j * 8 + (7 - k)) % 8 = k := by omega
    rw [bit, if_neg (Nat.not_le.mpr hlt), hoctet, hplace, getD_eq_getElem?_getD, getElem?_eq_getElem hj, getD_some]
  next hge =>
    -- Only the last octet has bits that are not valid.
    obtain rfl : j = bs.bits.length - 1 := by omega
    have hls : bs.bits.getLastD 0 = bs.bits[bs.bits.length - 1] := by
      rw [getLastD_eq_getLast?, getLast?_eq_getElem?, getElem?_eq_getElem hj, getD_some]
    have hpad : k < bs.bits.length * 8 - bs.length := by omega
    rw [padding, Nat.testBit_mod_two_pow, hls, decide_eq_true hpad, Bool.true_and]

lemma ext_bit {a b : BitString} (ha : Packed a) (hb : Packed b) (hlen : a.length = b.length)
    (hbits : ∀ i, a.bit i = b.bit i) (hpad : a.padding = b.padding) : a = b := by
  have hoct : a.bits = b.bits := by
    apply ext_getElem (by rw [ha, hb, hlen])
    intro j hj hj'
    apply UInt8.toNat_inj.mp
    apply Nat.eq_of_testBit_eq
    intro k
    by_cases hk : k < 8
    · rw [testBit_octet_eq ha hj hk, testBit_octet_eq hb hj' hk, hlen, hbits, hpad]
    rw [Nat.testBit_lt_two_pow, Nat.testBit_lt_two_pow]
    all_goals
      apply Nat.lt_of_lt_of_le (UInt8.toNat_lt _)
      exact Nat.pow_le_pow_right (by decide) (Nat.not_lt.mp hk)
  cases a
  cases b
  cases hoct
  cases hlen
  rfl

lemma packed_of_decode {content : List UInt8} (h : decodeBitString content = .ok bs) : Packed bs := by
  unfold decodeBitString at h
  split at h
  · cases h
  next pad bits =>
  split at h
  · cases h
  next hok =>
  cases h
  dsimp only [Packed]
  omega

end BitString

namespace Value

lemma setBits_bitString {bs : BitString} (positions : List ℕ) (on : ℕ → Bool) (hp : Packed bs)
    (hlt : ∀ i ∈ positions, i < bs.length) :
    ∃ bs' : BitString, positions.foldl (fun v i => v.setBit i (on i)) (bitString bs) = bitString bs' ∧ Packed bs' ∧
      bs'.length = bs.length ∧ ∀ j, bs'.bit j = if j ∈ positions then on j else bs.bit j := by
  induction positions generalizing bs with
  | nil => exact ⟨bs, rfl, hp, rfl, fun j => (if_neg not_mem_nil).symm⟩
  | cons i positions ih =>
    have hi : i < bs.length := hlt i mem_cons_self
    have hlt' : ∀ i' ∈ positions, i' < (bs.setBit i (on i)).length := by
      intro i' hi'
      rw [length_setBit]
      exact hlt i' (mem_cons_of_mem i hi')
    obtain ⟨bs', hfold, hp', hlen, hbits⟩ := ih (packed_setBit hp) hlt'
    refine ⟨bs', hfold, hp', hlen.trans length_setBit, ?_⟩
    intro j
    rw [hbits, bit_setBit hp hi]
    by_cases hj : j ∈ positions
    · rw [if_pos hj, if_pos (mem_cons_of_mem i hj)]
    rw [if_neg hj]
    by_cases hji : j = i
    · rw [if_pos hji, if_pos (hji ▸ mem_cons_self), hji]
    · rw [if_neg hji, if_neg (by simp [hji, hj])]

def setPositions (v : Value) : List ℕ := (List.range v.bitLen).filter v.bit

lemma setPositions_of_mem {v : Value} {positions : List ℕ} (hsrt : positions.Pairwise (· < ·))
    (hlt : ∀ i ∈ positions, i < v.bitLen) (hbits : ∀ j < v.bitLen, v.bit j ↔ j ∈ positions) :
    v.setPositions = positions := by
  have hleft : v.setPositions.Pairwise (· < ·) := List.Pairwise.filter _ pairwise_lt_range
  have hm : ∀ j, j ∈ v.setPositions ↔ j ∈ positions := by
    intro j
    rw [setPositions, mem_filter, mem_range]
    constructor
    · rintro ⟨hj, hbit⟩
      exact (hbits j hj).mp hbit
    · intro hj
      exact ⟨hlt j hj, (hbits j (hlt j hj)).mpr hj⟩
  have hpm : v.setPositions.Perm positions :=
    (perm_ext_iff_of_nodup (hleft.imp Nat.ne_of_lt) (hsrt.imp Nat.ne_of_lt)).mpr hm
  exact hpm.eq_of_pairwise (fun a b _ _ hab hba => absurd hab (Nat.lt_asymm hba)) hleft hsrt

end Value

lemma toBits_spec (mask width : ℕ) : ∃ bs : BitString, toBits mask width = .bitString bs ∧ Packed bs ∧
    bs.length = width ∧ ∀ j < width, bs.bit j = mask.testBit j := by
  obtain ⟨bs, hfold, hp, hlen, hbits⟩ :=
    Value.setBits_bitString (range width) mask.testBit (packed_new width) fun i hi => mem_range.mp hi
  refine ⟨bs, hfold, hp, hlen, ?_⟩
  intro j hj
  rw [hbits, if_pos (mem_range.mpr hj)]

lemma testBit_fromBits (v : Value) (width j : ℕ) :
    (fromBits v width).testBit j = (decide (j < min v.bitLen width) && v.bit j) := by
  unfold fromBits
  induction min v.bitLen width with
  | zero => simp
  | succ n ih =>
    rw [range_succ, foldl_append, foldl_cons, foldl_nil]
    by_cases hbit : v.bit n
    · rw [if_pos hbit, Nat.testBit_or, ih, Nat.testBit_two_pow]
      by_cases hj : n = j
      · subst hj
        simp [hbit]
      · have hiff : j < n + 1 ↔ j < n := by omega
        simp [hj, hiff]
    rw [if_neg hbit, ih]
    by_cases hj : j = n
    · subst hj
      simp [hbit]
    · have hiff : j < n + 1 ↔ j < n := by omega
      simp [hiff]

lemma fromBits_toBits (mask width : ℕ) : fromBits (toBits mask width) width = mask % 2 ^ width := by
  obtain ⟨bs, hbs, -, hlen, hbits⟩ := toBits_spec mask width
  apply Nat.eq_of_testBit_eq
  intro j
  have hbitLen : (Value.bitString bs).bitLen = width := hlen
  rw [hbs, testBit_fromBits, Nat.testBit_mod_two_pow, hbitLen, Nat.min_self]
  by_cases hj : j < width
  · have hbit : (Value.bitString bs).bit j = mask.testBit j := hbits j hj
    rw [hbit]
  · simp [hj]

end Iec61850.Mms
