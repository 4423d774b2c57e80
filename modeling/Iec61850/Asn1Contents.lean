import Iec61850.Asn1Decoder
import Mathlib.Tactic.Linarith

/-! The contents of primitive elements, trees of elements, and the base-128 numbers of identifiers and tags. -/
namespace Iec61850.Asn1
open List

def decodeInt (content : List UInt8) : Except Error ℤ :=
  if content.isEmpty || decide (8 < content.length) then
    .error (.badValue ("integer of " ++ toString content.length ++ " octets"))
  else
    let n : ℤ := ofOctets content
    .ok (if 128 ≤ (content.headD 0).toNat then n - 256 ^ content.length else n)

def decodeUint (content : List UInt8) : Except Error ℕ :=
  if content.isEmpty then .error (.badValue "empty unsigned")
  else if 9 < content.length ∨ content.length = 9 ∧ content.headD 0 ≠ 0 then
    .error (.badValue ("unsigned of " ++ toString content.length ++ " octets"))
  else .ok (ofOctets content)

def decodeBool (content : List UInt8) : Except Error Bool :=
  match content with
  | [b] => .ok (b ≠ 0)
  | _ => .error (.badValue ("boolean of " ++ toString content.length ++ " octets"))

lemma decodeBool_boolElem (t : Tag) (v : Bool) : decodeBool (boolElem t v).content = .ok v := by
  cases v <;> rfl

@[simp] lemma length_beOctets (v : ℤ) (n : ℕ) : (beOctets v n).length = n := by simp [beOctets]

lemma intSize_pos (v : ℤ) (fuel : ℕ) : 0 < intSize v fuel := by
  unfold intSize
  split
  · omega
  · split <;> omega

lemma lt_of_intSize {v : ℤ} {k : ℕ} (fuel : ℕ) (hk : k ≤ fuel) (hlo : -(128 * 256 ^ k) ≤ v)
    (hhi : v < 128 * 256 ^ k) :
    -(128 * 256 ^ (intSize v fuel - 1)) ≤ v ∧ v < 128 * 256 ^ (intSize v fuel - 1) ∧ intSize v fuel ≤ k + 1 := by
  induction fuel generalizing v k with
  | zero =>
    obtain rfl : k = 0 := by omega
    exact ⟨hlo, hhi, le_refl _⟩
  | succ fuel ih =>
    unfold intSize
    split
    · refine ⟨?_, ?_, by omega⟩
      · simp only [Nat.sub_self, pow_zero]
        omega
      · simp only [Nat.sub_self, pow_zero]
        omega
    next hbig =>
    cases k with
    | zero =>
      omega
    | succ k =>
      obtain ⟨hlo', hhi', hle⟩ := ih (v := v / 256) (k := k) (by omega) (by omega) (by omega)
      have hpos := intSize_pos (v / 256) fuel
      have hexp : 1 + intSize (v / 256) fuel - 1 = (intSize (v / 256) fuel - 1) + 1 := by omega
      have hpow : (128 * 256 ^ ((intSize (v / 256) fuel - 1) + 1) : ℤ) =
          128 * 256 ^ (intSize (v / 256) fuel - 1) * 256 := by ring
      rw [hexp, hpow]
      refine ⟨?_, ?_, by omega⟩
      · omega
      · omega

lemma uintSize_eq (v fuel : ℕ) : uintSize v fuel = intSize v fuel := by
  induction fuel generalizing v with
  | zero => rfl
  | succ fuel ih =>
    have hsmall : (-0x80 ≤ (v : ℤ) ∧ (v : ℤ) ≤ 0x7f) ↔ v ≤ 0x7f := by omega
    rw [uintSize, intSize, ih]
    simp only [hsmall]
    rfl

lemma neg_le_natCast (v k : ℕ) : -(128 * 256 ^ k) ≤ (v : ℤ) := by
  have hpow : (0 : ℤ) < 256 ^ k := by positivity
  omega

lemma lt_of_uintSize {v k : ℕ} (fuel : ℕ) (hk : k ≤ fuel) (h : v < 128 * 256 ^ k) :
    v < 128 * 256 ^ (uintSize v fuel - 1) ∧ uintSize v fuel ≤ k + 1 := by
  obtain ⟨-, hlt, hle⟩ := lt_of_intSize fuel hk (neg_le_natCast v k) (by exact_mod_cast h)
  rw [uintSize_eq]
  exact ⟨by exact_mod_cast hlt, hle⟩

lemma headD_beOctets (v : ℤ) (n : ℕ) : ((beOctets v (n + 1)).headD 0).toNat = (v / 256 ^ n % 256).toNat := by
  rw [beOctets_succ, headD_cons, UInt8.toNat_ofNat']
  omega

lemma decodeUint_beOctets {v : ℕ} (h : v < 2 ^ 64) : decodeUint (beOctets v (uintSize v 9)) = .ok v := by
  obtain ⟨hlt, hle⟩ := lt_of_uintSize (v := v) (k := 8) 9 (by decide) (by omega)
  have hpos := uintSize_eq v 9 ▸ intSize_pos v 9
  obtain ⟨n, hn⟩ : ∃ n, uintSize v 9 = n + 1 := ⟨uintSize v 9 - 1, by omega⟩
  rw [hn] at hlt hle ⊢
  have hval : ofOctets (beOctets v (n + 1)) = v := by
    apply ofOctets_beOctets_of_lt
    calc v < 128 * 256 ^ n := hlt
      _ ≤ 256 ^ n * 256 := by
        rw [mul_comm]
        exact Nat.mul_le_mul_left _ (by decide)
      _ = 256 ^ (n + 1) := (pow_succ 256 n).symm
  have hne : (beOctets v (n + 1)).isEmpty = false := by rw [beOctets_succ]; rfl
  -- Nine octets are needed only for the clear top bit, which is an octet of its own.
  have hhead : ¬ (9 < n + 1 ∨ n + 1 = 9 ∧ (beOctets v (n + 1)).headD 0 ≠ 0) := by
    rintro (hbig | ⟨hnine, hzero⟩)
    · omega
    obtain rfl : n = 8 := by omega
    apply hzero
    have hz : (v : ℤ) / 256 ^ 8 = 0 := by omega
    have htop := headD_beOctets v 8
    rw [hz] at htop
    exact UInt8.toNat_inj.mp htop
  unfold decodeUint
  simp only [hne, Bool.false_eq_true, if_false, length_beOctets, hhead, hval]

/-- The integer that octets stand for in two's complement, however many they are. -/
def twosComplement (octets : List UInt8) : ℤ :=
  if 128 ≤ (octets.headD 0).toNat then ofOctets octets - 256 ^ octets.length else ofOctets octets

lemma twosComplement_beOctets {v : ℤ} {n : ℕ} (hlo : -(128 * 256 ^ n) ≤ v) (hhi : v < 128 * 256 ^ n) :
    twosComplement (beOctets v (n + 1)) = v := by
  have hpow : (0 : ℤ) < 256 ^ n := by positivity
  rw [twosComplement, ofOctets_beOctets, headD_beOctets, length_beOctets, pow_succ]
  by_cases hneg : v < 0
  · -- The top bit stands for the sign.
    have hq : -128 ≤ v / 256 ^ n ∧ v / 256 ^ n < 0 := by
      constructor
      · rw [Int.le_ediv_iff_mul_le hpow]
        linarith
      · exact Int.ediv_neg_of_neg_of_pos hneg hpow
    have htop : 128 ≤ (v / 256 ^ n % 256).toNat := by omega
    have hmod : v % (256 ^ n * 256) = v + 256 ^ n * 256 := by
      rw [← Int.add_emod_right]
      apply Int.emod_eq_of_lt
      · linarith
      · linarith
    rw [if_pos htop, hmod]
    ring
  have hq : 0 ≤ v / 256 ^ n ∧ v / 256 ^ n < 128 := by
    constructor
    · exact Int.ediv_nonneg (by omega) hpow.le
    · rw [Int.ediv_lt_iff_lt_mul hpow]
      exact hhi
  have htop : ¬ 128 ≤ (v / 256 ^ n % 256).toNat := by omega
  have hmod : v % (256 ^ n * 256) = v := by
    apply Int.emod_eq_of_lt
    · omega
    · linarith
  rw [if_neg htop, hmod]

lemma foldl_octets_bounds (l : List UInt8) (n : ℕ) : n * 256 ^ l.length ≤ l.foldl (fun n b => n * 256 + b.toNat) n ∧
      l.foldl (fun n b => n * 256 + b.toNat) n < (n + 1) * 256 ^ l.length := by
  induction l generalizing n with
  | nil => simp
  | cons b l ih =>
    obtain ⟨hlo, hhi⟩ := ih (n * 256 + b.toNat)
    have hb := b.toNat_lt
    rw [foldl_cons, length_cons, pow_succ']
    constructor
    · calc n * (256 * 256 ^ l.length) = n * 256 * 256 ^ l.length := by ring
        _ ≤ (n * 256 + b.toNat) * 256 ^ l.length := Nat.mul_le_mul_right _ (by omega)
        _ ≤ _ := hlo
    · calc _ < (n * 256 + b.toNat + 1) * 256 ^ l.length := hhi
        _ ≤ (n + 1) * 256 * 256 ^ l.length := Nat.mul_le_mul_right _ (by omega)
        _ = (n + 1) * (256 * 256 ^ l.length) := by ring

lemma twosComplement_bounds (b : UInt8) (l : List UInt8) :
    -(128 * 256 ^ l.length) ≤ twosComplement (b :: l) ∧ twosComplement (b :: l) < 128 * 256 ^ l.length := by
  have hb := b.toNat_lt
  obtain ⟨hlo, hhi⟩ := foldl_octets_bounds l b.toNat
  have hval : ofOctets (b :: l) = l.foldl (fun n b => n * 256 + b.toNat) b.toNat := by simp [ofOctets]
  rw [← hval] at hlo hhi
  rw [twosComplement, headD_cons, length_cons, pow_succ]
  split
  next htop =>
    have h1 : 128 * 256 ^ l.length ≤ b.toNat * 256 ^ l.length := Nat.mul_le_mul_right _ htop
    have h2 : (b.toNat + 1) * 256 ^ l.length ≤ 256 * 256 ^ l.length := Nat.mul_le_mul_right _ hb
    zify at h1 h2 hlo hhi
    constructor <;> linarith
  next htop =>
    have h1 : (b.toNat + 1) * 256 ^ l.length ≤ 128 * 256 ^ l.length := Nat.mul_le_mul_right _ (by omega)
    zify at h1 hhi
    constructor <;> linarith

lemma decodeInt_beOctets {v : ℤ} (hlo : -2 ^ 63 ≤ v) (hhi : v < 2 ^ 63) :
    decodeInt (beOctets v (intSize v 8)) = .ok v := by
  obtain ⟨hlo', hhi', hle⟩ := lt_of_intSize (v := v) (k := 7) 8 (by decide) (by omega) (by omega)
  have hpos := intSize_pos v 8
  obtain ⟨n, hn⟩ : ∃ n, intSize v 8 = n + 1 := ⟨intSize v 8 - 1, by omega⟩
  rw [hn] at hlo' hhi' hle ⊢
  rw [Nat.add_sub_cancel] at hlo' hhi'
  have hne : (beOctets v (n + 1)).isEmpty = false := by rw [beOctets_succ]; rfl
  have hlen : ¬ 8 < n + 1 := by omega
  have hval := twosComplement_beOctets hlo' hhi'
  rw [twosComplement] at hval
  unfold decodeInt
  simp only [hne, Bool.false_or, length_beOctets, decide_eq_true_eq, hlen, if_false] at hval ⊢
  rw [hval]

lemma decodeUint_uintElem (t : Tag) (v : UInt64) : decodeUint (uintElem t v).content = .ok v.toNat :=
  decodeUint_beOctets v.toNat_lt

lemma decodeInt_intElem (t : Tag) (v : Int64) : decodeInt (intElem t v).content = .ok v.toInt :=
  decodeInt_beOctets v.le_toInt v.toInt_lt

/-- The octets stand for an integer, and no fewer do. -/
def Shortest (v : ℤ) (octets : List UInt8) : Prop :=
  twosComplement octets = v ∧ ∀ l, l ≠ [] → twosComplement l = v → octets.length ≤ l.length

lemma shortest_beOctets {v : ℤ} {k : ℕ} (fuel : ℕ) (hk : k ≤ fuel) (hlo : -(128 * 256 ^ k) ≤ v)
    (hhi : v < 128 * 256 ^ k) : Shortest v (beOctets v (intSize v fuel)) := by
  obtain ⟨hlo', hhi', hle⟩ := lt_of_intSize fuel hk hlo hhi
  have hpos := intSize_pos v fuel
  constructor
  · have h := twosComplement_beOctets hlo' hhi'
    rw [Nat.sub_add_cancel hpos] at h
    exact h
  intro l hl hv
  obtain ⟨b, l, rfl⟩ := exists_cons_of_ne_nil hl
  obtain ⟨hlo, hhi⟩ := twosComplement_bounds b l
  rw [hv] at hlo hhi
  rw [length_beOctets, length_cons]
  rcases Nat.lt_or_ge fuel l.length with hlong | hsh
  · omega
  · exact (lt_of_intSize fuel hsh hlo hhi).2.2

lemma shortest_intElem (t : Tag) (v : Int64) : Shortest v.toInt (intElem t v).content := by
  have hlo := v.le_toInt
  have hhi := v.toInt_lt
  exact shortest_beOctets (k := 7) 8 (by decide) (by omega) (by omega)

lemma shortest_uintElem (t : Tag) (v : UInt64) : Shortest v.toNat (uintElem t v).content := by
  have hv := v.toNat_lt
  have h := shortest_beOctets (k := 8) 9 (by decide) (neg_le_natCast v.toNat 8) (by omega)
  rw [← uintSize_eq] at h
  exact h

/-- Integers are read back from their octets, the shortest that stand for them and as many as the size functions
say. -/
theorem integers_shortest (t : Tag) :
    (∀ v : Int64, decodeInt (intElem t v).content = .ok v.toInt ∧ Shortest v.toInt (intElem t v).content ∧
      intSize v.toInt 8 = (intElem t v).content.length) ∧
    ∀ v : UInt64, decodeUint (uintElem t v).content = .ok v.toNat ∧
      Shortest v.toNat (uintElem t v).content ∧ uintSize v.toNat 9 = (uintElem t v).content.length := by
  constructor
  · intro v
    exact ⟨decodeInt_intElem t v, shortest_intElem t v, (length_beOctets _ _).symm⟩
  · intro v
    exact ⟨decodeUint_uintElem t v, shortest_uintElem t v, (length_beOctets _ _).symm⟩

open Decoder

def Class.text : Class → String
  | .universal => "UNIVERSAL"
  | .application => "APPLICATION"
  | .contextSpecific => "CONTEXT"
  | .priv => "PRIVATE"

def Tag.text (t : Tag) : String :=
  "[" ++ t.cls.text ++ " " ++ toString t.number ++ " " ++
    (if t.constructed then "constructed" else "primitive") ++ "]"

namespace Decoder
variable {β ε : Type}

def readAll (read : Decoder → Except ε (β × Decoder)) : (fuel : ℕ) → Decoder → Except ε (List β)
  | 0, _ => .ok []
  | fuel + 1, d =>
    if d.more then
      match read d with
      | .error e => .error e
      | .ok (b, next) => (readAll read fuel next).map (b :: ·)
    else .ok []

/-- Takes the tag and content of one element after another into account. -/
def foldAll {σ : Type} (wrap : Error → ε) (f : σ → Tag × List UInt8 → Except ε σ) :
    (fuel : ℕ) → Decoder → σ → Except ε σ
  | 0, _, s => .ok s
  | fuel + 1, d, s =>
    if d.more then
      match d.readTlv with
      | .error e => .error (wrap e)
      | .ok (e, next) =>
        match f s e with
        | .error e => .error e
        | .ok s => foldAll wrap f fuel next s
    else .ok s

def readWhile : (fuel : ℕ) → Decoder → List (Tag × List UInt8)
  | 0, _ => []
  | fuel + 1, d =>
    if d.more then
      match d.readTlv with
      | .error _ => []
      | .ok (e, next) => e :: readWhile fuel next
    else []

end Decoder

def decodeBitString (content : List UInt8) : Except Error Mms.BitString :=
  match content with
  | [] => .error (.badValue "empty bit string")
  | pad :: bits =>
    if 7 < pad.toNat ∨ bits = [] ∧ pad ≠ 0 then
      .error (.badValue ("bit string padding " ++ toString pad.toNat))
    else .ok { bits := bits, length := bits.length * 8 - pad.toNat }

/-- The octets of a bit string are those its bits need. -/
def Packed (bs : Mms.BitString) : Prop := bs.bits.length = (bs.length + 7) / 8
deriving Decidable

lemma decodeBitString_octets {bs : Mms.BitString} (h : Packed bs) :
    decodeBitString (bitStringOctets bs) = .ok bs := by
  have h : bs.bits.length = (bs.length + 7) / 8 := h
  -- The padding fills the last octet.
  have hpad : (UInt8.ofNat (((bs.bits.length * 8 : ℤ) - bs.length) % 256).toNat).toNat =
      bs.bits.length * 8 - bs.length := by
    rw [UInt8.toNat_ofNat']
    omega
  have hnil : bs.bits = [] → bs.bits.length * 8 - bs.length = 0 := by
    intro hbits
    rw [hbits, length_nil]
    omega
  dsimp only [bitStringOctets, decodeBitString]
  rw [if_neg]
  · rw [hpad]
    have hlen : bs.bits.length * 8 - (bs.bits.length * 8 - bs.length) = bs.length := by omega
    rw [hlen]
  rintro (hbig | ⟨hemp, hne⟩)
  · omega
  apply hne
  apply UInt8.toNat_inj.mp
  rw [hpad, hnil hemp]
  rfl

section RoundTrip
variable {off : ℕ} {β ε : Type} {read : Decoder → Except ε (β × Decoder)}
open Element

variable {es : List Element} {fuel : ℕ}

lemma readAll_encodeAll {bs : List β} (h : AllLows es)
    (hrd : List.Forall₂ (fun e b => ∀ off rest, read ⟨off, e.encode ++ rest⟩ = .ok (b, ⟨off + e.size, rest⟩)) es bs)
    (hfuel : sizes es < fuel) : readAll read fuel ⟨off, encodeAll es⟩ = .ok bs := by
  induction hrd generalizing off fuel with
  | nil =>
    cases fuel with
    | zero => omega
    | succ fuel => rfl
  | @cons e b es bs hfst _ ih =>
    have hlt := length_content_lt h.1
    rw [sizes_cons] at hfuel
    cases fuel with
    | zero => omega
    | succ fuel =>
      rw [encodeAll_cons, readAll, if_pos (more_encode h.1), hfst]
      dsimp only
      rw [ih h.2 (by omega)]
      rfl

def parts (es : List Element) : List (Tag × List UInt8) := es.map fun e => (e.tag, e.content)

lemma foldAll_encodeAll {σ : Type} {wrap : Error → ε} {f : σ → Tag × List UInt8 → Except ε σ}
    {s : σ} (h : AllFit es) (hfuel : sizes es < fuel) :
    foldAll wrap f fuel ⟨off, encodeAll es⟩ s = (parts es).foldlM f s := by
  induction es generalizing off fuel s with
  | nil =>
    cases fuel with
    | zero => omega
    | succ fuel => rfl
  | cons e es ih =>
    have hlt := length_content_lt h.low.1
    rw [sizes_cons] at hfuel
    cases fuel with
    | zero => omega
    | succ fuel =>
      rw [encodeAll_cons, foldAll, if_pos (more_encode h.low.1), readTlv_encode h.low.1 h.head.length_lt]
      dsimp only
      rw [parts, map_cons, foldlM_cons]
      cases f s (e.tag, e.content) with
      | error err => rfl
      | ok s' => exact ih h.tail (by omega)

lemma readWhile_encodeAll (h : AllFit es) (hfuel : sizes es < fuel) :
    readWhile fuel ⟨off, encodeAll es⟩ = parts es := by
  induction es generalizing off fuel with
  | nil =>
    cases fuel with
    | zero => omega
    | succ fuel => rfl
  | cons e es ih =>
    have hlt := length_content_lt h.low.1
    rw [sizes_cons] at hfuel
    cases fuel with
    | zero => omega
    | succ fuel =>
      rw [encodeAll_cons, readWhile, if_pos (more_encode h.low.1), readTlv_encode h.low.1 h.head.length_lt]
      dsimp only
      rw [ih h.tail (by omega)]
      rfl

end RoundTrip
namespace Decoder

variable {d d' : Decoder}

lemma rest_readHighTag {left number : ℕ} {n : ℕ} (h : readHighTag left number d = .ok (n, d')) :
    d'.rest.length ≤ d.rest.length := by
  induction left, number, d using readHighTag.induct with
  | case1 left number off => 
    rw [readHighTag] at h
    cases h
  | case2 number off c rest =>
    rw [readHighTag] at h
    cases h
  | case3 left number off c rest hls =>
    rw [readHighTag, if_pos hls] at h
    cases h
    exact Nat.le_succ _
  | case4 left number off c rest number' hmo ih =>
    rw [readHighTag, if_neg hmo] at h
    exact Nat.le_succ_of_le (ih h)

lemma rest_readTag {t : Tag} (h : d.readTag = .ok (t, d')) : d'.rest.length ≤ d.rest.length := by
  rw [readTag] at h
  split at h
  · cases h
  next b rest hrs =>
  rw [hrs]
  dsimp only at h
  split at h
  · cases h
    exact Nat.le_succ _
  rcases hhigh : readHighTag 5 0 ⟨d.off + 1, rest⟩ with e | r
  · rw [hhigh] at h
    cases h
  rw [hhigh] at h
  cases h
  exact Nat.le_succ_of_le (rest_readHighTag hhigh)

lemma rest_readLength {n : ℕ × Bool} (h : d.readLength = .ok (n, d')) : d'.rest.length ≤ d.rest.length := by
  rw [readLength] at h
  split at h
  · cases h
  next b rest hrs =>
  rw [hrs]
  dsimp only at h
  generalize b.toNat - 128 = count at h
  split_ifs at h
  · cases h
    exact Nat.le_succ _
  · cases h
    exact Nat.le_succ _
  cases h
  rw [length_drop, length_cons]
  omega

lemma length_readTlvAt (fuel : ℕ) : (∀ depth d r d', readTlvAt fuel depth d = .ok (r, d') →
      r.2.length ≤ d.rest.length ∧ d'.rest.length ≤ d.rest.length) ∧
    ∀ depth start d c d', scan fuel depth start d = .ok (c, d') →
      c.length ≤ start.rest.length ∧ d'.rest.length ≤ d.rest.length := by
  induction fuel with
  | zero =>
    refine ⟨?_, ?_⟩
    · nofun
    · nofun
  | succ fuel ih =>
    refine ⟨?_, ?_⟩
    · intro depth d r d' h
      rw [readTlvAt] at h
      split at h
      · cases h
      split at h
      · cases h
      next t d₁ htag =>
      have hle1 := rest_readTag htag
      split at h
      · cases h
      next n d₂ hlen =>
        have hle2 := rest_readLength hlen
        split at h
        · cases h
        cases h
        refine ⟨?_, ?_⟩
        · exact Nat.le_trans (length_take_le _ _) (by omega)
        dsimp only
        rw [length_drop]
        omega
      next n d₂ hlen =>
        have hle2 := rest_readLength hlen
        split at h
        · cases hscan : scan fuel depth d₂ d₂ with
          | error e =>
            rw [hscan] at h
            cases h
          | ok r' =>
            rw [hscan] at h
            cases h
            have hle := ih.2 depth d₂ d₂ r'.1 r'.2 hscan
            exact ⟨Nat.le_trans hle.1 (by omega), by omega⟩
        · cases h
    · intro depth start d c d' h
      rw [scan] at h
      split at h
      next rest hrs =>
        cases h
        rw [hrs]
        refine ⟨length_take_le' _ _, ?_⟩
        dsimp only [length_cons]
        omega
      · split at h
        · cases h
        next r d₁ hrd =>
        have hle := ih.1 (depth + 1) d r d₁ hrd
        have hle' := ih.2 depth start d₁ c d' h
        exact ⟨hle'.1, by omega⟩

lemma length_readTlv {r : Tag × List UInt8} (h : d.readTlv = .ok (r, d')) :
    r.2.length ≤ d.rest.length ∧ d'.rest.length ≤ d.rest.length :=
  (length_readTlvAt _).1 0 d r d' h

end Decoder

namespace Element

mutual
def tags : Element → List Tag
  | primitive t _ | raw t _ => [t]
  | constructed t children => t :: tagsAll children
  | verbatim _ => []

def tagsAll : List Element → List Tag
  | [] => []
  | e :: es => tags e ++ tagsAll es
end

def wide (t : Tag) : Bool := 2 ^ 28 ≤ t.number

lemma length_tagOctets_wide (t : Tag) : (tagOctets t).length = tagSize t + [t].countP wide := by
  rw [length_tagOctets, countP_singleton, wide]
  by_cases h : t.number < 2 ^ 28
  · rw [if_pos h, if_neg (by rw [decide_eq_true_eq]; omega)]
  · rw [if_neg h, if_pos (by rw [decide_eq_true_eq]; omega)]

mutual
theorem length_encode_wide : (e : Element) → e.encode.length = e.size + e.tags.countP wide
  | primitive t value | raw t value => by
    simp only [encode, size, tags, List.length_append, length_tagOctets_wide, length_lengthOctets]
    omega
  | constructed t children => by
    have hall := length_encodeAll_wide children
    have hcnt : (t :: tagsAll children).countP wide = [t].countP wide + (tagsAll children).countP wide := by
      rw [← countP_append, singleton_append]
    simp only [encode, size, tags, length_append, length_tagOctets_wide, length_lengthOctets, hcnt]
    omega
  | verbatim tlv => rfl

theorem length_encodeAll_wide : (es : List Element) → (encodeAll es).length = sizes es + (tagsAll es).countP wide
  | [] => rfl
  | e :: es => by
    have hfst := length_encode_wide e
    have hall := length_encodeAll_wide es
    simp only [encodeAll, sizes, tagsAll, length_append, countP_append]
    omega
end

/-- No tag of a tree is wide. -/
def Narrow (e : Element) : Prop := ∀ t ∈ e.tags, t.number < 2 ^ 28
deriving Decidable

variable {e : Element} {t : Tag}

lemma narrow_iff : e.Narrow ↔ e.tags.countP wide = 0 := by
  rw [countP_eq_zero, Narrow]
  apply forall₂_congr
  intro t _
  simp [wide]

lemma size_eq_length_iff : e.size = e.encode.length ↔ e.Narrow := by
  rw [length_encode_wide, narrow_iff]
  omega

mutual
def ReadBack : Element → (d next : Decoder) → Prop
  | primitive t value, d, next => d.readTlv = .ok ((t, value), next)
  | raw t content, d, next => d.readTlv = .ok ((t, content), next)
  | constructed t children, d, next => d.readTlv = .ok ((t, encodeAll children), next) ∧
      ReadBackAll children (.new (encodeAll children)) ⟨(encodeAll children).length, []⟩
  | verbatim tlv, d, next => d.rest = tlv ++ next.rest ∧ next.off = d.off + tlv.length

def ReadBackAll : List Element → (d next : Decoder) → Prop
  | [], d, next => d = next
  | e :: es, d, next => ∃ mid, e.ReadBack d mid ∧ ReadBackAll es mid next
end

lemma length_content_le (e : Element) : e.content.length ≤ e.encode.length := by
  cases e with
  | verbatim tlv => exact Nat.le_refl _
  | primitive t value | raw t value | constructed t value =>
    simp only [encode, content, length_append]
    omega

mutual
theorem readBack_encode : (e : Element) → e.Narrow → e.content.length < 2 ^ 32 → ∀ off rest,
    e.ReadBack ⟨off, e.encode ++ rest⟩ ⟨off + e.encode.length, rest⟩
  | primitive t value, h, hlen, off, rest | raw t value, h, hlen, off, rest => by
    have ht : t.number < 2 ^ 28 := h t mem_cons_self
    have hrd : Decoder.readTlv ⟨off, tagOctets t ++ (lengthOctets value.length ++ (value ++ rest))⟩ = _ :=
      readTlv_octets (by omega) hlen
    simp only [ReadBack, encode, append_assoc, hrd, length_append, length_lengthOctets, Nat.add_assoc]
  | constructed t children, h, hlen, off, rest => by
    have ht : t.number < 2 ^ 28 := h t mem_cons_self
    have hchildren : ∀ t ∈ tagsAll children, t.number < 2 ^ 28 := fun t ht => h t (mem_cons_of_mem _ ht)
    -- The length that is written is the one computed from the sizes of the children.
    have hsizes : sizes children = (encodeAll children).length := by
      have hz : (tagsAll children).countP wide = 0 := by
        rw [countP_eq_zero]
        intro t ht
        have hfits := hchildren t ht
        rw [wide, decide_eq_true_eq]
        omega
      rw [length_encodeAll_wide, hz, Nat.add_zero]
    have hrd : Decoder.readTlv ⟨off, tagOctets t ++ (lengthOctets (encodeAll children).length ++
        (encodeAll children ++ rest))⟩ = _ := readTlv_octets (by omega) hlen
    have hall := readBackAll_encodeAll children hchildren hlen 0 []
    rw [append_nil, Nat.zero_add] at hall
    refine ⟨?_, hall⟩
    simp only [encode, hsizes, append_assoc, hrd, length_append, length_lengthOctets, Nat.add_assoc]
  | verbatim tlv, _, _, off, rest => ⟨rfl, rfl⟩

theorem readBackAll_encodeAll : (es : List Element) → (∀ t ∈ tagsAll es, t.number < 2 ^ 28) →
    (encodeAll es).length < 2 ^ 32 → ∀ off rest,
    ReadBackAll es ⟨off, encodeAll es ++ rest⟩ ⟨off + (encodeAll es).length, rest⟩
  | [], _, _, off, rest => rfl
  | e :: es, h, hlen, off, rest => by
    simp only [encodeAll, List.length_append] at hlen
    have hle := length_content_le e
    refine ⟨⟨off + e.encode.length, encodeAll es ++ rest⟩, ?_, ?_⟩
    · rw [encodeAll, append_assoc]
      exact readBack_encode e (fun t ht => h t (mem_append_left _ ht)) (by omega) off _
    · rw [encodeAll, length_append, ← Nat.add_assoc]
      exact readBackAll_encodeAll es (fun t ht => h t (mem_append_right _ ht)) (by omega) _ rest
end

lemma readTlv_narrow {off : ℕ} {rest : List UInt8} (ht : e.ownTag = some t) (h : e.Narrow)
    (hlen : e.content.length < 2 ^ 32) :
    Decoder.readTlv ⟨off, e.encode ++ rest⟩ = .ok ((t, e.content), ⟨off + e.encode.length, rest⟩) := by
  have hbk := readBack_encode e h hlen off rest
  cases e with
  | verbatim tlv => cases ht
  | constructed t' children =>
    cases ht
    exact hbk.1
  | primitive t' value | raw t' value =>
    cases ht
    exact hbk

lemma length_encode_narrow (ht : e.ownTag = some t) :
    e.content.length + 2 ≤ e.encode.length ∧ e.encode.length ≤ e.content.length + 11 := by
  have hhead (t : Tag) (n : ℕ) : 2 ≤ (tagOctets t).length + lengthSize n ∧ (tagOctets t).length + lengthSize n ≤ 11 := by
    rw [length_tagOctets]
    unfold tagSize lengthSize
    split_ifs <;> omega
  cases e with
  | verbatim tlv => cases ht
  | primitive t' value | raw t' value =>
    have := hhead t' value.length
    simp only [encode, content, length_append, length_lengthOctets]
    omega
  | constructed t' children =>
    have := hhead t' (sizes children)
    simp only [encode, content, length_append, length_lengthOctets]
    omega

/-- The size of a tree is the length of its encoding, from which the tree is read back with nothing else
consumed, exactly when no tag number of it takes more than four groups. -/
theorem tree_round_trip_iff (e : Element) (hlen : e.content.length < 2 ^ 32) : (e.size = e.encode.length ∧
      ∀ off rest, e.ReadBack ⟨off, e.encode ++ rest⟩ ⟨off + e.encode.length, rest⟩) ↔ e.Narrow := by
  constructor
  · intro h
    exact size_eq_length_iff.mp h.1
  · intro h
    exact ⟨size_eq_length_iff.mpr h, readBack_encode e h hlen⟩

def sampleTree : Element :=
  cons (contextConstructed 72)
    [prim tagInteger [5], cons tagSequence [prim (contextPrimitive 0) []], rawContent (contextConstructed 1) [5, 0],
      rawTlv [5, 0]]

theorem tree_round_trip_sample : sampleTree.Narrow ∧ sampleTree.size = sampleTree.encode.length ∧
    ∀ off rest, sampleTree.ReadBack ⟨off, sampleTree.encode ++ rest⟩ ⟨off + sampleTree.encode.length, rest⟩ :=
  ⟨by decide, (tree_round_trip_iff sampleTree (by decide)).mpr (by decide)⟩

def wideTree : Element := cons tagSequence [prim (contextPrimitive (2 ^ 28)) [7]]

/-- The length of the sequence is one octet short, so that its last octet is left behind. -/
theorem wide_tree_cut : wideTree.size = 9 ∧ wideTree.encode.length = 10 ∧ Decoder.readTlv ⟨0, wideTree.encode⟩ =
        .ok ((tagSequence, [0x9f, 0x81, 0x80, 0x80, 0x80, 0x00, 0x01]), ⟨9, [7]⟩) := by
  decide +kernel

end Element

open Decoder

/-- An object identifier as a sequence of arcs. -/
abbrev Oid := List ℕ

namespace Oid

/-- The arcs with one more number read; the first number stands for two arcs. -/
def push (arcs : Oid) (v : ℕ) : Oid :=
  if arcs.isEmpty then
    let first := min (v / 40) 2
    [first, v - first * 40]
  else arcs ++ [v]

end Oid

open Oid List Option

def decodeOidFrom : (v n : ℕ) → (arcs : Oid) → List UInt8 → Except Error Oid
  | _, n, arcs, [] => if n ≠ 0 then .error (.badValue "truncated OID arc") else .ok arcs
  | v, n, arcs, b :: rest =>
    if 5 ≤ n then .error (.badValue "OID arc too large")
    else
      let v := (v * 128 + b.toNat % 128) % 2 ^ 32
      if b.toNat < 128 then decodeOidFrom 0 0 (arcs.push v) rest else decodeOidFrom v (n + 1) arcs rest

def decodeOid (content : List UInt8) : Except Error Oid :=
  if content.isEmpty then .error (.badValue "empty OID") else decodeOidFrom 0 0 [] content

/-- The number that at most `left` octets spell in base 128, with `v` read before them. -/
def number : (left v : ℕ) → List UInt8 → Option ℕ
  | 0, _, _ | _, _, [] => none
  | left + 1, v, b :: rest =>
    let v := v * 128 + b.toNat % 128
    if b.toNat < 128 then some v else number left v rest

/-- The numbers that octets spell one after the other, each with at most five of them. -/
def numbers : (v n : ℕ) → List UInt8 → Option (List ℕ)
  | _, n, [] => if n ≠ 0 then none else some []
  | v, n, b :: rest =>
    if 5 ≤ n then none
    else
      let v := v * 128 + b.toNat % 128
      if b.toNat < 128 then (numbers 0 0 rest).map (v :: ·) else numbers v (n + 1) rest

def tagNumber : List UInt8 → Option ℕ
  | [] => none
  | b :: rest => if b.toNat % 32 ≠ 31 then some (b.toNat % 32) else number 5 0 rest

def oidNumbers (content : List UInt8) : Option (List ℕ) := if content.isEmpty then none else numbers 0 0 content

lemma wrapped_step (v s : ℕ) : (v % 2 ^ 32 * 128 + s) % 2 ^ 32 = (v * 128 + s) % 2 ^ 32 := by omega

lemma readHighTag_eq_number (left v off : ℕ) (rest : List UInt8) :
    (Decoder.readHighTag left (v % 2 ^ 32) ⟨off, rest⟩).toOption.map Prod.fst =
      (number left v rest).map (· % 2 ^ 32) := by
  induction left generalizing v off rest with
  | zero => cases rest <;> rfl
  | succ left ih =>
    rcases rest with _ | ⟨b, rest⟩
    · rfl
    unfold readHighTag number
    rw [wrapped_step]
    split
    · rfl
    · exact ih _ _ _

/-- The decoder reads the number of a tag modulo 32 bits. -/
lemma number_readTag (d : Decoder) :
    d.readTag.toOption.map (fun r => r.1.number) = (tagNumber d.rest).map (· % 2 ^ 32) := by
  obtain ⟨off, rest⟩ := d
  rcases rest with _ | ⟨b, rest⟩
  · rfl
  dsimp only [readTag, tagNumber]
  split
  · have hlt : b.toNat % 32 % 2 ^ 32 = b.toNat % 32 := by omega
    rw [map_some, hlt]
    rfl
  have hnumber := readHighTag_eq_number 5 0 (off + 1) rest
  rw [← hnumber, Nat.zero_mod]
  cases readHighTag 5 0 ⟨off + 1, rest⟩ <;> rfl

lemma toOption_decodeOidFrom (v n : ℕ) (arcs : Oid) (content : List UInt8) :
    (decodeOidFrom (v % 2 ^ 32) n arcs content).toOption =
      (numbers v n content).map fun vs => (vs.map (· % 2 ^ 32)).foldl push arcs := by
  induction content generalizing v n arcs with
  | nil =>
    unfold decodeOidFrom numbers
    split <;> rfl
  | cons b rest ih =>
    unfold decodeOidFrom numbers
    split
    · rfl
    dsimp only
    rw [wrapped_step]
    split
    · rw [Option.map_map]
      exact ih 0 0 _
    · exact ih _ _ _

/-- And it reads so the numbers of an identifier. -/
lemma toOption_decodeOid (content : List UInt8) :
    (decodeOid content).toOption = (oidNumbers content).map fun vs => (vs.map (· % 2 ^ 32)).foldl push [] := by
  unfold decodeOid oidNumbers
  split
  · rfl
  · exact toOption_decodeOidFrom 0 0 [] content

lemma foldl_push {arcs : Oid} (h : arcs ≠ []) (vs : List ℕ) : vs.foldl push arcs = arcs ++ vs := by
  induction vs generalizing arcs with
  | nil => simp
  | cons v vs ih =>
    rw [foldl_cons, push, if_neg (by simpa using h), ih (by simp), append_assoc, singleton_append]

lemma foldl_push_cons (v : ℕ) (vs : List ℕ) :
    (v :: vs).foldl push [] = min (v / 40) 2 :: (v - min (v / 40) 2 * 40) :: vs :=
  foldl_push (by simp [push]) vs

lemma foldl_push_wrapped_iff (vs : List ℕ) :
    (vs.map (· % 2 ^ 32)).foldl push [] = vs.foldl push [] ↔ ∀ v ∈ vs, v < 2 ^ 32 := by
  have hwrapped (ws : List ℕ) : ws.map (· % 2 ^ 32) = ws ↔ ∀ v ∈ ws, v < 2 ^ 32 := by
    induction ws with
    | nil => simp
    | cons w ws ih =>
      rw [map_cons, cons.injEq, ih, forall_mem_cons, Nat.mod_eq_iff_lt (by decide)]
  rcases vs with _ | ⟨v, vs⟩
  · simp
  have hfst : min (v % 2 ^ 32 / 40) 2 = min (v / 40) 2 ∧
      v % 2 ^ 32 - min (v % 2 ^ 32 / 40) 2 * 40 = v - min (v / 40) 2 * 40 ↔ v < 2 ^ 32 := by omega
  rw [map_cons, foldl_push_cons, foldl_push_cons, cons.injEq, cons.injEq, hwrapped,
    forall_mem_cons, ← and_assoc, hfst]

/-- A decoder that wraps what the octets say is right about what it accepts exactly when there is nothing to wrap. -/
lemma forall_ok_iff {ε α β γ : Type} {x : Except ε α} {g : α → γ} {said : Option β} {wrap f : β → γ}
    {Fits : β → Prop} (h : x.toOption.map g = said.map wrap) (hfits : ∀ s, wrap s = f s ↔ Fits s) :
    (∀ r, x = .ok r → said.map f = some (g r)) ↔ ∀ s, said = some s → Fits s := by
  rcases x with e | r
  · cases said with
    | none => simp
    | some s => cases h
  cases said with
  | none => cases h
  | some s =>
    have hwrap : g r = wrap s := some.inj h
    simp [hwrap, ← hfits, eq_comm]

/-- What the tag decoder and the identifier decoder accept is what the octets say, exactly when the
numbers in them fit in 32 bits. -/
theorem base128_exact_iff (d : Decoder) (content : List UInt8) :
    ((∀ r, d.readTag = .ok r → tagNumber d.rest = some r.1.number) ∧
      ∀ o, decodeOid content = .ok o → (oidNumbers content).map (·.foldl push []) = some o) ↔
    (∀ v, tagNumber d.rest = some v → v < 2 ^ 32) ∧ ∀ vs, oidNumbers content = some vs → ∀ v ∈ vs, v < 2 ^ 32 := by
  apply and_congr
  · have hrd := forall_ok_iff (f := id) (number_readTag d) fun v => Nat.mod_eq_iff_lt (by decide)
    simpa only [Option.map_id, id_eq] using hrd
  apply forall_ok_iff (g := id) _ foldl_push_wrapped_iff
  rw [Option.map_id]
  exact toOption_decodeOid content

/-- Thirty-five bits are cut to 32: a tag and an arc that say `2 ^ 32` are read as zero. -/
theorem septets_cut :
    tagNumber [0x1f, 0x90, 0x80, 0x80, 0x80, 0] = some (2 ^ 32) ∧
      (readTag ⟨0, [0x1f, 0x90, 0x80, 0x80, 0x80, 0]⟩).map (fun r => r.1.number) = .ok 0 ∧
      oidNumbers [0x28, 0x90, 0x80, 0x80, 0x80, 0] = some [40, 2 ^ 32] ∧
      decodeOid [0x28, 0x90, 0x80, 0x80, 0x80, 0] = .ok [1, 0, 0] := by
  decide

def Oid.display (o : Oid) : String := Text.join '.' (o.map Nat.repr)

/-- The arcs that the dotted text of an identifier shows. -/
def Oid.ofText (s : String) : Oid := (Text.split '.' s).map fun arc => Nat.ofDigitChars 10 arc.toList 0

/-- The octets of a number, and what follows. The source marks all but the last of them at the end. -/
def base128 : (left mark v : ℕ) → List UInt8 → List UInt8
  | 0, _, _, rest => rest
  | left + 1, mark, v, rest =>
    let rest := UInt8.ofNat (v % 128 + mark) :: rest
    if v / 128 = 0 then rest else base128 left 128 (v / 128) rest

def appendBase128 (v : ℕ) (rest : List UInt8) : List UInt8 := base128 5 0 v rest

/-- The content of an identifier. The first number wraps at 32 bits where the machine does not check. -/
def appendOid : Oid → List UInt8
  | a :: b :: arcs => appendBase128 ((a * 40 + b) % 2 ^ 32) (arcs.foldr appendBase128 [])
  | _ => []

variable {v n left : ℕ} {vs : List ℕ} {arcs : Oid} {rest : List UInt8}

lemma decodeOidFrom_mark (d : ℕ) (h : n < 5) : decodeOidFrom v n arcs (UInt8.ofNat (d % 128 + 128) :: rest) =
    decodeOidFrom ((v * 128 + d % 128) % 2 ^ 32) (n + 1) arcs rest := by
  have hoctet : (UInt8.ofNat (d % 128 + 128)).toNat = d % 128 + 128 := Text.toNat_ofNat_of_lt (by omega)
  have hdigit : (d % 128 + 128) % 128 = d % 128 := by omega
  rw [decodeOidFrom, if_neg (by omega)]
  dsimp only
  rw [hoctet, if_neg (by omega), hdigit]

lemma decodeOidFrom_last (d : ℕ) (h : n < 5) : decodeOidFrom v n arcs (UInt8.ofNat (d % 128) :: rest) =
    decodeOidFrom 0 0 (arcs.push ((v * 128 + d % 128) % 2 ^ 32)) rest := by
  have hoctet : (UInt8.ofNat (d % 128)).toNat = d % 128 := Text.toNat_ofNat_of_lt (by omega)
  rw [decodeOidFrom, if_neg (by omega)]
  dsimp only
  rw [hoctet, if_pos (by omega), Nat.mod_mod]

lemma decodeOidFrom_base128 (hleft : left < 5) (hv : v < 128 ^ left) (h : v < 2 ^ 32) : ∃ n ≤ left, ∀ arcs rest,
    decodeOidFrom 0 0 arcs (base128 left 128 v rest) = decodeOidFrom v n arcs rest := by
  induction left generalizing v with
  | zero =>
    obtain rfl : v = 0 := by simpa using hv
    exact ⟨0, le_rfl, fun _ _ => rfl⟩
  | succ left ih =>
    have hsp : (v / 128 * 128 + v % 128) % 2 ^ 32 = v := by omega
    by_cases hls : v / 128 = 0
    · refine ⟨1, by omega, ?_⟩
      intro arcs rest
      rw [hls] at hsp
      rw [base128, if_pos hls, decodeOidFrom_mark v (by decide), hsp]
    rw [pow_succ] at hv
    obtain ⟨n, hn, hrd⟩ := ih (by omega) (by omega : v / 128 < 128 ^ left) (by omega)
    refine ⟨n + 1, by omega, ?_⟩
    intro arcs rest
    rw [base128, if_neg hls, hrd, decodeOidFrom_mark v (by omega), hsp]

lemma decodeOidFrom_append (h : v < 2 ^ 32) :
    decodeOidFrom 0 0 arcs (appendBase128 v rest) = decodeOidFrom 0 0 (arcs.push v) rest := by
  have hsp : (v / 128 * 128 + v % 128) % 2 ^ 32 = v := by omega
  by_cases hls : v / 128 = 0
  · rw [hls] at hsp
    rw [appendBase128, base128, if_pos hls, Nat.add_zero, decodeOidFrom_last v (by decide), hsp]
  obtain ⟨n, hn, hrd⟩ := decodeOidFrom_base128 (by decide : 4 < 5) (by omega : v / 128 < 128 ^ 4) (by omega)
  rw [appendBase128, base128, if_neg hls, hrd, Nat.add_zero, decodeOidFrom_last v (by omega), hsp]

lemma decodeOidFrom_arcs (h : ∀ v ∈ vs, v < 2 ^ 32) :
    decodeOidFrom 0 0 arcs (vs.foldr appendBase128 []) = .ok (vs.foldl push arcs) := by
  induction vs generalizing arcs with
  | nil => rfl
  | cons v vs ih =>
    rw [forall_mem_cons] at h
    rw [foldr_cons, decodeOidFrom_append h.1, ih h.2, foldl_cons]

lemma decodeOid_arcs (h : ∀ w ∈ v :: vs, w < 2 ^ 32) :
    decodeOid ((v :: vs).foldr appendBase128 []) = .ok (min (v / 40) 2 :: (v - min (v / 40) 2 * 40) :: vs) := by
  have hrd : decodeOidFrom 0 0 [] _ = _ := decodeOidFrom_arcs h
  rw [foldl_push_cons] at hrd
  generalize (v :: vs).foldr appendBase128 [] = content at hrd ⊢
  rcases content with _ | ⟨b, rest⟩
  · cases hrd
  · exact hrd

lemma ofText_display {o : Oid} (h : o ≠ []) : ofText o.display = o := by
  have hdigits (n : ℕ) : (Nat.repr n).toList = Nat.toDigits 10 n := by simp [Nat.repr]
  have hcln : ∀ p ∈ o.map Nat.repr, '.' ∉ p.toList := by
    intro p hp hdot
    obtain ⟨n, -, rfl⟩ := mem_map.mp hp
    rw [hdigits] at hdot
    exact absurd (Nat.isDigit_of_mem_toDigits (by decide) (by decide) hdot) (by decide)
  rw [ofText, display, Text.split_join hcln (by simpa using h), List.map_map]
  simp [Function.comp_def]

/-- An identifier comes back from its octets and its text exactly when its first two arcs fit in one number. -/
theorem oid_round_trip_iff {a b : ℕ} {arcs : List ℕ} (ha : a ≤ 2) (hb : a < 2 → b < 40)
    (h : ∀ v ∈ a :: b :: arcs, v < 2 ^ 32) :
    (decodeOid (appendOid (a :: b :: arcs)) = .ok (a :: b :: arcs) ∧
      ofText (display (a :: b :: arcs)) = a :: b :: arcs) ↔ a * 40 + b < 2 ^ 32 := by
  rw [forall_mem_cons, forall_mem_cons] at h
  have hdecode : decodeOid (appendOid (a :: b :: arcs)) = _ :=
    decodeOid_arcs (forall_mem_cons.mpr ⟨Nat.mod_lt (a * 40 + b) (by decide), h.2.2⟩)
  rw [hdecode, ofText_display (cons_ne_nil _ _), Except.ok.injEq, cons.injEq, cons.injEq]
  simp only [and_true]
  obtain rfl | hlt : a = 2 ∨ a < 2 := by omega
  · omega
  · have hb := hb hlt
    rw [Nat.mod_eq_of_lt (by omega)]
    omega

theorem oid_round_trip_at : decodeOid (appendOid [1, 0, 9506, 2, 1]) = .ok [1, 0, 9506, 2, 1] ∧
    ofText (display [1, 0, 9506, 2, 1]) = [1, 0, 9506, 2, 1] :=
  (oid_round_trip_iff (by decide) (by decide) (by decide)).mpr (by decide)

theorem joint_arc_wraps : decodeOid (appendOid [2, 2 ^ 32 - 1]) = .ok [1, 39] := by decide +kernel

end Iec61850.Asn1
