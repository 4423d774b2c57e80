import Iec61850.MmsValue
import Mathlib.Tactic.Ring

/-! BER elements as they are built for encoding, with their sizes and octets, and their reading from octets. -/
namespace Iec61850.Asn1
open List

inductive Class where
  | universal
  | application
  | contextSpecific
  | priv
deriving DecidableEq

structure Tag where
  cls : Class
  constructed : Bool
  number : ℕ
deriving DecidableEq

def tagInteger : Tag := ⟨.universal, false, 2⟩
def tagSequence : Tag := ⟨.universal, true, 16⟩
def tagVisibleString : Tag := ⟨.universal, false, 26⟩
def contextPrimitive (n : ℕ) : Tag := ⟨.contextSpecific, false, n⟩
def contextConstructed (n : ℕ) : Tag := ⟨.contextSpecific, true, n⟩

def Class.bits : Class → ℕ
  | .universal => 0
  | .application => 1
  | .contextSpecific => 2
  | .priv => 3

def highTagOctets (n : ℕ) : List UInt8 :=
  let groups :=
    if n < 2 ^ 7 then [n]
    else if n < 2 ^ 14 then [n / 2 ^ 7, n]
    else if n < 2 ^ 21 then [n / 2 ^ 14, n / 2 ^ 7, n]
    else if n < 2 ^ 28 then [n / 2 ^ 21, n / 2 ^ 14, n / 2 ^ 7, n]
    else [n / 2 ^ 28, n / 2 ^ 21, n / 2 ^ 14, n / 2 ^ 7, n]
  groups.dropLast.map (fun g => UInt8.ofNat (g % 128 + 128)) ++ [UInt8.ofNat (n % 128)]

def tagOctets (t : Tag) : List UInt8 :=
  let b := t.cls.bits * 64 + (if t.constructed then 32 else 0)
  if t.number < 31 then [UInt8.ofNat (b + t.number)]
  else UInt8.ofNat (b + 31) :: highTagOctets t.number

def lengthOctets (n : ℕ) : List UInt8 :=
  if n < 0x80 then [UInt8.ofNat n]
  else if n ≤ 0xff then [0x81, UInt8.ofNat n]
  else if n ≤ 0xffff then [0x82, UInt8.ofNat (n / 2 ^ 8), UInt8.ofNat n]
  else if n ≤ 0xffffff then
    [0x83, UInt8.ofNat (n / 2 ^ 16), UInt8.ofNat (n / 2 ^ 8), UInt8.ofNat n]
  else
    [0x84, UInt8.ofNat (n / 2 ^ 24), UInt8.ofNat (n / 2 ^ 16), UInt8.ofNat (n / 2 ^ 8), UInt8.ofNat n]

def tagSize (t : Tag) : ℕ :=
  if t.number ≤ 30 then 1
  else if t.number < 2 ^ 7 then 2
  else if t.number < 2 ^ 14 then 3
  else if t.number < 2 ^ 21 then 4
  else 5

def lengthSize (n : ℕ) : ℕ :=
  if n ≤ 0x7f then 1
  else if n ≤ 0xff then 2
  else if n ≤ 0xffff then 3
  else if n ≤ 0xffffff then 4
  else 5

/-- An element: content octets under a primitive tag, child elements, content encoded before, or whole elements
encoded before, without a tag of their own. -/
inductive Element where
  | primitive (tag : Tag) (value : List UInt8)
  | constructed (tag : Tag) (children : List Element)
  | raw (tag : Tag) (content : List UInt8)
  | verbatim (tlv : List UInt8)

def prim (tag : Tag) (value : List UInt8) : Element := .primitive tag value

def cons (tag : Tag) (children : List Element) : Element :=
  .constructed { tag with constructed := true } children

def rawContent (tag : Tag) (content : List UInt8) : Element := .raw { tag with constructed := true } content
def rawTlv (tlv : List UInt8) : Element := .verbatim tlv

namespace Element

mutual
def size : Element → ℕ
  | primitive tag value => tagSize tag + lengthSize value.length + value.length
  | constructed tag children =>
    let n := sizes children
    tagSize tag + lengthSize n + n
  | raw tag content => tagSize tag + lengthSize content.length + content.length
  | verbatim tlv => tlv.length

def sizes : List Element → ℕ
  | [] => 0
  | e :: es => size e + sizes es
end

mutual
def encode : Element → List UInt8
  | primitive tag value => tagOctets tag ++ lengthOctets value.length ++ value
  | constructed tag children => tagOctets tag ++ lengthOctets (sizes children) ++ encodeAll children
  | raw tag content => tagOctets tag ++ lengthOctets content.length ++ content
  | verbatim tlv => tlv

def encodeAll : List Element → List UInt8
  | [] => []
  | e :: es => encode e ++ encodeAll es
end

end Element

def intSize (v : ℤ) : ℕ → ℕ
  | 0 => 1
  | fuel + 1 => if -0x80 ≤ v ∧ v ≤ 0x7f then 1 else 1 + intSize (v / 256) fuel

def uintSize (v : ℕ) : ℕ → ℕ
  | 0 => 1
  | fuel + 1 => if v ≤ 0x7f then 1 else 1 + uintSize (v / 256) fuel

def beOctets (v : ℤ) (n : ℕ) : List UInt8 :=
  (List.range n).reverse.map fun i => UInt8.ofNat (v / 256 ^ i % 256).toNat

def intElem (t : Tag) (v : Int64) : Element := prim t (beOctets v.toInt (intSize v.toInt 8))
def uintElem (t : Tag) (v : UInt64) : Element := prim t (beOctets v.toNat (uintSize v.toNat 9))
def boolElem (t : Tag) (v : Bool) : Element := prim t [if v then 0xff else 0x00]

def bitStringOctets (bs : Mms.BitString) : List UInt8 :=
  UInt8.ofNat (((bs.bits.length * 8 : ℤ) - bs.length) % 256).toNat :: bs.bits

def bitStringElem (t : Tag) (bs : Mms.BitString) : Element := prim t (bitStringOctets bs)

def float32Octets (bits : UInt32) : List UInt8 := 8 :: beOctets bits.toNat 4
def float64Octets (bits : UInt64) : List UInt8 := 11 :: beOctets bits.toNat 8

def ofOctets (octets : List UInt8) : ℕ := octets.foldl (fun n b => n * 256 + b.toNat) 0

lemma beOctets_succ (v : ℤ) (n : ℕ) : beOctets v (n + 1) = UInt8.ofNat (v / 256 ^ n % 256).toNat :: beOctets v n := by
  rw [beOctets, range_succ, reverse_append]
  rfl

lemma emod_mul_digit (v a b : ℤ) (ha : 0 ≤ a) : v % (a * b) = v % a + a * (v / a % b) := by
  have hdiv : v / (a * b) = v / a / b := (Int.ediv_ediv_of_nonneg ha).symm
  rw [Int.emod_def v (a * b), Int.emod_def v a, Int.emod_def (v / a) b, hdiv]
  ring

lemma foldl_beOctets (v : ℤ) (n acc : ℕ) :
    (((beOctets v n).foldl (fun n b => n * 256 + b.toNat) acc : ℕ) : ℤ) = acc * 256 ^ n + v % 256 ^ n := by
  induction n generalizing acc with
  | zero => simp [beOctets]
  | succ n ih =>
    have hoctet : ((UInt8.ofNat (v / 256 ^ n % 256).toNat).toNat : ℤ) = v / 256 ^ n % 256 := by
      rw [UInt8.toNat_ofNat']
      omega
    have hsplit : v % 256 ^ (n + 1) = v % 256 ^ n + 256 ^ n * (v / 256 ^ n % 256) := by
      exact emod_mul_digit v (256 ^ n) 256 (by positivity)
    calc (((beOctets v (n + 1)).foldl (fun n b => n * 256 + b.toNat) acc : ℕ) : ℤ)
      _ = (acc * 256 + v / 256 ^ n % 256) * 256 ^ n + v % 256 ^ n := by
        rw [beOctets_succ, foldl_cons, ih]
        push_cast
        rw [hoctet]
      _ = acc * 256 ^ (n + 1) + v % 256 ^ (n + 1) := by
        rw [hsplit]
        ring

lemma ofOctets_beOctets (v : ℤ) (n : ℕ) : (ofOctets (beOctets v n) : ℤ) = v % 256 ^ n := by
  rw [ofOctets, foldl_beOctets]
  simp

lemma ofOctets_beOctets_of_lt {v n : ℕ} (h : v < 256 ^ n) : ofOctets (beOctets v n) = v := by
  have hrd := ofOctets_beOctets v n
  have hmod : (v : ℤ) % 256 ^ n = v := by
    apply Int.emod_eq_of_lt (Int.natCast_nonneg v)
    exact_mod_cast h
  rw [hmod] at hrd
  exact_mod_cast hrd

open Element UInt8

/-- What is wrong with the octets, and where. -/
inductive Error where
  | truncated (what : String) (offset : ℕ)
  | badTag (what : String) (offset : ℕ)
  | badLength (what : String) (offset : ℕ)
  | tooDeep (offset : ℕ)
  | unexpected (expected got : Tag) (offset : ℕ)
  | badValue (what : String)
deriving DecidableEq

def maxDepth : ℕ := 64

def Class.fromBits : ℕ → Class
  | 0 => .universal
  | 1 => .application
  | 2 => .contextSpecific
  | _ => .priv

/-- A place in octets: how many were read, and those that were not. -/
structure Decoder where
  off : ℕ := 0
  rest : List UInt8
deriving DecidableEq

namespace Decoder

def new (data : List UInt8) : Decoder := { rest := data }

def more (d : Decoder) : Bool := !d.rest.isEmpty

def readHighTag : (left : ℕ) → (number : ℕ) → Decoder → Except Error (ℕ × Decoder)
  | _, _, ⟨off, []⟩ => .error (.truncated "reading tag" off)
  | 0, _, ⟨off, _ :: _⟩ => .error (.badTag "tag number too large" off)
  | left + 1, number, ⟨off, c :: rest⟩ =>
    let number := (number * 128 + c.toNat % 128) % 2 ^ 32
    if c.toNat < 128 then .ok (number, ⟨off + 1, rest⟩) else readHighTag left number ⟨off + 1, rest⟩

def readTag (d : Decoder) : Except Error (Tag × Decoder) :=
  match d.rest with
  | [] => .error (.truncated "reading tag" d.off)
  | b :: rest =>
    let t : Tag := ⟨Class.fromBits (b.toNat / 64), b.toNat / 32 % 2 == 1, b.toNat % 32⟩
    if t.number ≠ 31 then .ok (t, ⟨d.off + 1, rest⟩)
    else (readHighTag 5 0 ⟨d.off + 1, rest⟩).map fun (number, d) => ({ t with number := number }, d)

def readLength (d : Decoder) : Except Error ((ℕ × Bool) × Decoder) :=
  match d.rest with
  | [] => .error (.truncated "reading length" d.off)
  | b :: rest =>
    if b.toNat < 128 then .ok ((b.toNat, false), ⟨d.off + 1, rest⟩)
    else if b.toNat = 128 then .ok ((0, true), ⟨d.off + 1, rest⟩)
    else
      let octets := b.toNat - 128
      if 4 < octets then .error (.badLength "length overflows" (d.off + 1))
      else if rest.length < octets then .error (.truncated "reading length" (d.off + 1))
      else .ok ((ofOctets (rest.take octets), false), ⟨d.off + 1 + octets, rest.drop octets⟩)

mutual
/-- The tag and the content of the next element. More `fuel` than octets is enough. -/
def readTlvAt : (fuel depth : ℕ) → Decoder → Except Error ((Tag × List UInt8) × Decoder)
  | 0, _, d => .error (.tooDeep d.off)
  | fuel + 1, depth, d =>
    if maxDepth < depth then .error (.tooDeep d.off)
    else
      match readTag d with
      | .error e => .error e
      | .ok (t, d) =>
        match readLength d with
        | .error e => .error e
        | .ok ((n, false), d) =>
          if d.rest.length < n then .error (.truncated "reading content" d.off)
          else .ok ((t, d.rest.take n), ⟨d.off + n, d.rest.drop n⟩)
        | .ok ((_, true), d) =>
          if t.constructed then (scan fuel depth d d).map fun (content, d) => ((t, content), d)
          else .error (.badLength "indefinite length on primitive" d.off)

/-- The content of an element of indefinite length, up to the two zero octets that end it. -/
def scan : (fuel depth : ℕ) → (start : Decoder) → Decoder → Except Error (List UInt8 × Decoder)
  | 0, _, _, d => .error (.tooDeep d.off)
  | fuel + 1, depth, start, d =>
    match d.rest with
    | 0 :: 0 :: rest => .ok (start.rest.take (d.off - start.off), ⟨d.off + 2, rest⟩)
    | _ =>
      match readTlvAt fuel (depth + 1) d with
      | .error e => .error e
      | .ok (_, d) => scan fuel depth start d
end

def readTlv (d : Decoder) : Except Error ((Tag × List UInt8) × Decoder) :=
  readTlvAt (2 * d.rest.length + 1) 0 d

def expect (t : Tag) (d : Decoder) : Except Error (List UInt8 × Decoder) :=
  match d.readTlv with
  | .error e => .error e
  | .ok ((got, content), next) => if got = t then .ok (content, next) else .error (.unexpected t got d.off)

def optional (t : Tag) (d : Decoder) : Except Error (Option (List UInt8) × Decoder) :=
  if d.more then
    match d.readTag with
    | .error e => .error e
    | .ok (got, _) =>
      if got = t then d.readTlv.map fun ((_, content), next) => (some content, next) else .ok (none, d)
  else .ok (none, d)

def expectAll (t : Tag) : (fuel : ℕ) → Decoder → Except Error (List (List UInt8))
  | 0, d => .error (.tooDeep d.off)
  | fuel + 1, d =>
    if d.more then
      match d.expect t with
      | .error e => .error e
      | .ok (content, next) => (expectAll t fuel next).map (content :: ·)
    else .ok []

end Decoder

namespace Element

def ownTag : Element → Option Tag
  | primitive t _ | constructed t _ | raw t _ => some t
  | verbatim _ => none

def tag (e : Element) : Tag := e.ownTag.getD ⟨.universal, false, 0⟩

def content : Element → List UInt8
  | primitive _ value => value
  | constructed _ children => encodeAll children
  | raw _ content => content
  | verbatim tlv => tlv

@[simp] lemma tag_prim (t : Tag) (v : List UInt8) : (prim t v).tag = t := rfl
@[simp] lemma content_prim (t : Tag) (v : List UInt8) : (prim t v).content = v := rfl
@[simp] lemma tag_cons (t : Tag) (es : List Element) : (Asn1.cons t es).tag = { t with constructed := true } := rfl
@[simp] lemma content_cons (t : Tag) (es : List Element) : (Asn1.cons t es).content = encodeAll es := rfl

def LowTag (t : Tag) : Prop := t.number < 128
deriving Decidable

lemma length_highTagOctets (n : ℕ) : (highTagOctets n).length =
    if n < 2 ^ 7 then 1 else if n < 2 ^ 14 then 2 else if n < 2 ^ 21 then 3 else if n < 2 ^ 28 then 4 else 5 := by
  unfold highTagOctets
  repeat' split
  all_goals rfl

lemma length_tagOctets (t : Tag) : (tagOctets t).length = tagSize t + if t.number < 2 ^ 28 then 0 else 1 := by
  unfold tagOctets tagSize
  by_cases hlow : t.number < 31
  · have hsz : t.number ≤ 30 := by omega
    have hfits : t.number < 2 ^ 28 := by omega
    simp only [hlow, hsz, hfits, if_true]
    rfl
  have hsz : ¬ t.number ≤ 30 := by omega
  simp only [hlow, hsz, if_false]
  rw [length_cons, length_highTagOctets]
  repeat' split
  all_goals omega

lemma length_tagOctets_of_lt {t : Tag} (h : t.number < 2 ^ 28) : (tagOctets t).length = tagSize t := by
  rw [length_tagOctets, if_pos h, Nat.add_zero]

lemma LowTag.lt {t : Tag} (h : LowTag t) : t.number < 2 ^ 28 := Nat.lt_trans h (by decide)

lemma length_lengthOctets (n : ℕ) : (lengthOctets n).length = lengthSize n := by
  unfold lengthOctets lengthSize
  by_cases h1 : n < 0x80
  · rw [if_pos h1, if_pos (by omega)]
    rfl
  rw [if_neg h1, if_neg (by omega : ¬ n ≤ 0x7f)]
  repeat' split
  all_goals rfl

end Element

variable {off : ℕ} {rest : List UInt8}
open Element

lemma readHighTag_groups (groups : List ℕ) (last : ℕ) {left number : ℕ} (h : groups.length < left) :
    Decoder.readHighTag left number
        ⟨off, groups.map (fun g => UInt8.ofNat (g % 128 + 128)) ++ UInt8.ofNat (last % 128) :: rest⟩ =
      .ok ((groups ++ [last]).foldl (fun number g => (number * 128 + g % 128) % 2 ^ 32) number,
        ⟨off + (groups.length + 1), rest⟩) := by
  induction groups generalizing left number off with
  | nil =>
    obtain ⟨left, rfl⟩ : ∃ k, left = k + 1 := ⟨left - 1, by rw [length_nil] at h; omega⟩
    have hls : (ofNat (last % 128)).toNat = last % 128 := by
      rw [toNat_ofNat']
      omega
    simp only [map_nil, nil_append, Decoder.readHighTag, hls, Nat.mod_mod, foldl_cons,
      foldl_nil, length_nil, Nat.zero_add]
    rw [if_pos (Nat.mod_lt _ (by decide))]
  | cons g groups ih =>
    obtain ⟨left, rfl⟩ : ∃ k, left = k + 1 := ⟨left - 1, by rw [length_cons] at h; omega⟩
    rw [length_cons] at h
    have hmark : (ofNat (g % 128 + 128)).toNat = g % 128 + 128 := by
      rw [toNat_ofNat']
      omega
    have hgroup : (g % 128 + 128) % 128 = g % 128 := by omega
    simp only [map_cons, cons_append, Decoder.readHighTag, hmark, hgroup, foldl_cons]
    rw [if_neg (by omega), ih (by omega)]
    simp only [length_cons]
    congr 3
    omega

lemma readHighTag_highTagOctets {n : ℕ} (h : n < 2 ^ 32) : Decoder.readHighTag 5 0 ⟨off, highTagOctets n ++ rest⟩ =
      .ok (n, ⟨off + (highTagOctets n).length, rest⟩) := by
  unfold highTagOctets
  -- One case for each number of groups, which spell `n`.
  have hrd (groups : List ℕ) (hsh : groups.length < 5)
      (hn : (groups ++ [n]).foldl (fun number g => (number * 128 + g % 128) % 2 ^ 32) 0 = n) :
      Decoder.readHighTag 5 0
          ⟨off, groups.map (fun g => ofNat (g % 128 + 128)) ++ [ofNat (n % 128)] ++ rest⟩ =
        .ok (n, ⟨off + (groups.length + 1), rest⟩) := by
    rw [append_assoc, singleton_append, readHighTag_groups groups n hsh, hn]
  by_cases h7 : n < 2 ^ 7
  · simp only [h7, if_true]
    refine hrd [] (by simp) ?_
    simp only [nil_append, foldl_cons, foldl_nil]
    omega
  by_cases h14 : n < 2 ^ 14
  · simp only [h7, h14, if_false, if_true]
    refine hrd [n / 2 ^ 7] (by simp) ?_
    simp only [cons_append, nil_append, foldl_cons, foldl_nil]
    omega
  by_cases h21 : n < 2 ^ 21
  · simp only [h7, h14, h21, if_false, if_true]
    refine hrd [n / 2 ^ 14, n / 2 ^ 7] (by simp) ?_
    simp only [cons_append, nil_append, foldl_cons, foldl_nil]
    omega
  by_cases h28 : n < 2 ^ 28
  · simp only [h7, h14, h21, h28, if_false, if_true]
    refine hrd [n / 2 ^ 21, n / 2 ^ 14, n / 2 ^ 7] (by simp) ?_
    simp only [cons_append, nil_append, foldl_cons, foldl_nil]
    omega
  simp only [h7, h14, h21, h28, if_false]
  refine hrd [n / 2 ^ 28, n / 2 ^ 21, n / 2 ^ 14, n / 2 ^ 7] (by simp) ?_
  simp only [cons_append, nil_append, foldl_cons, foldl_nil]
  omega

variable {t : Tag}

lemma readTag_tagOctets (h : t.number < 2 ^ 32) :
    Decoder.readTag ⟨off, tagOctets t ++ rest⟩ = .ok (t, ⟨off + (tagOctets t).length, rest⟩) := by
  obtain ⟨cls, con, number⟩ := t
  have hclass : cls.bits < 4 := by cases cls <;> decide
  have hbits : Class.fromBits cls.bits = cls := by cases cls <;> rfl
  -- The first octet tells the class, the kind and a small number.
  have hfst (k : ℕ) (hk : k < 32) :
      (ofNat (cls.bits * 64 + (if con then 32 else 0) + k)).toNat = cls.bits * 64 + (if con then 32 else 0) + k := by
    cases con <;> simp <;> omega
  have hkd (k : ℕ) (hk : k < 32) :
      ((cls.bits * 64 + (if con then 32 else 0) + k) / 32 % 2 == 1) = con := by
    cases con <;> simp <;> omega
  have htop (k : ℕ) (hk : k < 32) : (cls.bits * 64 + (if con then 32 else 0) + k) / 64 = cls.bits := by
    cases con <;> simp <;> omega
  have hlow (k : ℕ) (hk : k < 32) : (cls.bits * 64 + (if con then 32 else 0) + k) % 32 = k := by
    cases con <;> simp <;> omega
  unfold Decoder.readTag tagOctets
  by_cases hn : number < 31
  · have hne : number ≠ 31 := by omega
    simp only [hn, if_true, cons_append, nil_append, hfst number (by omega),
      hkd number (by omega), htop number (by omega), hlow number (by omega), hbits, ne_eq, hne,
      not_false_eq_true, length_cons, length_nil]
  simp only [hn, if_false, cons_append, hfst 31 (by omega), hkd 31 (by omega), htop 31 (by omega),
    hlow 31 (by omega), hbits, ne_eq, not_true_eq_false, readHighTag_highTagOctets h, length_cons, Except.map]
  congr 3
  omega

lemma readLength_long {first : UInt8} {octets : List UInt8} (hfst : first.toNat = 128 + octets.length)
    (hpos : 0 < octets.length) (hle : octets.length ≤ 4) :
    Decoder.readLength ⟨off, first :: (octets ++ rest)⟩ =
      .ok ((ofOctets octets, false), ⟨off + (octets.length + 1), rest⟩) := by
  have h1 : ¬ first.toNat < 128 := by omega
  have h2 : first.toNat ≠ 128 := by omega
  have hcnt : first.toNat - 128 = octets.length := by omega
  have h4 : ¬ 4 < octets.length := by omega
  have hrm : ¬ octets.length + rest.length < octets.length := by omega
  unfold Decoder.readLength
  simp only [h1, h2, if_false, hcnt, h4, length_append, hrm, take_left', drop_left']
  rw [Nat.add_assoc, Nat.add_comm 1]

lemma readLength_mod (n : ℕ) :
    Decoder.readLength ⟨off, lengthOctets n ++ rest⟩ = .ok ((n % 2 ^ 32, false), ⟨off + lengthSize n, rest⟩) := by
  unfold lengthOctets lengthSize
  by_cases h1 : n < 0x80
  · have h1' : n ≤ 0x7f := by omega
    have hn : n % 256 = n := by omega
    have hmod : n % 4294967296 = n := by omega
    simp [Decoder.readLength, h1, h1', hn, hmod]
  rw [if_neg h1, if_neg (by omega : ¬ n ≤ 0x7f)]
  -- The longer forms differ in how many octets follow the first.
  have hlong {octets : List UInt8} {first : UInt8} (hfst : first.toNat = 128 + octets.length)
      (hpos : 0 < octets.length) (hle : octets.length ≤ 4) (hn : ofOctets octets = n % 2 ^ 32) :
      Decoder.readLength ⟨off, first :: octets ++ rest⟩ =
        .ok ((n % 2 ^ 32, false), ⟨off + (octets.length + 1), rest⟩) := by
    rw [← hn]
    exact readLength_long hfst hpos hle
  by_cases h2 : n ≤ 0xff
  · rw [if_pos h2, if_pos h2]
    refine hlong rfl (by simp) (by simp) ?_
    simp [ofOctets]
    omega
  rw [if_neg h2, if_neg h2]
  by_cases h3 : n ≤ 0xffff
  · rw [if_pos h3, if_pos h3]
    refine hlong rfl (by simp) (by simp) ?_
    simp [ofOctets]
    omega
  rw [if_neg h3, if_neg h3]
  by_cases h4 : n ≤ 0xffffff
  · rw [if_pos h4, if_pos h4]
    refine hlong rfl (by simp) (by simp) ?_
    simp [ofOctets]
    omega
  rw [if_neg h4, if_neg h4]
  refine hlong rfl (by simp) (by simp) ?_
  simp [ofOctets]
  omega

mutual
def Element.AllLow : Element → Prop
  | .primitive t _ => LowTag t
  | .constructed t children => LowTag t ∧ AllLows children
  | .raw t _ => LowTag t
  | .verbatim _ => False

def Element.AllLows : List Element → Prop
  | [] => True
  | e :: es => e.AllLow ∧ AllLows es
end

mutual
theorem Element.length_encode : (e : Element) → e.AllLow → e.encode.length = e.size
  | .primitive t value, h => by
    have ht : t.number < 2 ^ 28 := LowTag.lt h
    simp only [encode, size, length_append, length_tagOctets_of_lt ht, length_lengthOctets]
  | .constructed t children, h => by
    simp only [encode, size, length_append, length_tagOctets_of_lt h.1.lt,
      length_lengthOctets, length_encodeAll children h.2]
  | .raw t content, h => by
    have ht : t.number < 2 ^ 28 := LowTag.lt h
    simp only [encode, size, length_append, length_tagOctets_of_lt ht, length_lengthOctets]

theorem Element.length_encodeAll : (es : List Element) → AllLows es → (encodeAll es).length = sizes es
  | [], _ => rfl
  | e :: es, h => by
    simp only [encodeAll, sizes, List.length_append, length_encode e h.1, length_encodeAll es h.2]
end

@[simp] lemma Element.sizes_nil : sizes [] = 0 := rfl
@[simp] lemma Element.sizes_cons (e : Element) (es : List Element) : sizes (e :: es) = e.size + sizes es := rfl

variable {es : List Element}

lemma Element.length_content_cons (h : AllLows es) :
    (Asn1.cons t es).content.length = sizes es := length_encodeAll es h

variable {e : Element}

section
variable (h : e.AllLow)
include h

lemma Element.encode_eq : e.encode = tagOctets e.tag ++ (lengthOctets e.content.length ++ e.content) := by
  cases e with
  | primitive t value | raw t value => exact append_assoc _ _ _
  | constructed t children =>
    rw [encode, append_assoc, ← length_encodeAll children h.2]
    rfl
  | verbatim tlv => exact h.elim

lemma Element.AllLow.tag : LowTag e.tag := by
  cases e with
  | primitive t value | raw t value => exact h
  | constructed t children => exact h.1
  | verbatim tlv => exact h.elim

lemma Element.size_eq : e.size = tagSize e.tag + lengthSize e.content.length + e.content.length := by
  rw [← length_encode e h, encode_eq h, length_append, length_append,
    length_tagOctets_of_lt h.tag.lt, length_lengthOctets]
  omega

lemma Element.length_content_lt : e.content.length < e.size := by
  have hpos : 0 < tagSize e.tag := by
    unfold tagSize
    repeat' split
    all_goals omega
  have hsz := size_eq h
  omega

end

lemma tagSize_le (h : LowTag t) : tagSize t ≤ 2 := by
  have h : t.number < 128 := h
  unfold tagSize
  repeat' split
  all_goals omega

lemma lengthSize_le (n : ℕ) : lengthSize n ≤ 5 := by
  unfold lengthSize
  repeat' split
  all_goals omega

lemma Element.size_le (h : e.AllLow) : e.size ≤ e.content.length + 7 := by
  have hsz := size_eq h
  have htag := tagSize_le h.tag
  have hlen := lengthSize_le e.content.length
  omega

lemma Element.size_le_of_short (h : e.AllLow) (htag : e.tag.number ≤ 30) : e.size ≤ e.content.length + 6 := by
  have hsz := size_eq h
  have hlen := lengthSize_le e.content.length
  have hone : tagSize e.tag = 1 := if_pos htag
  omega

mutual
/-- The octets an element takes when each of its parts has an identifier of two octets and a length of five. -/
def Element.room : Element → ℕ
  | .primitive _ value => value.length + 7
  | .constructed _ children => rooms children + 7
  | .raw _ content => content.length + 7
  | .verbatim tlv => tlv.length

def Element.rooms : List Element → ℕ
  | [] => 0
  | e :: es => e.room + rooms es
end

mutual
theorem Element.size_le_room : (e : Element) → e.AllLow → e.size ≤ e.room
  | .primitive _ _, h | .raw _ _, h => size_le h
  | .constructed t children, h => by
    have hle := size_le h
    have hlen : (Element.constructed t children).content.length = _ := length_encodeAll children h.2
    have hrooms := sizes_le_rooms children h.2
    rw [room]
    omega

theorem Element.sizes_le_rooms : (es : List Element) → AllLows es → sizes es ≤ rooms es
  | [], _ => Nat.le_refl 0
  | e :: es, h => Nat.add_le_add (size_le_room e h.1) (sizes_le_rooms es h.2)
end

lemma readTlv_mod (content : List UInt8) (ht : t.number < 2 ^ 32) :
    Decoder.readTlv ⟨off, tagOctets t ++ (lengthOctets content.length ++ (content ++ rest))⟩ =
      .ok ((t, content.take (content.length % 2 ^ 32)),
        ⟨off + (tagOctets t).length + lengthSize content.length + content.length % 2 ^ 32,
          content.drop (content.length % 2 ^ 32) ++ rest⟩) := by
  have hle : content.length % 2 ^ 32 ≤ content.length := Nat.mod_le _ _
  have hrm : ¬ (content ++ rest).length < content.length % 2 ^ 32 := by
    rw [length_append]
    omega
  unfold Decoder.readTlv Decoder.readTlvAt
  rw [if_neg (by decide), readTag_tagOctets ht]
  dsimp only
  rw [readLength_mod]
  dsimp only
  rw [if_neg hrm, take_append_of_le_length hle, drop_append_of_le_length hle]

lemma readTlv_octets {content : List UInt8} (ht : t.number < 2 ^ 32) (hlen : content.length < 2 ^ 32) :
    Decoder.readTlv ⟨off, tagOctets t ++ (lengthOctets content.length ++ (content ++ rest))⟩ =
      .ok ((t, content), ⟨off + (tagOctets t).length + lengthSize content.length + content.length, rest⟩) := by
  rw [readTlv_mod content ht, Nat.mod_eq_of_lt hlen, take_length, drop_length, nil_append]

lemma readTlv_encode (h : e.AllLow) (hlen : e.content.length < 2 ^ 32) :
    Decoder.readTlv ⟨off, e.encode ++ rest⟩ = .ok ((e.tag, e.content), ⟨off + e.size, rest⟩) := by
  have ht := h.tag.lt
  rw [encode_eq h, append_assoc, append_assoc, readTlv_octets (by omega) hlen, length_tagOctets_of_lt ht, size_eq h]
  simp only [Nat.add_assoc]

namespace Element

structure Fits (e : Element) : Prop where
  low : e.AllLow
  lt : e.size < 2 ^ 32

structure AllFit (es : List Element) : Prop where
  low : AllLows es
  lt : sizes es < 2 ^ 32

variable {e : Element}

lemma Fits.length_lt (h : e.Fits) : e.content.length < 2 ^ 32 :=
  (length_content_lt h.low).trans h.lt

variable {es : List Element}

lemma Fits.parts (h : (Asn1.cons t es).Fits) : AllFit es := by
  have hlow : AllLows es := h.low.2
  have hlt := h.length_lt
  rw [length_content_cons hlow] at hlt
  exact ⟨hlow, hlt⟩

lemma AllFit.head (h : AllFit (e :: es)) : e.Fits :=
  ⟨h.low.1, (Nat.le_add_right _ _).trans_lt h.lt⟩

lemma AllFit.tail (h : AllFit (e :: es)) : AllFit es :=
  ⟨h.low.2, (Nat.le_add_left _ _).trans_lt h.lt⟩

lemma AllFit.of_mem (h : AllFit es) (he : e ∈ es) : e.Fits := by
  induction es with
  | nil => cases he
  | cons x es ih =>
    cases he with
    | head => exact h.head
    | tail _ he => exact ih h.tail he

lemma allLows_map {α : Type} {f : α → Element} (h : ∀ a, (f a).AllLow) (l : List α) : AllLows (l.map f) := by
  induction l with
  | nil => trivial
  | cons a l ih => exact ⟨h a, ih⟩

end Element

lemma expect_encode (h : e.Fits) (ht : e.tag = t) :
    Decoder.expect t ⟨off, e.encode ++ rest⟩ = .ok (e.content, ⟨off + e.size, rest⟩) := by
  unfold Decoder.expect
  rw [readTlv_encode h.low h.length_lt]
  dsimp only
  rw [if_pos ht]

lemma readTag_encode (h : e.AllLow) : Decoder.readTag ⟨off, e.encode ++ rest⟩ =
      .ok (e.tag, ⟨off + tagSize e.tag, lengthOctets e.content.length ++ (e.content ++ rest)⟩) := by
  have ht := h.tag.lt
  rw [encode_eq h, append_assoc, append_assoc, ← length_tagOctets_of_lt ht]
  apply readTag_tagOctets
  omega

lemma encode_ne_nil (h : e.AllLow) : e.encode ≠ [] := by
  intro hnil
  have hlen := length_encode e h
  have hlt := length_content_lt h
  rw [hnil, length_nil] at hlen
  omega

lemma more_encode (h : e.AllLow) : Decoder.more ⟨off, e.encode ++ rest⟩ := by
  have hne := encode_ne_nil h
  cases he : e.encode with
  | nil => exact absurd he hne
  | cons b bs => rfl

lemma optional_encode (h : e.Fits) (ht : e.tag = t) :
    Decoder.optional t ⟨off, e.encode ++ rest⟩ = .ok (some e.content, ⟨off + e.size, rest⟩) := by
  unfold Decoder.optional
  rw [if_pos (more_encode h.low), readTag_encode h.low]
  dsimp only
  rw [if_pos ht, readTlv_encode h.low h.length_lt]
  rfl

lemma optional_encode_ne (h : e.AllLow) (ht : e.tag ≠ t) :
    Decoder.optional t ⟨off, e.encode ++ rest⟩ = .ok (none, ⟨off, e.encode ++ rest⟩) := by
  unfold Decoder.optional
  rw [if_pos (more_encode h), readTag_encode h]
  dsimp only
  rw [if_neg ht]

lemma encodeAll_cons (e : Element) (es : List Element) : encodeAll (e :: es) = e.encode ++ encodeAll es :=
  rfl

lemma new_encode (e : Element) : Decoder.new e.encode = ⟨0, e.encode ++ []⟩ := by
  rw [append_nil]
  rfl

lemma expect_new (h : e.Fits) (ht : e.tag = t) : (Decoder.new e.encode).expect t = .ok (e.content, ⟨e.size, []⟩) := by
  rw [new_encode, expect_encode h ht, Nat.zero_add]

lemma expect_first (h : e.Fits) (ht : e.tag = t) :
    (Decoder.new (encodeAll (e :: es))).expect t = .ok (e.content, ⟨e.size, encodeAll es⟩) := by
  have hnew : Decoder.new (encodeAll (e :: es)) = ⟨0, e.encode ++ encodeAll es⟩ := rfl
  rw [hnew, expect_encode h ht, Nat.zero_add]

lemma expectAll_encodeAll {fuel : ℕ} (h : AllFit es) (ht : ∀ e ∈ es, e.tag = t)
    (hfuel : sizes es < fuel) : Decoder.expectAll t fuel ⟨off, encodeAll es⟩ = .ok (es.map content) := by
  induction es generalizing off fuel with
  | nil =>
    cases fuel with
    | zero => omega
    | succ fuel => rfl
  | cons e es ih =>
    have hlt := length_content_lt h.low.1
    rw [sizes_cons] at hfuel
    cases fuel with
    | zero => omega
    | succ fuel =>
      rw [encodeAll_cons, Decoder.expectAll, if_pos (more_encode h.low.1), expect_encode h.head (ht e mem_cons_self)]
      dsimp only
      rw [ih h.tail (fun x hx => ht x (mem_cons_of_mem e hx)) (by omega)]
      rfl

end Iec61850.Asn1
