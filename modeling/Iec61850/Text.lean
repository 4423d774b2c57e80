import Mathlib.Data.List.DropRight
import Mathlib.Data.List.TakeDrop

/-! Text as the standard library treats it, how splitting and joining relate, and texts on the wire. -/
namespace Iec61850.Text
open List

def split (sep : Char) (s : String) : List String := (s.toList.splitOn sep).map String.ofList

def splitOnce (sep : Char) (s : String) : Option (String × String) :=
  match s.toList.span (· != sep) with
  | (a, _ :: b) => some (String.ofList a, String.ofList b)
  | (_, []) => none

def startsWith (s start : String) : Bool := start.toList.isPrefixOf s.toList

def endsWith (s tail : String) : Bool := tail.toList.isSuffixOf s.toList

def stripSuffix (s tail : String) : Option String :=
  if endsWith s tail then some (String.ofList (s.toList.take (s.toList.length - tail.toList.length)))
  else none

def join (sep : Char) (parts : List String) : String :=
  String.ofList ([sep].intercalate (parts.map String.toList))

def isSpace (c : Char) : Bool :=
  let n := c.toNat
  (9 ≤ n && n ≤ 13) || n == 0x20 || n == 0x85 || n == 0xa0 || n == 0x1680 ||
    (0x2000 ≤ n && n ≤ 0x200a) || n == 0x2028 || n == 0x2029 || n == 0x202f || n == 0x205f ||
    n == 0x3000

def trim (s : String) : String :=
  String.ofList ((s.toList.dropWhile isSpace).reverse.dropWhile isSpace).reverse

def toAsciiUppercase (s : String) : String :=
  String.ofList (s.toList.map fun c =>
    if 0x61 ≤ c.toNat ∧ c.toNat ≤ 0x7a then Char.ofNat (c.toNat - 0x20) else c)

def eqIgnoreAsciiCase (s t : String) : Bool := toAsciiUppercase s == toAsciiUppercase t

def replace (a b : Char) (s : String) : String :=
  String.ofList (s.toList.map fun c => if c = a then b else c)

def trimEndDigits (s : String) : String :=
  String.ofList (s.toList.reverse.dropWhile fun c => 0x30 ≤ c.toNat && c.toNat ≤ 0x39).reverse

def octets (s : String) : List UInt8 := s.toUTF8.data.toList

def replacement : Char := Char.ofNat 0xfffd

def isContinuation (b : UInt8) : Bool := 0x80 ≤ b && b ≤ 0xbf

def secondOfThree (a b : UInt8) : Bool :=
  if a = 0xe0 then 0xa0 ≤ b && b ≤ 0xbf
  else if a = 0xed then 0x80 ≤ b && b ≤ 0x9f
  else isContinuation b

def secondOfFour (a b : UInt8) : Bool :=
  if a = 0xf0 then 0x90 ≤ b && b ≤ 0xbf
  else if a = 0xf4 then 0x80 ≤ b && b ≤ 0x8f
  else isContinuation b

/-- The character that starts with octet `a` and goes on in `rest`, and how many octets of `rest` it takes. The
longest start of an ill-formed character is one replacement character. -/
def lossyChar (a : UInt8) (rest : List UInt8) : Char × ℕ :=
  let x := a.toNat
  if x < 0x80 then (Char.ofNat x, 0)
  else if 0xc2 ≤ x ∧ x ≤ 0xdf then
    match rest with
    | b :: _ =>
      if isContinuation b then (Char.ofNat ((x - 0xc0) * 64 + (b.toNat - 0x80)), 1)
      else (replacement, 0)
    | [] => (replacement, 0)
  else if 0xe0 ≤ x ∧ x ≤ 0xef then
    match rest with
    | b :: c :: _ =>
      if !secondOfThree a b then (replacement, 0)
      else if !isContinuation c then (replacement, 1)
      else (Char.ofNat (((x - 0xe0) * 64 + (b.toNat - 0x80)) * 64 + (c.toNat - 0x80)), 2)
    | [b] => (replacement, if secondOfThree a b then 1 else 0)
    | [] => (replacement, 0)
  else if 0xf0 ≤ x ∧ x ≤ 0xf4 then
    match rest with
    | b :: c :: d :: _ =>
      if !secondOfFour a b then (replacement, 0)
      else if !isContinuation c then (replacement, 1)
      else if !isContinuation d then (replacement, 2)
      else
        (Char.ofNat ((((x - 0xf0) * 64 + (b.toNat - 0x80)) * 64 + (c.toNat - 0x80)) * 64 + (d.toNat - 0x80)), 3)
    | [b, c] =>
      (replacement, if !secondOfFour a b then 0 else if isContinuation c then 2 else 1)
    | [b] => (replacement, if secondOfFour a b then 1 else 0)
    | [] => (replacement, 0)
  else (replacement, 0)

def lossyChars : ℕ → List UInt8 → List Char
  | _, [] => []
  | skip + 1, _ :: rest => lossyChars skip rest
  | 0, a :: rest =>
    let c := lossyChar a rest
    c.1 :: lossyChars c.2 rest

def fromUtf8Lossy (b : List UInt8) : String := String.ofList (lossyChars 0 b)

def padded (width n : ℕ) : String :=
  let digits := (Nat.repr n).toList
  String.ofList (List.replicate (width - digits.length) '0' ++ digits)

def paddedInt (width : ℕ) (n : ℤ) : String :=
  if n < 0 then "-" ++ padded (width - 1) n.natAbs else padded width n.natAbs

def upperChar (c : Char) : Char :=
  if 0x61 ≤ c.toNat ∧ c.toNat ≤ 0x7a then Char.ofNat (c.toNat - 0x20) else c

lemma toAsciiUppercase_eq (s : String) : toAsciiUppercase s = String.ofList (s.toList.map upperChar) := rfl

lemma toNat_upperChar {c : Char} (h : 0x61 ≤ c.toNat ∧ c.toNat ≤ 0x7a) : (upperChar c).toNat = c.toNat - 0x20 := by
  have hall : ∀ n < 0x7b, 0x61 ≤ n → (Char.ofNat (n - 0x20)).toNat = n - 0x20 := by decide
  rw [upperChar, if_pos h]
  exact hall c.toNat (by omega) h.1

lemma upperChar_upperChar (c : Char) : upperChar (upperChar c) = upperChar c := by
  by_cases h : 0x61 ≤ c.toNat ∧ c.toNat ≤ 0x7a
  · have hn := toNat_upperChar h
    have hout : ¬ (0x61 ≤ (upperChar c).toNat ∧ (upperChar c).toNat ≤ 0x7a) := by omega
    exact if_neg hout
  · have hself : upperChar c = c := if_neg h
    rw [hself, hself]

lemma isSpace_upperChar (c : Char) : isSpace (upperChar c) = isSpace c := by
  by_cases h : 0x61 ≤ c.toNat ∧ c.toNat ≤ 0x7a
  · have hall : ∀ n < 0x7b, 0x41 ≤ n → isSpace (Char.ofNat n) = false := by decide
    have hn := toNat_upperChar h
    have hup := hall (upperChar c).toNat (by omega) (by omega)
    have hlow := hall c.toNat (by omega) (by omega)
    rw [Char.ofNat_toNat] at hup hlow
    rw [hup, hlow]
  · have hself : upperChar c = c := if_neg h
    rw [hself]

lemma toAsciiUppercase_idem (s : String) : toAsciiUppercase (toAsciiUppercase s) = toAsciiUppercase s := by
  have hfun : upperChar ∘ upperChar = upperChar := funext upperChar_upperChar
  simp only [toAsciiUppercase_eq, String.toList_ofList, map_map, hfun]

lemma trim_eq (s : String) : trim s = String.ofList ((s.toList.dropWhile isSpace).rdropWhile isSpace) := rfl

lemma dropWhile_map_upper (l : List Char) :
    (l.map upperChar).dropWhile isSpace = (l.dropWhile isSpace).map upperChar := by
  have hfun : isSpace ∘ upperChar = isSpace := funext isSpace_upperChar
  rw [dropWhile_map, hfun]

lemma trim_toAsciiUppercase (s : String) : trim (toAsciiUppercase s) = toAsciiUppercase (trim s) := by
  simp only [trim, toAsciiUppercase_eq, String.toList_ofList, dropWhile_map_upper, ← map_reverse]

lemma trim_trim (s : String) : trim (trim s) = trim s := by
  have hleft : ((s.toList.dropWhile isSpace).rdropWhile isSpace).dropWhile isSpace =
      (s.toList.dropWhile isSpace).rdropWhile isSpace := by
    apply dropWhile_eq_self_iff.mpr
    intro hpos
    -- What is left after both trims begins as after the first.
    have hprefix := rdropWhile_prefix isSpace (s.toList.dropWhile isSpace)
    have hhead := hprefix.getElem hpos
    rw [hhead]
    have hfst := dropWhile_eq_self_iff.mp (dropWhile_idempotent s.toList (p := isSpace))
    exact hfst (hpos.trans_le hprefix.length_le)
  simp only [trim_eq, String.toList_ofList, hleft, rdropWhile_idempotent]

lemma not_mem_of_mem_splitOn {α : Type} [BEq α] [LawfulBEq α] {a : α} {xs l : List α}
    (h : l ∈ xs.splitOn a) : a ∉ l := by
  induction xs generalizing l with
  | nil =>
    have hl : l = [] := by simpa using h
    simp [hl]
  | cons x xs ih =>
    rw [splitOn_cons_eq_if_modifyHead] at h
    split at h
    · rcases mem_cons.mp h with rfl | h
      · simp
      · exact ih h
    next hx =>
    -- The new element goes to the front of the first piece.
    obtain ⟨p, ps, hps⟩ := exists_cons_of_ne_nil (splitOn_ne_nil a xs)
    rw [hps, modifyHead_cons] at h
    rcases mem_cons.mp h with rfl | h
    · have hp : a ∉ p := ih (by simp [hps])
      have hxa : a ≠ x := by
        rintro rfl
        simp at hx
      simp [hp, hxa]
    · exact ih (by simp [hps, h])

variable {sep : Char} {s a b t : String}

lemma not_mem_of_mem_split (h : a ∈ split sep s) : sep ∉ a.toList := by
  obtain ⟨l, hl, rfl⟩ := mem_map.mp h
  rw [String.toList_ofList]
  exact not_mem_of_mem_splitOn hl

lemma split_of_not_mem (h : sep ∉ s.toList) : split sep s = [s] := by
  simp [split, splitOn_eq_singleton h]

lemma split_append (ht : t.toList = [sep]) : split sep (a ++ t ++ b) = split sep a ++ split sep b := by
  have hl : (a ++ t ++ b).toList = a.toList ++ sep :: b.toList := by simp [ht]
  rw [split, hl, splitOn_append_cons_self, map_append]
  rfl

lemma split_ne_nil (sep : Char) (s : String) : split sep s ≠ [] := by
  intro h
  exact splitOn_ne_nil sep s.toList (map_eq_nil_iff.mp h)

lemma split_injective (sep : Char) : Function.Injective (split sep) := by
  intro s t h
  have hpcs := map_injective_iff.mpr (fun _ _ => String.ofList_injective) h
  have hjoined := congrArg [sep].intercalate hpcs
  rw [intercalate_splitOn, intercalate_splitOn] at hjoined
  exact String.toList_injective hjoined

lemma eq_of_split_eq_singleton (h : split sep s = [a]) : s = a := by
  obtain ⟨l, hl, ha⟩ := map_eq_singleton_iff.mp h
  have hs : [sep].intercalate (s.toList.splitOn sep) = s.toList := intercalate_splitOn sep
  rw [hl] at hs
  have hl' : l = s.toList := by simpa [intercalate] using hs
  rw [← ha, hl', String.ofList_toList]

section
variable (ht : t.toList = [sep])
include ht

lemma append_inj {a' b' : String} (h : a ++ t ++ b = a' ++ t ++ b')
    (ha' : sep ∉ a'.toList) (hb' : sep ∉ b'.toList) : a = a' ∧ b = b' := by
  have hl : a'.toList ++ sep :: b'.toList = a.toList ++ sep :: b.toList := by
    have hlist := congrArg String.toList h.symm
    simpa [ht] using hlist
  obtain ⟨ha, -, hb⟩ := (append_cons_inj_of_notMem ha' hb').mp hl
  exact ⟨String.toList_injective ha.symm, String.toList_injective hb.symm⟩

lemma pieces_inj {c a' b' c' : String}
    (h : a ++ t ++ b ++ t ++ c = a' ++ t ++ b' ++ t ++ c') (ha : sep ∉ a.toList) (hb : sep ∉ b.toList)
    (hc : sep ∉ c.toList) (hb' : sep ∉ b'.toList) : a = a' ∧ b = b' ∧ c = c' := by
  have hpcs : [a, b, c] = split sep a' ++ [b'] ++ split sep c' := by
    have hs := congrArg (split sep) h
    rw [split_append ht, split_append ht, split_append ht, split_append ht, split_of_not_mem ha,
      split_of_not_mem hb, split_of_not_mem hc, split_of_not_mem hb'] at hs
    exact hs
  obtain ⟨x, xs, hx⟩ := exists_cons_of_ne_nil (split_ne_nil sep a')
  obtain ⟨y, ys, hy⟩ := exists_cons_of_ne_nil (split_ne_nil sep c')
  have hlen := congrArg length hpcs
  rw [hx, hy] at hlen hpcs
  obtain ⟨rfl, rfl⟩ : xs = [] ∧ ys = [] := by
    simp only [length_cons, length_nil, length_append] at hlen
    exact ⟨length_eq_zero_iff.mp (by omega), length_eq_zero_iff.mp (by omega)⟩
  obtain ⟨rfl, rfl, rfl⟩ : a = x ∧ b = b' ∧ c = y := by simpa using hpcs
  exact ⟨(eq_of_split_eq_singleton hx).symm, rfl, (eq_of_split_eq_singleton hy).symm⟩

lemma eq_of_splitOnce (h : splitOnce sep s = some (a, b)) : s = a ++ t ++ b := by
  unfold splitOnce at h
  rw [span_eq_takeWhile_dropWhile] at h
  split at h
  next l c r heq =>
    obtain ⟨hl, hr⟩ := Prod.mk.inj heq
    obtain ⟨rfl, rfl⟩ : String.ofList l = a ∧ String.ofList r = b := by simpa using h
    have hc : c = sep := by
      have hhead := head?_dropWhile_not (fun x => x != sep) s.toList
      simpa [hr] using hhead
    have hcat := takeWhile_append_dropWhile (p := fun x => x != sep) (l := s.toList)
    rw [hl, hr, hc] at hcat
    apply String.toList_injective
    simp [ht, ← hcat]
  · cases h

end

lemma splitOnce_of_mem (h : sep ∈ s.toList) : ∃ a b, splitOnce sep s = some (a, b) := by
  unfold splitOnce
  rw [span_eq_takeWhile_dropWhile]
  cases hd : s.toList.dropWhile fun x => x != sep with
  | cons c r => exact ⟨_, _, rfl⟩
  | nil =>
    have hall := dropWhile_eq_nil_iff.mp hd
    simpa using hall sep h

lemma startsWith_iff : startsWith s a ↔ ∃ rest, s = a ++ rest := by
  rw [startsWith, isPrefixOf_iff_prefix]
  constructor
  · rintro ⟨l, hl⟩
    refine ⟨String.ofList l, String.toList_injective ?_⟩
    rw [String.toList_append, String.toList_ofList, hl]
  · rintro ⟨rest, rfl⟩
    exact ⟨rest.toList, String.toList_append.symm⟩

lemma split_join {parts : List String} (h : ∀ p ∈ parts, sep ∉ p.toList) (hne : parts ≠ []) :
    split sep (join sep parts) = parts := by
  have hcln : ∀ l ∈ parts.map String.toList, sep ∉ l := by simpa using h
  rw [split, join, String.toList_ofList, splitOn_intercalate sep hcln (by simpa using hne), map_map]
  simp

/-- The pieces of a text start those of another one if and only if the other is the same text or goes on after it
with a separator. -/
theorem split_prefix_iff (ht : t.toList = [sep]) : split sep a <+: split sep b ↔ b = a ∨ startsWith b (a ++ t) := by
  rw [startsWith_iff]
  constructor
  · rintro ⟨pieces, hpcs⟩
    rcases pieces with _ | ⟨p, ps⟩
    · exact .inl (split_injective sep (by rw [← hpcs, append_nil]))
    have hjoin : split sep (join sep (p :: ps)) = p :: ps :=
      split_join (fun x hx => not_mem_of_mem_split (hpcs ▸ mem_append_right _ hx)) (by simp)
    refine .inr ⟨join sep (p :: ps), split_injective sep ?_⟩
    rw [split_append ht, hjoin, hpcs]
  rintro (rfl | ⟨rest, rfl⟩)
  · exact prefix_rfl
  · rw [split_append ht]
    exact prefix_append _ _

lemma not_mem_of_splitOnce (h : splitOnce sep s = some (a, b)) : sep ∉ a.toList := by
  unfold splitOnce at h
  rw [span_eq_takeWhile_dropWhile] at h
  split at h
  next l c r heq =>
    obtain ⟨rfl, -⟩ : String.ofList l = a ∧ String.ofList r = b := by simpa using h
    rw [String.toList_ofList, ← (Prod.mk.inj heq).1]
    intro hm
    simpa using mem_takeWhile_imp hm
  · cases h

open UInt8

lemma octets_eq (s : String) : octets s = s.toList.flatMap String.utf8EncodeChar := by
  have h : s.toUTF8 = (s.toList.flatMap String.utf8EncodeChar).toByteArray := by
    conv_lhs => rw [← String.ofList_toList (s := s)]
    rfl
  unfold octets
  rw [h]
  simp

lemma lossyChars_skip (tail rest : List UInt8) : lossyChars tail.length (tail ++ rest) = lossyChars 0 rest := by
  induction tail with
  | nil => rfl
  | cons b tail ih =>
    rw [length_cons, cons_append, lossyChars]
    exact ih

lemma isContinuation_iff {b : UInt8} : isContinuation b ↔ 128 ≤ b.toNat ∧ b.toNat ≤ 191 := by
  simp [isContinuation, le_iff_toNat_le]

lemma isContinuation_ofNat (n : ℕ) : isContinuation (UInt8.ofNat (n % 64 + 128)) := by
  rw [isContinuation_iff, toNat_ofNat']
  omega

lemma secondOfThree_of {a b : UInt8} (h : isContinuation b) (hsh : a.toNat = 0xe0 → 0xa0 ≤ b.toNat)
    (hsurrogate : a.toNat = 0xed → b.toNat ≤ 0x9f) : secondOfThree a b := by
  have hb := isContinuation_iff.mp h
  unfold secondOfThree
  split
  next ha =>
    subst ha
    simpa [le_iff_toNat_le] using ⟨hsh rfl, hb.2⟩
  split
  next ha =>
    subst ha
    simpa [le_iff_toNat_le] using ⟨hb.1, hsurrogate rfl⟩
  · exact h

lemma secondOfFour_of {a b : UInt8} (h : isContinuation b) (hsh : a.toNat = 0xf0 → 0x90 ≤ b.toNat)
    (hlarge : a.toNat = 0xf4 → b.toNat ≤ 0x8f) : secondOfFour a b := by
  have hb := isContinuation_iff.mp h
  unfold secondOfFour
  split
  next ha =>
    subst ha
    simpa [le_iff_toNat_le] using ⟨hsh rfl, hb.2⟩
  split
  next ha =>
    subst ha
    simpa [le_iff_toNat_le] using ⟨hb.1, hlarge rfl⟩
  · exact h

lemma toNat_ofNat_of_lt {n : ℕ} (h : n < 256) : (UInt8.ofNat n).toNat = n := by
  rw [toNat_ofNat']
  omega

lemma lossyChars_encodeChar (c : Char) (rest : List UInt8) :
    lossyChars 0 (String.utf8EncodeChar c ++ rest) = c :: lossyChars 0 rest := by
  -- One octet is read for the character, and the others are skipped.
  have hrd {a : UInt8} {tail : List UInt8} (henc : String.utf8EncodeChar c = a :: tail)
      (hchar : lossyChar a (tail ++ rest) = (c, tail.length)) :
      lossyChars 0 (String.utf8EncodeChar c ++ rest) = c :: lossyChars 0 rest := by
    rw [henc, cons_append, lossyChars, hchar]
    rw [lossyChars_skip]
  have hval : Char.ofNat c.val.toNat = c := Char.ofNat_toNat c
  have hvalid : c.val.toNat < 0xd800 ∨ 0xdfff < c.val.toNat ∧ c.val.toNat < 0x110000 := c.valid
  have henc := String.utf8EncodeChar.eq_def c
  generalize c.val.toNat = v at hval hvalid henc
  by_cases h1 : v ≤ 127
  · rw [if_pos h1] at henc
    apply hrd henc
    have ha := toNat_ofNat_of_lt (n := v) (by omega)
    unfold lossyChar
    simp only [ha, show v < 128 by omega, if_true, hval, length_nil]
  rw [if_neg h1] at henc
  by_cases h2 : v ≤ 2047
  · rw [if_pos h2] at henc
    apply hrd henc
    have ha := toNat_ofNat_of_lt (n := v / 64 % 32 + 192) (by omega)
    have hb := toNat_ofNat_of_lt (n := v % 64 + 128) (by omega)
    have hcont := isContinuation_ofNat v
    have hv : (v / 64 % 32 + 192 - 192) * 64 + (v % 64 + 128 - 128) = v := by omega
    unfold lossyChar
    simp only [cons_append, nil_append, ha, hb, hcont, if_true, hv, hval, length_singleton]
    rw [if_neg (by omega), if_pos (by omega)]
  rw [if_neg h2] at henc
  by_cases h3 : v ≤ 65535
  · rw [if_pos h3] at henc
    apply hrd henc
    have ha := toNat_ofNat_of_lt (n := v / 4096 % 16 + 224) (by omega)
    have hb := toNat_ofNat_of_lt (n := v / 64 % 64 + 128) (by omega)
    have hc := toNat_ofNat_of_lt (n := v % 64 + 128) (by omega)
    have hcontb := isContinuation_ofNat (v / 64)
    have hcontc := isContinuation_ofNat v
    have hv : ((v / 4096 % 16 + 224 - 224) * 64 + (v / 64 % 64 + 128 - 128)) * 64 + (v % 64 + 128 - 128) = v := by
      omega
    -- No second octet that a shorter character or a surrogate would have.
    have hsnd := secondOfThree_of (a := ofNat (v / 4096 % 16 + 224)) hcontb (by omega) (by omega)
    unfold lossyChar
    simp only [cons_append, nil_append, ha, hb, hc, hsnd, hcontc, Bool.not_true,
      Bool.false_eq_true, if_false, hv, hval]
    rw [if_neg (by omega), if_neg (by omega), if_pos (by omega)]
    rfl
  rw [if_neg h3] at henc
  apply hrd henc
  have ha := toNat_ofNat_of_lt (n := v / 262144 % 8 + 240) (by omega)
  have hb := toNat_ofNat_of_lt (n := v / 4096 % 64 + 128) (by omega)
  have hc := toNat_ofNat_of_lt (n := v / 64 % 64 + 128) (by omega)
  have hd := toNat_ofNat_of_lt (n := v % 64 + 128) (by omega)
  have hcontb := isContinuation_ofNat (v / 4096)
  have hcontc := isContinuation_ofNat (v / 64)
  have hcontd := isContinuation_ofNat v
  have hv : (((v / 262144 % 8 + 240 - 240) * 64 + (v / 4096 % 64 + 128 - 128)) * 64 +
      (v / 64 % 64 + 128 - 128)) * 64 + (v % 64 + 128 - 128) = v := by
    omega
  have hsnd := secondOfFour_of (a := ofNat (v / 262144 % 8 + 240)) hcontb (by omega) (by omega)
  unfold lossyChar
  simp only [cons_append, nil_append, ha, hb, hc, hd, hsnd, hcontc, hcontd, Bool.not_true,
    Bool.false_eq_true, if_false, hv, hval]
  rw [if_neg (by omega), if_neg (by omega), if_neg (by omega), if_pos (by omega)]
  rfl

lemma fromUtf8Lossy_octets (s : String) : fromUtf8Lossy (octets s) = s := by
  have h (cs : List Char) : lossyChars 0 (cs.flatMap String.utf8EncodeChar) = cs := by
    induction cs with
    | nil => rfl
    | cons c cs ih => rw [flatMap_cons, lossyChars_encodeChar, ih]
  rw [octets_eq, fromUtf8Lossy, h, String.ofList_toList]

end Iec61850.Text
