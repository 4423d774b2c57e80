import Iec61850.Asn1Decoder
import Iec61850.Outcome

/-! The decoder as a cursor over a buffer. -/
namespace Iec61850.Asn1
open Stateful List Outcome

/-- The octets of a buffer from one position to before another. -/
structure Slice where
  start : ℕ
  stop : ℕ

def Slice.octets (s : Slice) (data : List UInt8) : List UInt8 := (data.drop s.start).take (s.stop - s.start)

structure Cursor where
  data : List UInt8
  off : ℕ

/-- A computation of the decoder, which aborts at an index out of range and when a loop or a recursion takes
too long. -/
abbrev Reading (α : Type) := Stateful Cursor Error α

namespace Cursor

def new (data : List UInt8) : Cursor := { data := data, off := 0 }

def more (c : Cursor) : Bool := c.off < c.data.length

def octetAt (i : ℕ) : Reading UInt8 := do
  let c ← get
  lift (Outcome.index c.data i)

def sliceAt (i j : ℕ) : Reading Slice := do
  let c ← get
  if i ≤ j ∧ j ≤ c.data.length then pure ⟨i, j⟩ else abort

def advance (n : ℕ) : Reading Unit := modify fun c => { c with off := c.off + n }

def rest : Reading Slice := do
  let c ← get
  sliceAt c.off c.data.length

/-- The octets of a tag number of 31 or more: five at most. -/
def readHighTag : (left number : ℕ) → Reading ℕ
  | 0, _ => do
    let c ← get
    if c.data.length ≤ c.off then fail (.truncated "reading tag" c.off)
    else fail (.badTag "tag number too large" c.off)
  | left + 1, number => do
    let c ← get
    if c.data.length ≤ c.off then fail (.truncated "reading tag" c.off)
    else
      let o ← octetAt c.off
      advance 1
      let number := (number * 128 + o.toNat % 128) % 2 ^ 32
      if o.toNat < 128 then pure number else readHighTag left number

def readTag : Reading Tag := do
  let c ← get
  if c.data.length ≤ c.off then fail (.truncated "reading tag" c.off)
  else
    let b ← octetAt c.off
    advance 1
    let t : Tag := ⟨Class.fromBits (b.toNat / 64), b.toNat / 32 % 2 == 1, b.toNat % 32⟩
    if t.number ≠ 31 then pure t
    else
      let number ← readHighTag 5 0
      pure { t with number := number }

def readOctets : (count n : ℕ) → Reading ℕ
  | 0, n => pure n
  | count + 1, n => do
    let c ← get
    let o ← octetAt c.off
    advance 1
    readOctets count (n * 256 + o.toNat)

def readLength : Reading (ℕ × Bool) := do
  let c ← get
  if c.data.length ≤ c.off then fail (.truncated "reading length" c.off)
  else
    let b ← octetAt c.off
    advance 1
    if b.toNat < 128 then pure (b.toNat, false)
    else if b.toNat = 128 then pure (0, true)
    else
      let octets := b.toNat - 128
      let c ← get
      if 4 < octets then fail (.badLength "length overflows" c.off)
      else if c.data.length < c.off + octets then fail (.truncated "reading length" c.off)
      else
        let n ← readOctets octets 0
        pure (n, false)

def atEnd : Reading Bool := do
  let c ← get
  if c.off + 2 ≤ c.data.length then
    let a ← octetAt c.off
    if a = 0 then
      let b ← octetAt (c.off + 1)
      pure (b == 0)
    else pure false
  else pure false

def scan (child : Reading (Tag × Slice)) (start : ℕ) : (rounds : ℕ) → Reading Slice
  | 0 => abort
  | rounds + 1 => do
    if ← atEnd then
      let c ← get
      let content ← sliceAt start c.off
      advance 2
      pure content
    else
      let _ ← child
      scan child start rounds

/-- The next element, with `stack` calls left and `rounds` for each loop. -/
def readTlvAt (rounds : ℕ) : (stack depth : ℕ) → Reading (Tag × Slice)
  | 0, _ => abort
  | stack + 1, depth => do
    let c ← get
    if maxDepth < depth then fail (.tooDeep c.off)
    else
      let t ← readTag
      let len ← readLength
      let c ← get
      if len.2 = false then
        let left ← lift (Outcome.sub c.data.length c.off)
        if left < len.1 then fail (.truncated "reading content" c.off)
        else
          let content ← sliceAt c.off (c.off + len.1)
          advance len.1
          pure (t, content)
      else if t.constructed = false then fail (.badLength "indefinite length on primitive" c.off)
      else
        let content ← scan (readTlvAt rounds stack (depth + 1)) c.off rounds
        pure (t, content)

variable (stack rounds : ℕ)

def readTlv : Reading (Tag × Slice) := readTlvAt rounds stack 0

def peek : Reading Tag := do
  let c ← get
  lift (readTag c).1

def peekIs (t : Tag) (c : Cursor) : Bool :=
  match (peek c).1 with
  | .ok got => got = t
  | _ => false

def expect (t : Tag) : Reading Slice := do
  let c ← get
  let tlv ← readTlv stack rounds
  if tlv.1 ≠ t then fail (.unexpected t tlv.1 c.off) else pure tlv.2

def optional (t : Tag) : Reading (Option Slice) := do
  let c ← get
  if !c.more then pure none
  else
    let got ← peek
    if got ≠ t then pure none
    else
      let tlv ← readTlv stack rounds
      pure (some tlv.2)

def skip : Reading Unit := do
  let _ ← readTlv stack rounds
  pure ()

variable {α : Type} {c c' c'' : Cursor} {Q : α → Cursor → Prop} {E : Error → Cursor → Prop}

structure Moved (c c' : Cursor) : Prop where
  data : c'.data = c.data
  le : c.off ≤ c'.off
  within : c'.off ≤ c'.data.length

lemma Moved.refl (h : c.off ≤ c.data.length) : Moved c c := ⟨rfl, Nat.le_refl _, h⟩

lemma Moved.trans (h : Moved c c') (h' : Moved c' c'') : Moved c c'' :=
  ⟨h'.data.trans h.data, Nat.le_trans h.le h'.le, h'.within⟩

def decoder (c : Cursor) : Decoder := ⟨c.off, c.data.drop c.off⟩

lemma decoder_end (h : c.data.length ≤ c.off) : c.decoder = ⟨c.off, []⟩ := by
  rw [decoder, drop_eq_nil_of_le h]

lemma decoder_next (h : c.off < c.data.length) :
    c.decoder = ⟨c.off, c.data[c.off] :: ({ c with off := c.off + 1 } : Cursor).decoder.rest⟩ := by
  rw [decoder, drop_eq_getElem_cons h]
  rfl

lemma length_rest (c : Cursor) : c.decoder.rest.length = c.data.length - c.off := length_drop

lemma moved_one (h : c.off < c.data.length) : Moved c { c with off := c.off + 1 } := ⟨rfl, Nat.le_succ _, h⟩

lemma returns_octetAt_bind {f : UInt8 → Reading α} {i : ℕ} (h : i < c.data.length) :
    (octetAt i >>= f).Returns c Q E ↔ (f c.data[i]).Returns c Q E := by
  have hrd : octetAt i c = (.ok c.data[i], c) := by
    show (index c.data i, c) = _
    rw [index_of_lt h]
  show (Stateful.bind (octetAt i) f).Returns c Q E ↔ _
  unfold Stateful.Returns Stateful.bind
  rw [hrd]

lemma sliceAt_eq {i j : ℕ} (h : i ≤ j) (h' : j ≤ c.data.length) : sliceAt i j c = (.ok ⟨i, j⟩, c) := by
  show (if i ≤ j ∧ j ≤ c.data.length then (pure ⟨i, j⟩ : Reading Slice) else abort) c = _
  rw [if_pos ⟨h, h'⟩]
  rfl

lemma returns_sliceAt_bind {f : Slice → Reading α} {i j : ℕ} (h : i ≤ j) (h' : j ≤ c.data.length) :
    (sliceAt i j >>= f).Returns c Q E ↔ (f ⟨i, j⟩).Returns c Q E := by
  show (Stateful.bind (sliceAt i j) f).Returns c Q E ↔ _
  unfold Stateful.Returns Stateful.bind
  rw [sliceAt_eq h h']

lemma returns_octet_bind {f : UInt8 → Unit → Reading α} (h : c.off < c.data.length) :
    (octetAt c.off >>= fun o => advance 1 >>= f o).Returns c Q E ↔
      (f c.data[c.off] ()).Returns { c with off := c.off + 1 } Q E := by
  rw [returns_octetAt_bind h]
  rfl

lemma returns_readHighTag (left number : ℕ) (c : Cursor) (h : c.off ≤ c.data.length) :
    (readHighTag left number).Returns c
      (fun n c' => Moved c c' ∧ c.off < c'.off ∧ Decoder.readHighTag left number c.decoder = .ok (n, c'.decoder))
      (fun e c' => Moved c c' ∧ Decoder.readHighTag left number c.decoder = .error e) := by
  induction left generalizing number c with
  | zero =>
    unfold readHighTag
    rw [returns_get_bind]
    by_cases hend : c.data.length ≤ c.off
    · rw [if_pos hend, returns_fail, decoder_end hend]
      exact ⟨.refl h, rfl⟩
    · rw [if_neg hend, returns_fail, decoder_next (by omega)]
      exact ⟨.refl h, rfl⟩
  | succ left ih =>
    unfold readHighTag
    rw [returns_get_bind]
    by_cases hend : c.data.length ≤ c.off
    · rw [if_pos hend, returns_fail, decoder_end hend]
      exact ⟨.refl h, rfl⟩
    have hlt : c.off < c.data.length := by omega
    have hmov := moved_one hlt
    rw [if_neg hend, returns_octet_bind hlt, decoder_next hlt]
    unfold Decoder.readHighTag
    by_cases hls : c.data[c.off].toNat < 128
    · simp only [hls, if_true]
      exact ⟨hmov, Nat.lt_succ_self _, rfl⟩
    simp only [hls, if_false]
    apply (ih _ _ hmov.within).mono
    · rintro n c' ⟨hm, hgt, hrd⟩
      exact ⟨hmov.trans hm, Nat.lt_trans (Nat.lt_succ_self _) hgt, hrd⟩
    · rintro e c' ⟨hm, hrd⟩
      exact ⟨hmov.trans hm, hrd⟩

lemma returns_readTag (c : Cursor) (h : c.off ≤ c.data.length) :
    readTag.Returns c (fun t c' => Moved c c' ∧ c.off < c'.off ∧ c.decoder.readTag = .ok (t, c'.decoder))
      (fun e c' => Moved c c' ∧ c.decoder.readTag = .error e) := by
  unfold readTag
  rw [returns_get_bind]
  by_cases hend : c.data.length ≤ c.off
  · rw [if_pos hend, returns_fail, decoder_end hend]
    exact ⟨.refl h, rfl⟩
  have hlt : c.off < c.data.length := by omega
  have hmov := moved_one hlt
  rw [if_neg hend, returns_octet_bind hlt, decoder_next hlt]
  unfold Decoder.readTag
  by_cases hhigh : c.data[c.off].toNat % 32 = 31
  · simp only [hhigh, ne_eq, not_true_eq_false, if_false]
    apply (returns_readHighTag 5 0 _ hmov.within).bind
    · rintro n c' ⟨hm, hgt, hrd⟩
      refine ⟨hmov.trans hm, Nat.lt_trans (Nat.lt_succ_self _) hgt, ?_⟩
      show Except.map _ (Decoder.readHighTag 5 0 ({ c with off := c.off + 1 } : Cursor).decoder) = _
      rw [hrd]
      rfl
    rintro e c' ⟨hm, hrd⟩
    refine ⟨hmov.trans hm, ?_⟩
    show Except.map _ (Decoder.readHighTag 5 0 ({ c with off := c.off + 1 } : Cursor).decoder) = _
    rw [hrd]
    rfl
  · simp only [hhigh, ne_eq, not_false_eq_true, if_true]
    exact ⟨hmov, Nat.lt_succ_self _, rfl⟩

lemma returns_readOctets (count n : ℕ) (c : Cursor) (h : c.off + count ≤ c.data.length) :
    (readOctets count n).Returns c (fun n' c' => c' = { c with off := c.off + count } ∧
        n' = (c.decoder.rest.take count).foldl (fun n b => n * 256 + b.toNat) n) (fun _ _ => False) := by
  induction count generalizing n c with
  | zero => exact ⟨rfl, rfl⟩
  | succ count ih =>
    have hlt : c.off < c.data.length := by omega
    unfold readOctets
    rw [returns_get_bind, returns_octet_bind hlt, decoder_next hlt]
    apply (ih _ { c with off := c.off + 1 } (by show c.off + 1 + count ≤ c.data.length; omega)).mono
    · rintro n' c' ⟨hc', hn'⟩
      refine ⟨hc'.trans ?_, hn'⟩
      simp only [Cursor.mk.injEq, true_and]
      omega
    · intro e c' hno
      exact hno

lemma returns_readLength (c : Cursor) (h : c.off ≤ c.data.length) :
    readLength.Returns c (fun len c' => Moved c c' ∧ c.off < c'.off ∧ c.decoder.readLength = .ok (len, c'.decoder))
      (fun e c' => Moved c c' ∧ c.decoder.readLength = .error e) := by
  unfold readLength
  rw [returns_get_bind]
  by_cases hend : c.data.length ≤ c.off
  · rw [if_pos hend, returns_fail, decoder_end hend]
    exact ⟨.refl h, rfl⟩
  have hlt : c.off < c.data.length := by omega
  have hmov := moved_one hlt
  rw [if_neg hend, returns_octet_bind hlt, decoder_next hlt]
  generalize c.data[c.off] = b
  unfold Decoder.readLength
  by_cases hsh : b.toNat < 128
  · simp only [hsh, if_true]
    exact ⟨hmov, Nat.lt_succ_self _, rfl⟩
  by_cases hindef : b.toNat = 128
  · simp only [hindef, if_true]
    exact ⟨hmov, Nat.lt_succ_self _, rfl⟩
  simp only [hsh, hindef, if_false]
  rw [returns_get_bind]
  generalize b.toNat - 128 = octets
  rcases Nat.lt_or_ge 4 octets with hmany | hmany
  · rw [if_pos hmany, if_pos hmany]
    exact ⟨hmov, rfl⟩
  have hrm : ({ c with off := c.off + 1 } : Cursor).decoder.rest.length = c.data.length - (c.off + 1) :=
    length_rest _
  have hfew : ¬ 4 < octets := by omega
  simp only [hfew, if_false, hrm]
  by_cases hcut : c.data.length < c.off + 1 + octets
  · have hless : c.data.length - (c.off + 1) < octets := by omega
    simp only [hcut, hless, if_true]
    exact ⟨hmov, rfl⟩
  have henough : ¬ c.data.length - (c.off + 1) < octets := by omega
  simp only [hcut, henough, if_false]
  apply (returns_readOctets _ 0 { c with off := c.off + 1 } (by show c.off + 1 + _ ≤ c.data.length; omega)).bind
  · rintro n c' ⟨hc', hn⟩
    subst hc' hn
    refine ⟨⟨rfl, ?_, ?_⟩, ?_, ?_⟩
    · show c.off ≤ c.off + 1 + _
      omega
    · show c.off + 1 + _ ≤ c.data.length
      omega
    · show c.off < c.off + 1 + _
      omega
    · simp only [decoder, drop_drop]
      rfl
  · intro e c' hno
    exact hno.elim

variable {depth : ℕ}

/-- An element was read: at least its two shortest parts were, and its content stands among what was. -/
structure Took (c : Cursor) (s : Slice) (c' : Cursor) : Prop extends Moved c c' where
  advanced : c.off + 2 ≤ c'.off
  after : c.off ≤ s.start
  ordered : s.start ≤ s.stop
  before : s.stop ≤ c'.off

lemma returns_atEnd (c : Cursor) : atEnd.Returns c (fun b c' => c' = c ∧ (b → c.off + 2 ≤ c.data.length ∧
          c.decoder.rest = 0 :: 0 :: ({ c with off := c.off + 2 } : Cursor).decoder.rest) ∧
        (b = false → ∀ rest, c.decoder.rest ≠ 0 :: 0 :: rest)) (fun _ _ => False) := by
  unfold atEnd
  rw [returns_get_bind]
  by_cases hrm : c.off + 2 ≤ c.data.length
  · have hrs : c.decoder.rest = c.data[c.off] :: c.data[c.off + 1] :: c.data.drop (c.off + 2) := by
      show c.data.drop c.off = _
      rw [drop_eq_getElem_cons (show c.off < c.data.length by omega),
        drop_eq_getElem_cons (show c.off + 1 < c.data.length by omega)]
    rw [if_pos hrm, returns_octetAt_bind (by omega), hrs]
    by_cases hfst : c.data[c.off] = 0
    · rw [if_pos hfst, returns_octetAt_bind (by omega), returns_pure]
      refine ⟨rfl, ?_, ?_⟩
      · intro hz
        rw [hfst, eq_of_beq hz]
        exact ⟨hrm, rfl⟩
      intro hno rest heq
      have hsnd : c.data[c.off + 1] = 0 := (cons.inj (cons.inj heq).2).1
      rw [hsnd] at hno
      cases hno
    · rw [if_neg hfst, returns_pure]
      refine ⟨rfl, nofun, ?_⟩
      intro _ rest heq
      exact hfst (cons.inj heq).1
  · rw [if_neg hrm, returns_pure]
    refine ⟨rfl, nofun, ?_⟩
    intro _ rest heq
    have hlen := length_rest c
    rw [heq, length_cons, length_cons] at hlen
    omega

lemma forall_fuel {P : ℕ → Prop} {bound : ℕ} (h : ∀ fuel, bound ≤ fuel → P (fuel + 1)) :
    ∀ fuel, bound < fuel → P fuel := by
  intro fuel hfuel
  obtain ⟨fuel, rfl⟩ : ∃ k, fuel = k + 1 := ⟨fuel - 1, by omega⟩
  exact h fuel (by omega)

/-- The reading of an element against the reading from the octets that are left, with more than two steps for
each of them. -/
def ReadsTlv (m : Reading (Tag × Slice)) (depth : ℕ) (c : Cursor) : Prop :=
  m.Returns c
    (fun tlv c' => Took c tlv.2 c' ∧ ∀ fuel, 2 * (c.data.length - c.off) < fuel →
      Decoder.readTlvAt fuel depth c.decoder = .ok ((tlv.1, tlv.2.octets c.data), c'.decoder))
    (fun e c' => Moved c c' ∧ ∀ fuel, 2 * (c.data.length - c.off) < fuel →
      Decoder.readTlvAt fuel depth c.decoder = .error e)

variable {fuel n : ℕ} {t : Tag} {d d₁ d₂ start : Decoder} {indefinite : Bool}

lemma readTlvAt_definite (hdeep : ¬ maxDepth < depth) (htag : d.readTag = .ok (t, d₁))
    (hlen : d₁.readLength = .ok ((n, false), d₂)) : Decoder.readTlvAt (fuel + 1) depth d =
      if d₂.rest.length < n then .error (.truncated "reading content" d₂.off)
      else .ok ((t, d₂.rest.take n), ⟨d₂.off + n, d₂.rest.drop n⟩) := by
  rw [Decoder.readTlvAt, if_neg hdeep, htag]
  dsimp only
  rw [hlen]

lemma readTlvAt_indefinite (hdeep : ¬ maxDepth < depth) (htag : d.readTag = .ok (t, d₁))
    (hlen : d₁.readLength = .ok ((n, true), d₂)) : Decoder.readTlvAt (fuel + 1) depth d =
      if t.constructed then (Decoder.scan fuel depth d₂ d₂).map fun part => ((t, part.1), part.2)
      else .error (.badLength "indefinite length on primitive" d₂.off) := by
  rw [Decoder.readTlvAt, if_neg hdeep, htag]
  dsimp only
  rw [hlen]

lemma scan_child {d' : Decoder} {tlv : Tag × List UInt8} (hmo : ∀ rest, d.rest ≠ 0 :: 0 :: rest)
    (hrd : Decoder.readTlvAt fuel (depth + 1) d = .ok (tlv, d')) :
    Decoder.scan (fuel + 1) depth start d = Decoder.scan fuel depth start d' := by
  rw [Decoder.scan]
  split
  · next rest heq => exact absurd heq (hmo rest)
  · rw [hrd]

lemma scan_child_error {e : Error} (hmo : ∀ rest, d.rest ≠ 0 :: 0 :: rest)
    (hrd : Decoder.readTlvAt fuel (depth + 1) d = .error e) :
    Decoder.scan (fuel + 1) depth start d = .error e := by
  rw [Decoder.scan]
  split
  · next rest heq => exact absurd heq (hmo rest)
  · rw [hrd]

lemma returns_scan {child : Reading (Tag × Slice)} {start : Cursor}
    (hch : ∀ c, Moved start c → ReadsTlv child (depth + 1) c) (rounds : ℕ) (c : Cursor) (hc : Moved start c)
    (hrnd : c.data.length - c.off < rounds) : (scan child start.off rounds).Returns c
      (fun s c' => Moved c c' ∧ (s.start = start.off ∧ s.start ≤ s.stop ∧ s.stop ≤ c'.off) ∧
        ∀ fuel, 2 * (c.data.length - c.off) + 1 < fuel →
          Decoder.scan fuel depth start.decoder c.decoder = .ok (s.octets c.data, c'.decoder))
      (fun e c' => Moved c c' ∧ ∀ fuel, 2 * (c.data.length - c.off) + 1 < fuel →
        Decoder.scan fuel depth start.decoder c.decoder = .error e) := by
  induction rounds generalizing c with
  | zero => omega
  | succ rounds ih =>
    apply (returns_atEnd c).bind
    · rintro b c1 ⟨hc1, hyes, hno⟩
      subst hc1
      cases b with
      | true =>
        obtain ⟨hrm, hrs⟩ := hyes rfl
        have hle := hc.le
        rw [if_pos rfl, returns_get_bind, returns_sliceAt_bind hle hc.within]
        refine ⟨⟨rfl, Nat.le_add_right _ _, hrm⟩, ⟨rfl, hle, Nat.le_add_right _ _⟩, forall_fuel ?_⟩
        intro fuel _
        rw [Decoder.scan, hrs]
        dsimp only
        rw [Slice.octets, hc.data]
        rfl
      | false =>
        -- The list's decoder goes the same way, as it does not see the end either.
        have hmo : ∀ rest, c1.decoder.rest ≠ 0 :: 0 :: rest := hno rfl
        apply (hch c1 hc).bind
        · rintro tlv c2 ⟨htook, hrd⟩
          have hmov := htook.toMoved
          have hadvanced := htook.advanced
          have hwithin := htook.within
          have hlen : c2.data.length = c1.data.length := by rw [htook.data]
          apply (ih c2 (hc.trans hmov) (by omega)).mono
          · rintro s c' ⟨hm, hs, hscan⟩
            refine ⟨hmov.trans hm, hs, forall_fuel ?_⟩
            intro fuel hfuel
            rw [scan_child hmo (hrd fuel (by omega)), hscan fuel (by omega), htook.data]
          rintro e c' ⟨hm, hscan⟩
          refine ⟨hmov.trans hm, forall_fuel ?_⟩
          intro fuel hfuel
          rw [scan_child hmo (hrd fuel (by omega))]
          exact hscan fuel (by omega)
        · rintro e c2 ⟨hm, hrd⟩
          refine ⟨hm, forall_fuel ?_⟩
          intro fuel hfuel
          exact scan_child_error hmo (hrd fuel (by omega))
    · intro e c' hno
      exact hno.elim

lemma reads_readTlvAt {rounds : ℕ} (stack depth : ℕ) (c : Cursor) (hstack : maxDepth + 2 ≤ stack + depth)
    (hdepth : depth ≤ maxDepth + 1) (h : c.off ≤ c.data.length) (hrnd : c.data.length < rounds) :
    ReadsTlv (readTlvAt rounds stack depth) depth c := by
  induction stack generalizing depth c with
  | zero => omega
  | succ stack ih =>
    unfold ReadsTlv readTlvAt
    rw [returns_get_bind]
    by_cases hdeep : maxDepth < depth
    · rw [if_pos hdeep, returns_fail]
      refine ⟨.refl h, forall_fuel ?_⟩
      intro fuel _
      rw [Decoder.readTlvAt, if_pos hdeep]
      rfl
    rw [if_neg hdeep]
    apply (returns_readTag c h).bind
    · rintro t c1 ⟨hm1, hgt1, htag⟩
      apply (returns_readLength c1 hm1.within).bind
      · rintro len c2 ⟨hm2, hgt2, hlen⟩
        have hmov := hm1.trans hm2
        have hwithin := hmov.within
        have hdata := hmov.data
        have hlength : c2.data.length = c.data.length := by rw [hdata]
        obtain ⟨n, indefinite⟩ := len
        rw [returns_get_bind]
        cases indefinite with
        | false =>
          rw [if_pos rfl, returns_lift_bind (sub_of_le hwithin)]
          by_cases hcut : c2.data.length - c2.off < n
          · rw [if_pos hcut, returns_fail]
            refine ⟨hmov, forall_fuel ?_⟩
            intro fuel _
            rw [readTlvAt_definite hdeep htag hlen, length_rest, if_pos hcut]
            rfl
          rw [if_neg hcut, returns_sliceAt_bind (Nat.le_add_right _ _) (by omega)]
          refine ⟨⟨⟨hdata, ?_, ?_⟩, ?_, hmov.le, Nat.le_add_right _ _, Nat.le_refl _⟩, forall_fuel ?_⟩
          · show c.off ≤ c2.off + n
            omega
          · show c2.off + n ≤ c2.data.length
            omega
          · show c.off + 2 ≤ c2.off + n
            omega
          intro fuel _
          rw [readTlvAt_definite hdeep htag hlen, length_rest, if_neg hcut, Slice.octets, ← hdata]
          simp only [decoder, drop_drop, Nat.add_sub_cancel_left]
        | true =>
          rw [if_neg (by simp)]
          by_cases hprim : t.constructed = false
          · rw [if_pos hprim, returns_fail]
            refine ⟨hmov, forall_fuel ?_⟩
            intro fuel _
            rw [readTlvAt_indefinite hdeep htag hlen, hprim]
            rfl
          have hcons : t.constructed := Bool.eq_true_of_not_eq_false hprim
          rw [if_neg hprim]
          have hch : ∀ d, Moved c2 d → ReadsTlv (readTlvAt rounds stack (depth + 1)) (depth + 1) d := by
            intro d hd
            have hdlen : d.data.length = c.data.length := by rw [hd.data, hdata]
            exact ih (depth + 1) d (by omega) (by omega) hd.within (by omega)
          apply (returns_scan hch rounds c2 (.refl hwithin) (by omega)).bind
          · rintro s c3 ⟨hm3, ⟨hsta, hordered, hstop⟩, hscan⟩
            have haft : c.off ≤ s.start := by omega
            refine ⟨⟨hmov.trans hm3, by omega, haft, hordered, hstop⟩, forall_fuel ?_⟩
            intro fuel hfuel
            rw [readTlvAt_indefinite hdeep htag hlen, if_pos hcons, hscan fuel (by omega), hdata]
            rfl
          rintro e c3 ⟨hm3, hscan⟩
          refine ⟨hmov.trans hm3, forall_fuel ?_⟩
          intro fuel hfuel
          rw [readTlvAt_indefinite hdeep htag hlen, if_pos hcons, hscan fuel (by omega)]
          rfl
      · rintro e c2 ⟨hm2, hlen⟩
        refine ⟨hm1.trans hm2, forall_fuel ?_⟩
        intro fuel _
        rw [Decoder.readTlvAt, if_neg hdeep, htag]
        dsimp only
        rw [hlen]
    · rintro e c1 ⟨hm1, htag⟩
      refine ⟨hm1, forall_fuel ?_⟩
      intro fuel _
      rw [Decoder.readTlvAt, if_neg hdeep, htag]

variable {stack rounds : ℕ}

lemma readTlv_decoder (hstack : maxDepth + 2 ≤ stack) (h : c.off ≤ c.data.length) (hrnd : c.data.length < rounds) :
    (readTlv stack rounds).Returns c
      (fun tlv c' => Took c tlv.2 c' ∧ c.decoder.readTlv = .ok ((tlv.1, tlv.2.octets c.data), c'.decoder))
      (fun e c' => Moved c c' ∧ c.decoder.readTlv = .error e) := by
  have hfuel : 2 * (c.data.length - c.off) < 2 * c.decoder.rest.length + 1 := by
    rw [length_rest]
    omega
  have hrd : ReadsTlv (readTlv stack rounds) 0 c := reads_readTlvAt stack 0 c hstack (Nat.zero_le _) h hrnd
  apply hrd.mono
  · rintro tlv c' ⟨htook, htlv⟩
    exact ⟨htook, htlv _ hfuel⟩
  · rintro e c' ⟨hm, htlv⟩
    exact ⟨hm, htlv _ hfuel⟩

/-- An operation, with what it returns left out. -/
inductive Op where
  | more
  | offset
  | rest
  | peek
  | peekIs (t : Tag)
  | readTlv
  | expect (t : Tag)
  | optional (t : Tag)
  | skip

def perform (stack rounds : ℕ) (c : Cursor) : Op → Cursor
  | .more | .offset | .peekIs _ => c
  | .rest => (rest c).2
  | .peek => (peek c).2
  | .readTlv => (readTlv stack rounds c).2
  | .expect t => (expect stack rounds t c).2
  | .optional t => (optional stack rounds t c).2
  | .skip => (skip stack rounds c).2

def performAll (stack rounds : ℕ) (c : Cursor) (ops : List Op) : Cursor := ops.foldl (perform stack rounds) c

/-- No operation aborts at a cursor, an element that was read stands in what was consumed, and the operations
that say so leave the cursor. -/
structure Safe (stack rounds : ℕ) (c : Cursor) : Prop where
  within : c.off ≤ c.data.length
  rest : rest c = (.ok ⟨c.off, c.data.length⟩, c)
  peek : peek.Returns c (fun _ c' => c' = c) fun _ c' => c' = c
  readTlv : (readTlv stack rounds).Returns c (fun tlv c' => Took c tlv.2 c') fun _ c' => Moved c c'
  expect : ∀ t, (expect stack rounds t).Returns c (fun s c' => Took c s c') fun _ c' => Moved c c'
  expect_other : ∀ t tlv, (Cursor.readTlv stack rounds c).1 = .ok tlv → tlv.1 ≠ t →
    (Cursor.expect stack rounds t c).1 = .error (.unexpected t tlv.1 c.off)
  optional : ∀ t, (optional stack rounds t).Returns c
    (fun found c' => (found = none → c' = c) ∧ ∀ s, found = some s → Took c s c') fun _ c' => Moved c c'
  optional_other : ∀ t got, (Cursor.peek c).1 = .ok got → got ≠ t → Cursor.optional stack rounds t c = (.ok none, c)
  skip : (skip stack rounds).Returns c (fun _ c' => Moved c c' ∧ c.off < c'.off) fun _ c' => Moved c c'

lemma returns_peek (h : c.off ≤ c.data.length) : peek.Returns c (fun _ c' => c' = c) fun _ c' => c' = c := by
  have hpeek : peek c = ((readTag c).1, c) := rfl
  unfold Stateful.Returns
  rw [hpeek]
  rcases (returns_readTag c h).cases with ⟨t, ht, -⟩ | ⟨e, he, -⟩
  · rw [ht]
  · rw [he]

variable {got : Tag} {tlv : Tag × Slice}

lemma expect_other (h : (readTlv stack rounds c).1 = .ok tlv) (hne : tlv.1 ≠ t) :
    (expect stack rounds t c).1 = .error (.unexpected t tlv.1 c.off) := by
  have hrd : readTlv stack rounds c = (.ok tlv, (readTlv stack rounds c).2) := Prod.ext h rfl
  show (Stateful.bind (readTlv stack rounds) _ c).1 = _
  unfold Stateful.bind
  rw [hrd]
  dsimp only
  rw [if_pos hne]
  rfl

lemma optional_other (h : (peek c).1 = .ok got) (hne : got ≠ t) : optional stack rounds t c = (.ok none, c) := by
  have hpeek : peek c = (.ok got, c) := Prod.ext h rfl
  show (if !c.more then (pure none : Reading (Option Slice)) else _) c = _
  split
  · rfl
  show Stateful.bind peek _ c = _
  unfold Stateful.bind
  rw [hpeek]
  dsimp only
  rw [if_pos hne]
  rfl

lemma safe (hstack : maxDepth + 2 ≤ stack) (hrnd : c.data.length < rounds) (h : c.off ≤ c.data.length) :
    Safe stack rounds c := by
  have htlv := readTlv_decoder hstack h hrnd
  have hrd := htlv.mono (fun _ _ h => h.1) fun _ _ h => h.1
  refine ⟨h, sliceAt_eq h (Nat.le_refl _), returns_peek h, hrd, ?_, fun t tlv => expect_other, ?_,
    fun t got => optional_other, ?_⟩
  · intro t
    unfold expect
    apply hrd.bind
    · intro tlv c' htook
      split
      · exact htook.toMoved
      · exact htook
    · intro e c' hm
      exact hm
  · intro t
    unfold optional
    rw [returns_get_bind]
    split
    · exact ⟨fun _ => rfl, nofun⟩
    apply (returns_peek h).bind
    · intro got c1 hc1
      subst hc1
      by_cases hne : got ≠ t
      · rw [if_pos hne]
        exact ⟨fun _ => rfl, nofun⟩
      rw [if_neg hne]
      apply hrd.bind
      · intro tlv c' htook
        refine ⟨nofun, ?_⟩
        intro s hs
        cases hs
        exact htook
      · intro e c' hm
        exact hm
    · intro e c' heq
      rw [heq]
      exact .refl h
  · unfold skip
    apply hrd.bind
    · intro tlv c' htook
      have hadvanced := htook.advanced
      exact ⟨htook.toMoved, by omega⟩
    · intro e c' hm
      exact hm

lemma Safe.moved (h : Safe stack rounds c) (op : Op) : Moved c (perform stack rounds c op) := by
  have hkp {α : Type} {m : Reading α} {Q : α → Cursor → Prop} {E : Error → Cursor → Prop} (hm : m.Returns c Q E)
      (hq : ∀ a c', Q a c' → Moved c c') (he : ∀ e c', E e c' → Moved c c') : Moved c (m c).2 := by
    rcases hm.cases with ⟨a, -, ha⟩ | ⟨e, -, he'⟩
    · exact hq a _ ha
    · exact he e _ he'
  have hrefl : Moved c c := .refl h.within
  cases op with
  | more | offset | peekIs t => exact hrefl
  | rest =>
    rw [perform, h.rest]
    exact hrefl
  | peek => exact hrefl
  | readTlv => exact hkp h.readTlv (fun _ _ ht => ht.toMoved) fun _ _ hm => hm
  | expect t => exact hkp (h.expect t) (fun _ _ ht => ht.toMoved) fun _ _ hm => hm
  | skip => exact hkp h.skip (fun _ _ ht => ht.1) fun _ _ hm => hm
  | optional t =>
    refine hkp (h.optional t) ?_ fun _ _ hm => hm
    rintro found c' ⟨hno, hsome⟩
    cases found with
    | none =>
      rw [hno rfl]
      exact hrefl
    | some s => exact (hsome s rfl).toMoved

lemma moved_performAll (hstack : maxDepth + 2 ≤ stack) (hrnd : c.data.length < rounds)
    (h : c.off ≤ c.data.length) (ops : List Op) : Moved c (performAll stack rounds c ops) := by
  refine foldlRecOn ops _ (Moved.refl h) ?_
  intro c' hc' op _
  have hsafe : Safe stack rounds c' := safe hstack (by rw [hc'.data]; exact hrnd) hc'.within
  exact hc'.trans (hsafe.moved op)

/-- After any operations on any octets the cursor stands in them, and every operation is safe there, with a
stack of `maxDepth + 2` calls and one more round of the loop than there are octets. -/
theorem decoder_safety (data : List UInt8) (stack rounds : ℕ) (hstack : maxDepth + 2 ≤ stack)
    (hrounds : data.length < rounds) (ops : List Op) :
    (performAll stack rounds (new data) ops).data = data ∧ Safe stack rounds (performAll stack rounds (new data) ops) := by
  have hmov := moved_performAll (c := new data) hstack hrounds (Nat.zero_le _) ops
  refine ⟨hmov.data, safe hstack ?_ hmov.within⟩
  rw [hmov.data]
  exact hrounds

/-- A sequence of indefinite length, which is looked at, skipped and read past its end. -/
theorem decoder_safety_sample :
    (performAll 66 10 (new [0x30, 0x80, 2, 1, 1, 5, 0, 0, 0]) [.peek, .optional tagInteger, .readTlv, .skip]).off = 9 ∧
      Safe 66 10 (performAll 66 10 (new [0x30, 0x80, 2, 1, 1, 5, 0, 0, 0])
        [.peek, .optional tagInteger, .readTlv, .skip]) :=
  ⟨by decide +kernel, (decoder_safety [0x30, 0x80, 2, 1, 1, 5, 0, 0, 0] 66 10 (by decide) (by decide)
    [.peek, .optional tagInteger, .readTlv, .skip]).2⟩

end Cursor
end Iec61850.Asn1
