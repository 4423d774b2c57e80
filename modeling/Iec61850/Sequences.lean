import Mathlib.Data.List.Basic
import Mathlib.Tactic.IntervalCases

/-! Streams delivered in pieces, columns of equal length in the order of their keys, and sliding windows. -/
namespace Iec61850
open List Option

/-- What successive reads of a stream deliver. -/
structure Chunks (α : Type) where
  parts : List (List α)
  delivers : ∀ part ∈ parts, part ≠ []

namespace Chunks
variable {α : Type} {n : ℕ}

def left (s : Chunks α) : List α := s.parts.flatten

def takeParts : ℕ → List (List α) → Option (List α × List (List α))
  | 0, parts => some ([], parts)
  | _ + 1, [] => none
  | n + 1, part :: parts =>
    if part.length ≤ n + 1 then
      (takeParts (n + 1 - part.length) parts).map fun r => (part ++ r.1, r.2)
    else some (part.take (n + 1), part.drop (n + 1) :: parts)

lemma takeParts_delivers {parts rest : List (List α)} {got : List α}
    (h : takeParts n parts = some (got, rest)) (hps : ∀ part ∈ parts, part ≠ []) : ∀ part ∈ rest, part ≠ [] := by
  induction parts generalizing n got with
  | nil =>
    cases n with
    | zero =>
      cases h
      exact hps
    | succ n => cases h
  | cons part parts ih =>
    cases n with
    | zero =>
      cases h
      exact hps
    | succ n =>
      rw [takeParts] at h
      split at h
      · obtain ⟨⟨got', rest'⟩, h', heq⟩ := map_eq_some_iff.mp h
        cases heq
        exact ih h' fun p hp => hps p (mem_cons_of_mem _ hp)
      next hlong =>
      cases h
      intro p hp
      rcases mem_cons.mp hp with rfl | hp
      · intro hnil
        have := drop_eq_nil_iff.mp hnil
        omega
      · exact hps p (mem_cons_of_mem _ hp)

lemma takeParts_eq (n : ℕ) (parts : List (List α)) : (takeParts n parts).map (fun r => (r.1, r.2.flatten)) =
      if n ≤ parts.flatten.length then some (parts.flatten.take n, parts.flatten.drop n) else none := by
  induction parts generalizing n with
  | nil =>
    cases n with
    | zero => rfl
    | succ n => rfl
  | cons part parts ih =>
    cases n with
    | zero => rfl
    | succ n =>
      rw [takeParts, flatten_cons, length_append]
      split
      next hsh =>
        have hpart := ih (n + 1 - part.length)
        by_cases hle : n + 1 - part.length ≤ parts.flatten.length
        · rw [if_pos hle] at hpart
          obtain ⟨⟨got, rest⟩, hgot, heq⟩ := map_eq_some_iff.mp hpart
          rw [if_pos (by omega), hgot, take_append, drop_append, take_of_length_le hsh, drop_of_length_le hsh]
          obtain ⟨hfst, hsnd⟩ := Prod.mk.inj heq
          rw [← hfst, ← hsnd]
          rfl
        · rw [if_neg hle, map_eq_none_iff] at hpart
          rw [if_neg (by omega), hpart]
          rfl
      next hlong =>
        rw [if_pos (by omega), take_append_of_le_length (by omega), drop_append_of_le_length (by omega)]
        rfl

def readExact (n : ℕ) (s : Chunks α) : Option (List α × Chunks α) :=
  match h : takeParts n s.parts with
  | some (got, rest) => some (got, ⟨rest, takeParts_delivers h s.delivers⟩)
  | none => none

lemma readExact_of_le {s : Chunks α} (h : n ≤ s.left.length) :
    ∃ s', s.readExact n = some (s.left.take n, s') ∧ s'.left = s.left.drop n := by
  have heq := takeParts_eq n s.parts
  change _ = if n ≤ s.left.length then _ else _ at heq
  rw [if_pos h] at heq
  obtain ⟨⟨got, rest⟩, hgot, hpair⟩ := map_eq_some_iff.mp heq
  obtain ⟨rfl, hrs⟩ := Prod.mk.inj hpair
  refine ⟨⟨rest, takeParts_delivers hgot s.delivers⟩, ?_, hrs⟩
  rw [readExact]
  split
  next got' rest' h' =>
    rw [hgot] at h'
    cases h'
    rfl
  next h' =>
    rw [hgot] at h'
    cases h'

def whole (l : List α) : Chunks α where
  parts := if l.isEmpty then [] else [l]
  delivers := by
    intro part hpart
    split at hpart
    · cases hpart
    · next hne =>
      rw [List.mem_singleton.mp hpart]
      intro hnil
      rw [hnil] at hne
      exact hne rfl

lemma left_whole (l : List α) : (whole l).left = l := by
  cases l with
  | nil => rfl
  | cons a l => simp [left, whole]

end Chunks
end Iec61850

namespace Iec61850.Columns
open List
variable {κ α β : Type}

variable [LinearOrder κ]

def place (keys : List κ) (k : κ) : ℕ := (keys.takeWhile (· < k)).length

lemma place_le (keys : List κ) (k : κ) : place keys k ≤ keys.length :=
  (takeWhile_sublist _).length_le

lemma pairwise_insertIdx_place {keys : List κ} {k : κ} (h : keys.Pairwise (· < ·)) (hk : k ∉ keys) :
    (keys.insertIdx (place keys k) k).Pairwise (· < ·) := by
  induction keys with
  | nil => simp [place]
  | cons x xs ih =>
    obtain ⟨hx, hxs⟩ := pairwise_cons.mp h
    have hk' : k ∉ xs := fun hm => hk (mem_cons_of_mem _ hm)
    by_cases hlt : x < k
    · have hpl : place (x :: xs) k = place xs k + 1 := by simp [place, hlt]
      rw [hpl, insertIdx_succ_cons, pairwise_cons]
      refine ⟨?_, ih hxs hk'⟩
      intro y hy
      rcases (mem_insertIdx (place_le xs k)).mp hy with rfl | hy
      · exact hlt
      · exact hx y hy
    have hpl : place (x :: xs) k = 0 := by simp [place, hlt]
    have hne : k ≠ x := fun heq => hk (heq ▸ mem_cons_self)
    have hkx : k < x := lt_of_le_of_ne (not_lt.mp hlt) hne
    rw [hpl, insertIdx_zero, pairwise_cons]
    refine ⟨?_, h⟩
    intro y hy
    rcases mem_cons.mp hy with rfl | hy
    · exact hkx
    · exact lt_trans hkx (hx y hy)

variable {l : List α} {f : α → Option β} {a : α}

lemma zip_insertIdx {l' : List β} (h : l.length = l'.length) (n : ℕ) (a : α) (b : β) :
    (l.insertIdx n a).zip (l'.insertIdx n b) = (l.zip l').insertIdx n (a, b) := by
  induction n generalizing l l' with
  | zero => rfl
  | succ n ih =>
    rcases l with _ | ⟨x, xs⟩
    · have hl' : l' = [] := by simpa using h.symm
      simp [hl']
    cases l' with
    | nil => simp at h
    | cons y ys =>
      have hlen : xs.length = ys.length := by simpa using h
      simp [ih hlen]

lemma filterMap_insertIdx_none (ha : f a = none) (n : ℕ) (l : List α) :
    (l.insertIdx n a).filterMap f = l.filterMap f := by
  induction n generalizing l with
  | zero => simp [ha]
  | succ n ih =>
    cases l with
    | nil => simp
    | cons x xs =>
      rw [insertIdx_succ_cons, filterMap_cons, filterMap_cons, ih]

lemma filterMap_insertIdx_some {b : β} (ha : f a = some b) {n : ℕ}
    (hn : n ≤ l.length) (hl : l.filterMap f = []) : (l.insertIdx n a).filterMap f = [b] := by
  induction n generalizing l with
  | zero => simp [ha, hl]
  | succ n ih =>
    rcases l with _ | ⟨x, xs⟩
    · simp at hn
    have hx : f x = none := filterMap_eq_nil_iff.mp hl x mem_cons_self
    have hxs : xs.filterMap f = [] := by simpa [filterMap_cons, hx] using hl
    rw [insertIdx_succ_cons, filterMap_cons, hx]
    exact ih (by simpa using hn) hxs

variable {γ δ : Type} {lo hi : ℕ}

def slice {α : Type} (lo hi : ℕ) (l : List α) : List α := (l.drop lo).take (hi - lo)

lemma slice_sublist (l : List α) : (slice lo hi l).Sublist l := (take_sublist _ _).trans (drop_sublist _ _)

lemma slice_map (g : α → β) (l : List α) : slice lo hi (l.map g) = (slice lo hi l).map g := by
  simp only [slice, map_take, map_drop]

lemma slice_zip (a : List α) (b : List β) : slice lo hi (a.zip b) = (slice lo hi a).zip (slice lo hi b) := by
  simp only [slice, zip, take_zipWith, drop_zipWith]

variable {a : List α} {b : List β}

lemma length_slice (h : a.length = b.length) : (slice lo hi a).length = (slice lo hi b).length := by
  simp only [slice, length_take, length_drop, h]

lemma mapIdx_eq_map_zip {l : List γ} (hb : b.length = a.length)
    (hc : l.length = a.length) {g : ℕ → α → δ} {h : (α × β) × γ → δ}
    (hrow : ∀ k x y z, a[k]? = some x → b[k]? = some y → l[k]? = some z → g k x = h ((x, y), z)) :
    a.mapIdx g = ((a.zip b).zip l).map h := by
  apply ext_getElem
  · simp [hb, hc]
  intro k hk hk'
  have hlt : k < a.length := by simpa using hk
  rw [getElem_mapIdx, getElem_map, getElem_zip, getElem_zip]
  exact hrow k _ _ _ (getElem?_eq_getElem hlt) (getElem?_eq_getElem (by omega)) (getElem?_eq_getElem (by omega))

end Iec61850.Columns

namespace Iec61850.SlidingWindow
open BitVec

/-- Bit `i` of `seen` says whether the index `i` below `top` has been accepted. -/
def Tracks (seen : BitVec 64) (top : ℕ) (accepted : Set ℕ) : Prop :=
  ∀ i < 64, seen.getLsbD i = true ↔ i ≤ top ∧ top - i ∈ accepted

lemma and_twoPow_ne_zero {x : BitVec 64} {i : ℕ} (h : i < 64) : x &&& (1#64 <<< i) ≠ 0#64 ↔ x.getLsbD i := by
  have hbit (j : ℕ) : (x &&& (1#64 <<< i)).getLsbD j = (x.getLsbD j && decide (j = i)) := by
    rw [getLsbD_and, getLsbD_shiftLeft, getLsbD_one]
    by_cases hj : j = i
    · subst hj
      simp [h]
    by_cases hij : j < i
    · simp [hj, hij]
    simp only [hj, decide_false, Bool.and_false, Bool.and_eq_false_imp]
    intros
    simp
    omega
  constructor
  · intro hne
    by_contra hx
    apply hne
    apply eq_of_getLsbD_eq
    intro j _
    rw [hbit]
    by_cases hj : j = i
    · subst hj
      simp [hx]
    · simp [hj]
  · intro hx hz
    have := hbit i
    rw [hz, hx] at this
    simp at this

lemma tracks_one (top : ℕ) : Tracks 1#64 top {top} := by
  intro i hi
  rw [getLsbD_one, Set.mem_singleton_iff]
  constructor
  · intro h
    have : i = 0 := by simpa using h
    omega
  intro h
  have : i = 0 := by omega
  simp [this]

variable {accepted : Set ℕ} {seen : BitVec 64} {top : ℕ}

lemma Tracks.mark (h : Tracks seen top accepted) {off : ℕ} (hoff : off < 64) (htop : off ≤ top) :
    Tracks (seen ||| 1#64 <<< off) top (insert (top - off) accepted) := by
  intro i hi
  have hone : (1#64 <<< off).getLsbD i = decide (i = off) := by
    rw [getLsbD_shiftLeft, getLsbD_one]
    by_cases hio : i = off
    · subst hio
      simp [hi]
    by_cases hlt : i < off
    · simp [hio, hlt]
    · simp [hio, hlt]
      omega
  rw [getLsbD_or, hone, Bool.or_eq_true, h i hi, decide_eq_true_eq, Set.mem_insert_iff]
  constructor
  · rintro (⟨hle, hm⟩ | rfl)
    · exact ⟨hle, .inr hm⟩
    · exact ⟨htop, .inl rfl⟩
  rintro ⟨hle, heq | hm⟩
  · right
    omega
  · exact .inl ⟨hle, hm⟩

lemma Tracks.advance (h : Tracks seen top accepted) (hmax : ∀ i ∈ accepted, i ≤ top) {new : ℕ} (hnew : top < new) :
    Tracks (if 64 ≤ new - top then 1#64 else seen <<< (new - top) ||| 1#64) new (insert new accepted) := by
  intro i hi
  have hone : (1#64).getLsbD i = decide (i = 0) := by
    rw [getLsbD_one]
    simp
  by_cases hfar : 64 ≤ new - top
  · rw [if_pos hfar, hone, decide_eq_true_eq, Set.mem_insert_iff]
    constructor
    · rintro rfl
      exact ⟨Nat.zero_le _, .inl rfl⟩
    rintro ⟨hle, heq | hm⟩
    · omega
    · have := hmax _ hm
      omega
  rw [if_neg hfar, getLsbD_or, hone, getLsbD_shiftLeft, Set.mem_insert_iff]
  by_cases hlow : i < new - top
  · simp only [hi, hlow, decide_true, Bool.not_true, Bool.and_false, Bool.false_and, Bool.false_or,
      decide_eq_true_eq]
    constructor
    · rintro rfl
      exact ⟨Nat.zero_le _, .inl rfl⟩
    rintro ⟨hle, heq | hm⟩
    · omega
    · have := hmax _ hm
      omega
  have hz : i ≠ 0 := by omega
  simp only [hi, hlow, hz, decide_true, decide_false, Bool.not_false, Bool.true_and, Bool.or_false]
  rw [h (i - (new - top)) (by omega)]
  constructor
  · rintro ⟨hle, hm⟩
    rw [show top - (i - (new - top)) = new - i by omega] at hm
    exact ⟨by omega, .inr hm⟩
  rintro ⟨hle, heq | hm⟩
  · omega
  · rw [show top - (i - (new - top)) = new - i by omega]
    exact ⟨by omega, hm⟩

lemma serial_sub {i : ℕ} (hi : i < top + 2 ^ 31) (ht : top ≤ i + 2 ^ 31) :
    (UInt32.ofNat i - UInt32.ofNat top).toBitVec.toInt = (i : ℤ) - top := by
  have hi' : (UInt32.ofNat i).toBitVec = BitVec.ofNat 32 i := rfl
  have ht' : (UInt32.ofNat top).toBitVec = BitVec.ofNat 32 top := rfl
  rw [UInt32.toBitVec_sub, BitVec.toInt_sub, hi', ht', BitVec.toInt_ofNat', BitVec.toInt_ofNat',
    Int.sub_bmod_bmod, Int.bmod_sub_bmod]
  apply Int.bmod_eq_of_le <;> omega

end Iec61850.SlidingWindow
