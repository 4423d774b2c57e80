import Iec61850.Runs

/-! A bounded store of entries for one receiver. -/
namespace Iec61850
open List

/-- What happens to the entries of an outbox. -/
inductive Notice (α : Type) where
  | stored (a : α)
  /-- An entry left the full store before it was handed over. -/
  | overflowed (a : α)
  /-- An entry was handed over, with the flag as `told`, and taken or not. -/
  | handed (a : α) (told taken : Bool)
  /-- Waiting entries were dropped on request. -/
  | dropped (as : List α)

structure Outbox (α : Type) where
  buffer : List α
  next : ℕ
  missed : Bool
  history : List (Notice α)

namespace Notice
variable {α : Type}

def isLoss : Notice α → Bool
  | overflowed _ => true
  | handed _ _ taken => !taken
  | _ => false

/-- The next entry that is taken comes with the flag; `missed` stands for what is still to come. -/
def Told (missed : Bool) : List (Notice α) → Prop
  | [] => missed = true
  | handed _ told true :: _ => told = true
  | _ :: rest => Told missed rest

lemma told_append_of_imp {missed missed' : Bool} {l l' : List (Notice α)}
    (h : Told missed l) (hl : missed → Told missed' l') : Told missed' (l ++ l') := by
  induction l with
  | nil => exact hl h
  | cons n rest ih =>
    cases n with
    | handed a told taken => cases taken <;> first | exact h | exact ih h
    | _ => exact ih h

end Notice

namespace Outbox
variable {α : Type} {a : α}

def store (a : α) (o : Outbox α) : Outbox α :=
  { o with buffer := o.buffer ++ [a], history := o.history ++ [.stored a] }

def discard (o : Outbox α) : Outbox α :=
  match o.buffer with
  | [] => o
  | a :: rest =>
    if 0 < o.next then { o with buffer := rest, next := o.next - 1 }
    else { o with buffer := rest, missed := true, history := o.history ++ [.overflowed a] }

def hand (taken : Bool) (o : Outbox α) : Outbox α :=
  match o.buffer[o.next]? with
  | none => o
  | some a =>
    { o with
      next := o.next + 1
      missed := !taken
      history := o.history ++ [.handed a o.missed taken] }

def seek (k : ℕ) (o : Outbox α) : Outbox α := { o with next := k }

def restart (o : Outbox α) : Outbox α := { o with next := 0, missed := true }

def clear (o : Outbox α) : Outbox α :=
  { buffer := [], next := 0, missed := false
    history := o.history ++ [.dropped (o.buffer.drop o.next)] }

def Handed (o : Outbox α) (a : α) : Prop := ∃ told taken, Notice.handed a told taken ∈ o.history

/-- It is known what became of an entry: it waits, was handed over, overflowed or was dropped. -/
def Accounted (o : Outbox α) (a : α) : Prop :=
  a ∈ o.buffer.drop o.next ∨ o.Handed a ∨ Notice.overflowed a ∈ o.history ∨
    ∃ as, Notice.dropped as ∈ o.history ∧ a ∈ as

/-- What lies before the cursor was handed over. -/
structure Delivered (o : Outbox α) : Prop where
  next_le : o.next ≤ o.buffer.length
  reached : ∀ a ∈ o.buffer.take o.next, o.Handed a

structure Sound (o : Outbox α) : Prop extends Delivered o where
  accounted : ∀ a, Notice.stored a ∈ o.history → o.Accounted a
  announced : ∀ before n after, o.history = before ++ n :: after → n.isLoss = true → Notice.Told o.missed after

/-- What holds of an outbox stays while it is used, unless everything is dropped: the cursor moves
forward over entries that are handed over, and back. -/
structure Invariant (Q : Outbox α → Prop) : Prop where
  store : ∀ o a, Q o → Q (o.store a)
  discard : ∀ o, Q o → Q o.discard
  hand : ∀ o taken, Q o → Q (o.hand taken)
  seek : ∀ o k, k ≤ o.next → Q o → Q (o.seek k)
  restart : ∀ o, Q o → Q o.restart

lemma Handed.mono {o o' : Outbox α} (h : o.Handed a) (hs : o.history ⊆ o'.history) : o'.Handed a := by
  obtain ⟨told, taken, hm⟩ := h
  exact ⟨told, taken, hs hm⟩

lemma announced_append {l : List (Notice α)} {missed missed' : Bool} {x : Notice α}
    (h : ∀ before n after, l = before ++ n :: after → n.isLoss → Notice.Told missed after)
    (hold : missed → Notice.Told missed' [x]) (hnew : x.isLoss → missed') :
    ∀ before n after, l ++ [x] = before ++ n :: after → n.isLoss → Notice.Told missed' after := by
  intro before n after heq hn
  rcases History.split_append_one heq with ⟨after', rfl, hl⟩ | ⟨rfl, rfl, -⟩
  · exact Notice.told_append_of_imp (h before n after' hl hn) hold
  · exact hnew hn

lemma Accounted.mono {o : Outbox α} (h : o.Accounted a) (o' : Outbox α)
    (hs : o.history ⊆ o'.history) (hw : a ∈ o.buffer.drop o.next → o'.Accounted a) : o'.Accounted a := by
  rcases h with h | h | h | ⟨as, h1, h2⟩
  · exact hw h
  · exact .inr (.inl (h.mono hs))
  · exact .inr (.inr (.inl (hs h)))
  · exact .inr (.inr (.inr ⟨as, hs h1, h2⟩))

variable {o : Outbox α} {a : α} {rest : List α}

lemma discard_passed (hb : o.buffer = a :: rest) (hn : 0 < o.next) :
    o.discard = { o with buffer := rest, next := o.next - 1 } := by simp [discard, hb, hn]

lemma discard_waiting (hb : o.buffer = a :: rest) (hn : ¬ 0 < o.next) : o.discard =
    { o with buffer := rest, missed := true, history := o.history ++ [.overflowed a] } := by
  simp [discard, hb, hn]

lemma hand_eq {taken : Bool} (ha : o.buffer[o.next]? = some a) : o.hand taken =
    { o with next := o.next + 1, missed := !taken
             history := o.history ++ [.handed a o.missed taken] } := by
  simp [hand, ha]

namespace Delivered

protected lemma empty : (⟨[], 0, false, []⟩ : Outbox α).Delivered := by
  refine ⟨Nat.le_refl _, ?_⟩
  intro a ha
  simp at ha

section
variable (h : o.Delivered)
include h

protected lemma store (a : α) : (o.store a).Delivered := by
  refine ⟨?_, ?_⟩
  · have := h.next_le
    simp only [Outbox.store, length_append]
    omega
  intro b hb
  rw [Outbox.store, take_append_of_le_length h.next_le] at hb
  exact (h.reached b hb).mono (subset_append_left _ _)

protected lemma discard : o.discard.Delivered := by
  rcases hb : o.buffer with _ | ⟨a, rest⟩
  · simpa [Outbox.discard, hb] using h
  by_cases hn : 0 < o.next
  · -- The discarded entry had been handed over.
    obtain ⟨k, hk⟩ : ∃ k, o.next = k + 1 := ⟨o.next - 1, by omega⟩
    have hle : k + 1 ≤ rest.length + 1 := by simpa [hb, hk] using h.next_le
    rw [discard_passed hb hn]
    refine ⟨?_, ?_⟩
    · simp only [hk]
      omega
    intro b hb'
    apply h.reached
    simp only [hb, hk, take_succ_cons]
    simp only [hk, Nat.add_sub_cancel] at hb'
    exact mem_cons_of_mem _ hb'
  have h0 : o.next = 0 := by omega
  rw [discard_waiting hb hn]
  refine ⟨?_, ?_⟩
  · simp [h0]
  · intro b hb'
    simp [h0] at hb'

protected lemma hand (taken : Bool) : (o.hand taken).Delivered := by
  rcases ha : o.buffer[o.next]? with _ | a
  · simpa [Outbox.hand, ha] using h
  obtain ⟨hlt, hget⟩ := List.getElem?_eq_some_iff.mp ha
  rw [hand_eq ha]
  refine ⟨hlt, ?_⟩
  intro b hb
  rw [List.take_succ_eq_append_getElem hlt, hget] at hb
  rcases List.mem_append.mp hb with hb | hb
  · exact (h.reached b hb).mono (List.subset_append_left _ _)
  · have hba : b = a := by simpa using hb
    exact ⟨o.missed, taken, by simp [hba]⟩

protected lemma seek {k : ℕ} (hk : k ≤ o.next) : (o.seek k).Delivered := by
  refine ⟨Nat.le_trans hk h.next_le, ?_⟩
  intro a ha
  exact h.reached a (take_subset_take_left o.buffer hk ha)

protected lemma restart : o.restart.Delivered :=
  ⟨Nat.zero_le _, (h.seek (Nat.zero_le o.next)).reached⟩

end

protected lemma clear (o : Outbox α) : o.clear.Delivered := by
  refine ⟨Nat.zero_le _, ?_⟩
  intro a ha
  simp [Outbox.clear] at ha

lemma invariant : Invariant (Delivered (α := α)) :=
  ⟨fun _ a h => h.store a, fun _ h => h.discard, fun _ taken h => h.hand taken,
    fun _ _ hk h => h.seek hk, fun _ h => h.restart⟩

end Delivered

namespace Sound

protected lemma empty : (⟨[], 0, false, []⟩ : Outbox α).Sound := by
  refine ⟨.empty, ?_, ?_⟩
  · nofun
  · intro before n after h
    simp at h

section
variable (h : o.Sound)
include h

protected lemma store (a : α) : (o.store a).Sound := by
  refine ⟨h.toDelivered.store a, ?_, ?_⟩
  · intro b hb
    have hdrop : (o.store a).buffer.drop (o.store a).next = o.buffer.drop o.next ++ [a] :=
      drop_append_of_le_length h.next_le
    rcases mem_append.mp hb with hb | hb
    · apply (h.accounted b hb).mono _ (subset_append_left _ _)
      intro hw
      left
      rw [hdrop]
      exact mem_append_left _ hw
    have hba : b = a := by simpa using hb
    left
    simp [hdrop, hba]
  · exact announced_append h.announced (fun hm => hm) (by simp [Notice.isLoss])

protected lemma discard : o.discard.Sound := by
  have hd := h.toDelivered.discard
  rcases hb : o.buffer with _ | ⟨a, rest⟩
  · simpa [Outbox.discard, hb] using h
  by_cases hn : 0 < o.next
  · obtain ⟨k, hk⟩ : ∃ k, o.next = k + 1 := ⟨o.next - 1, by omega⟩
    rw [discard_passed hb hn] at hd ⊢
    refine ⟨hd, ?_, h.announced⟩
    intro b hb'
    refine (h.accounted b hb').mono _ (List.Subset.refl _) ?_
    intro hw
    left
    simpa [hb, hk] using hw
  -- The discarded entry waited: it overflows, and the flag says so.
  have h0 : o.next = 0 := by omega
  rw [discard_waiting hb hn] at hd ⊢
  refine ⟨hd, ?_, ?_⟩
  · intro b hb'
    have hb' : Notice.stored b ∈ o.history := by simpa using hb'
    apply (h.accounted b hb').mono _ (subset_append_left _ _)
    intro hw
    have hw : b = a ∨ b ∈ rest := by simpa [hb, h0] using hw
    rcases hw with rfl | hw
    · exact .inr (.inr (.inl (by simp)))
    · exact .inl (by simpa [h0] using hw)
  · exact announced_append h.announced (fun _ => rfl) (fun _ => rfl)

protected lemma hand (taken : Bool) : (o.hand taken).Sound := by
  have hd := h.toDelivered.hand taken
  rcases ha : o.buffer[o.next]? with _ | a
  · simpa [Outbox.hand, ha] using h
  obtain ⟨hlt, hget⟩ := List.getElem?_eq_some_iff.mp ha
  rw [hand_eq ha] at hd ⊢
  refine ⟨hd, ?_, ?_⟩
  · intro b hb
    have hb : Notice.stored b ∈ o.history := by simpa using hb
    refine (h.accounted b hb).mono _ (List.subset_append_left _ _) ?_
    intro hw
    rw [List.drop_eq_getElem_cons hlt, hget] at hw
    rcases List.mem_cons.mp hw with rfl | hw
    · exact .inr (.inl ⟨o.missed, taken, by simp⟩)
    · exact .inl hw
  apply announced_append h.announced
  · intro hm
    cases taken with
    | true => exact hm
    | false => rfl
  · intro hl
    simpa [Notice.isLoss] using hl

protected lemma seek {k : ℕ} (hk : k ≤ o.next) : (o.seek k).Sound := by
  refine ⟨h.toDelivered.seek hk, ?_, h.announced⟩
  intro b hb
  refine (h.accounted b hb).mono _ (List.Subset.refl _) ?_
  intro hw
  left
  have hsplit : o.buffer.drop o.next = (o.buffer.drop k).drop (o.next - k) := by
    rw [drop_drop]
    congr 1
    omega
  rw [hsplit] at hw
  exact mem_of_mem_drop hw

protected lemma restart : o.restart.Sound := by
  refine ⟨h.toDelivered.restart, (h.seek (Nat.zero_le o.next)).accounted, ?_⟩
  intro before n after heq hn
  have htold := h.announced before n after heq hn
  have hto : Notice.Told true (after ++ []) := Notice.told_append_of_imp htold (fun _ => rfl)
  rw [append_nil] at hto
  exact hto

protected lemma clear (hm : o.missed = false) : o.clear.Sound := by
  refine ⟨.clear o, ?_, ?_⟩
  · intro b hb
    have hb : Notice.stored b ∈ o.history := by simpa [Outbox.clear] using hb
    refine (h.accounted b hb).mono _ (subset_append_left _ _) ?_
    intro hw
    exact .inr (.inr (.inr ⟨o.buffer.drop o.next, by simp [Outbox.clear], hw⟩))
  apply announced_append h.announced
  · intro ht
    simp [hm] at ht
  · simp [Notice.isLoss]

end

lemma invariant : Invariant (Sound (α := α)) :=
  ⟨fun _ a h => h.store a, fun _ h => h.discard, fun _ taken h => h.hand taken,
    fun _ _ hk h => h.seek hk, fun _ h => h.restart⟩

end Sound

end Outbox
end Iec61850
