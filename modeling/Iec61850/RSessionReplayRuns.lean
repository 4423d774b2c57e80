import Iec61850.Sequences
import Iec61850.Net
import Iec61850.Lookup
import Iec61850.RSessionSafety
import Iec61850.Runs

/-! The receiving half of a session, its runs against an attacker who re-sends, and its replay window against
what it accepted. -/
namespace Iec61850.RSession
open SlidingWindow

/-- The highest number seen, and a bitmap of the ones below it: bit `i` says that `top - i` has been
accepted. Times are nanoseconds of a monotonic clock. -/
structure ReplayWindow where
  top : UInt32 := 0
  seen : BitVec 64 := 0
  last : Option ℕ := none

namespace ReplayWindow

def expired (w : ReplayWindow) (now : ℕ) (reset : Option ℕ) : Bool :=
  match w.last, reset with
  | none, _ => true
  | some last, some reset => decide (reset < now - last)
  | some _, none => false

def accept (w : ReplayWindow) (n : UInt32) (now size : ℕ) (reset : Option ℕ) : Bool × ReplayWindow :=
  if w.expired now reset then (true, ⟨n, 1#64, some now⟩)
  else
    let diff := (n - w.top).toBitVec.toInt
    if 0 < diff then
      (true, ⟨n, if 64 ≤ diff then 1#64 else w.seen <<< diff.toNat ||| 1#64, some now⟩)
    else
      let off := (-diff).toNat
      if size ≤ off ∨ w.seen &&& (1#64 <<< off) ≠ 0#64 then (false, w)
      else (true, { w with seen := w.seen ||| 1#64 <<< off, last := some now })

/-- The window stands for the indices accepted since it was started, the newest of them `top`. -/
structure Holds (w : ReplayWindow) (top : ℕ) (accepted : Set ℕ) : Prop where
  top_eq : w.top = UInt32.ofNat top
  mem : top ∈ accepted
  le : ∀ i ∈ accepted, i ≤ top
  bits : Tracks w.seen top accepted
  last : w.last ≠ none

variable {reset : Option ℕ} {w : ReplayWindow}

lemma accept_of_expired {now : ℕ} (h : w.expired now reset) (i size : ℕ) :
    ∃ w', w.accept (UInt32.ofNat i) now size reset = (true, w') ∧ w'.Holds i {i} := by
  refine ⟨_, by rw [accept, if_pos h], ?_⟩
  exact ⟨rfl, rfl, fun j hj => (Set.mem_singleton_iff.mp hj).le, tracks_one i, by simp⟩

lemma accept_of_holds {top i now size : ℕ} {accepted : Set ℕ}
    (hw : w.Holds top accepted) (hexp : w.expired now reset = false) (hsz : size ≤ 64)
    (hi : i < top + 2 ^ 31) (ht : top ≤ i + 2 ^ 31) :
    (∃ w', w.accept (UInt32.ofNat i) now size reset = (true, w') ∧ (top < i ∨ top < i + size) ∧ i ∉ accepted ∧
        w'.Holds (max top i) (insert i accepted)) ∨
      (w.accept (UInt32.ofNat i) now size reset = (false, w) ∧ i ≤ top ∧ (i + size ≤ top ∨ i ∈ accepted)) := by
  have hdiff : (UInt32.ofNat i - w.top).toBitVec.toInt = (i : ℤ) - top := by
    rw [hw.top_eq, serial_sub hi ht]
  simp only [accept, hexp, Bool.false_eq_true, if_false, hdiff]
  by_cases hnew : top < i
  · left
    rw [if_pos (by omega)]
    refine ⟨_, rfl, .inl hnew, fun hm => ?_, ?_⟩
    · have := hw.le i hm
      omega
    rw [max_eq_right hnew.le]
    refine ⟨rfl, Set.mem_insert _ _, ?_, ?_, by simp⟩
    · rintro j (rfl | hj)
      · exact le_rfl
      · exact (hw.le j hj).trans hnew.le
    have hsub : ((i : ℤ) - top).toNat = i - top := by omega
    have hfar : (64 ≤ (i : ℤ) - top) ↔ 64 ≤ i - top := by omega
    simp only [hsub, hfar]
    exact hw.bits.advance hw.le hnew
  rw [if_neg (by omega)]
  have hoff : (-((i : ℤ) - top)).toNat = top - i := by omega
  rw [hoff]
  by_cases hold : size ≤ top - i
  · right
    rw [if_pos (.inl hold)]
    exact ⟨rfl, by omega, .inl (by omega)⟩
  have hlt : top - i < 64 := by omega
  have hbit : w.seen &&& (1#64 <<< (top - i)) ≠ 0#64 ↔ i ∈ accepted := by
    rw [and_twoPow_ne_zero hlt, hw.bits _ hlt, show top - (top - i) = i by omega]
    exact and_iff_right (by omega)
  by_cases hseen : i ∈ accepted
  · right
    rw [if_pos (.inr (hbit.mpr hseen))]
    exact ⟨rfl, by omega, .inr hseen⟩
  left
  rw [if_neg (not_or.mpr ⟨hold, mt hbit.mp hseen⟩)]
  refine ⟨_, rfl, .inr (by omega), hseen, ?_⟩
  rw [max_eq_left (by omega)]
  refine ⟨hw.top_eq, Set.mem_insert_of_mem _ hw.mem, ?_, ?_, by simp⟩
  · rintro j (rfl | hj)
    · omega
    · exact hw.le j hj
  · have := hw.bits.mark hlt (by omega)
    rwa [show top - (top - i) = i by omega] at this

end ReplayWindow

/-- What a session is configured with, as far as receiving goes. Durations are nanoseconds. -/
structure Config where
  allowUnsecured : Bool := false
  replayWindow : ℤ := 0
  replayReset : Option ℕ := none

structure Stats where
  accepted : ℕ := 0
  malformed : ℕ := 0
  unknownKey : ℕ := 0
  unauthentic : ℕ := 0
  unsecured : ℕ := 0
  replayed : ℕ := 0

structure StreamKey where
  source : SocketAddr
  si : UInt8
  keyId : UInt32
deriving DecidableEq

def maxStreams : ℕ := 4096

structure Session where
  allowUnsecured : Bool
  replayWindow : ℤ
  replayReset : Option ℕ
  replay : Table StreamKey ReplayWindow := ∅
  stats : Stats := {}

def Session.open (cfg : Config) : Session where
  allowUnsecured := cfg.allowUnsecured
  replayWindow := if cfg.replayWindow = 0 then 64 else min cfg.replayWindow 64
  replayReset :=
    match cfg.replayReset with
    | none => some (10 * 10 ^ 9)
    | some d => if d = 0 then none else some d

def streamKey (source : SocketAddr) (spdu : Spdu) : StreamKey := ⟨source, spdu.si, spdu.keyId⟩

def Session.pruned (σ : Session) (k : StreamKey) (now : ℕ) : Table StreamKey ReplayWindow :=
  if k ∉ σ.replay ∧ maxStreams ≤ σ.replay.entries.length then
    match σ.replayReset with
    | some reset => σ.replay.retain fun _ w => w.last.any fun l => decide (now - l ≤ reset)
    | none => σ.replay
  else σ.replay

def Session.fresh (σ : Session) (source : SocketAddr) (spdu : Spdu) (now : ℕ) : Bool × Session :=
  let k := streamKey source spdu
  let table := σ.pruned k now
  let w := (table.lookup k).getD {}
  let (ok, w) := w.accept spdu.number now σ.replayWindow.toNat σ.replayReset
  (ok, { σ with replay := table.insert k w })

def Stats.refuse (s : Stats) : Error → Stats
  | .unknownKey _ => { s with unknownKey := s.unknownKey + 1 }
  | .authentication _ => { s with unauthentic := s.unauthentic + 1 }
  | .algorithm _ => { s with unauthentic := s.unauthentic + 1 }
  | _ => { s with malformed := s.malformed + 1 }

def replayText (number : UInt32) (source : SocketAddr) (display : SocketAddr → String) : String :=
  s!"number {number} from " ++ display source

variable (c : Crypto) (display : SocketAddr → String)

/-- Decodes and verifies one datagram against the session's keys and policy. `display` writes an address. -/
def Session.check (σ : Session) (keys : Option KeyStore) (b : List UInt8) (source : SocketAddr) (now : ℕ) :
    Outcome Error Spdu × Session :=
  match unmarshal c b keys with
  | .panic => (.panic, σ)
  | .error e => (.error e, { σ with stats := σ.stats.refuse e })
  | .ok spdu =>
    if spdu.keyId = 0 then
      if !σ.allowUnsecured then
        (.error .unsecured, { σ with stats := { σ.stats with unsecured := σ.stats.unsecured + 1 } })
      else (.ok spdu, σ)
    else if 0 < σ.replayWindow then
      match σ.fresh source spdu now with
      | (true, σ) => (.ok spdu, σ)
      | (false, σ) =>
        (.error (.replay (replayText spdu.number source display)),
          { σ with stats := { σ.stats with replayed := σ.stats.replayed + 1 } })
    else (.ok spdu, σ)

def Session.receive (σ : Session) (keys : Option KeyStore) (b : List UInt8) (source : SocketAddr)
    (now : ℕ) : Outcome Error Spdu × Session :=
  match σ.check c display keys b source now with
  | (.ok spdu, σ) =>
    (.ok spdu, { σ with stats := { σ.stats with accepted := σ.stats.accepted + 1 } })
  | r => r

open List Option AList

/-- What every sender put on the network: the SPDU with each index, numbered by its index modulo the
number space. -/
structure Senders where
  spdu : SocketAddr → ℕ → Spdu
  number_eq : ∀ o i, (spdu o i).number = UInt32.ofNat i

/-- A datagram as it arrives, with the keys the store holds at that moment. `origin` and `index` say which
SPDU of which sender it is a copy of. -/
structure Arrival where
  octets : List UInt8
  source : SocketAddr
  now : ℕ
  keys : Option KeyStore
  origin : SocketAddr
  index : ℕ

inductive Event where
  | reset (k : StreamKey)
  | delivered (k : StreamKey) (origin : SocketAddr) (index : ℕ)
deriving DecidableEq

def live (k : StreamKey) : List Event → List ℕ
  | [] => []
  | .reset k' :: log => if k' = k then [] else live k log
  | .delivered k' _ i :: log => if k' = k then i :: live k log else live k log

/-- No SPDU is delivered again before the stream that delivered it first is reset. -/
def NoReplay (log : List Event) : Prop :=
  ∀ newer k o i between k' older,
    log = newer ++ .delivered k o i :: between ++ .delivered k' o i :: older → .reset k' ∈ between

structure Receiver where
  session : Session
  log : List Event := []

def Session.resets (σ : Session) (k : StreamKey) (now : ℕ) : List StreamKey :=
  (σ.replay.entries.filter fun e => e.2.expired now σ.replayReset &&
    (decide (e.1 = k) || decide (k ∉ σ.replay ∧ maxStreams ≤ σ.replay.entries.length))).map (·.1)

variable (c : Crypto) (display : SocketAddr → String)

def Arrival.verified (a : Arrival) : Option Spdu :=
  match unmarshal c a.octets a.keys with
  | .ok s => if s.keyId = 0 then none else some s
  | _ => none

def Receiver.afterResets (t : Receiver) (a : Arrival) (s : Spdu) : List Event :=
  (t.session.resets (streamKey a.source s) a.now).map .reset ++ t.log

def Receiver.step (t : Receiver) (a : Arrival) : Receiver :=
  let (out, σ) := t.session.receive c display a.keys a.octets a.source a.now
  match a.verified c with
  | none => ⟨σ, t.log⟩
  | some s =>
    match out with
    | .ok _ => ⟨σ, .delivered (streamKey a.source s) a.origin a.index :: t.afterResets a s⟩
    | _ => ⟨σ, t.afterResets a s⟩

def Receiver.run (t : Receiver) (as : List Arrival) : Receiver := as.foldl (Receiver.step c display) t

variable (senders : Senders)

/-- What is assumed of an arrival: nobody forges a MAC or a GCM tag, and the sender's number has moved less than
half the number space from the newest one accepted. -/
structure Genuine (t : Receiver) (a : Arrival) : Prop where
  unforged : ∀ s, a.verified c = some s → s = senders.spdu a.origin a.index
  near : ∀ s, a.verified c = some s →
    ∀ top ∈ (live (streamKey a.source s) (t.afterResets a s)).max?, a.index < top + 2 ^ 31 ∧ top < a.index + 2 ^ 31

/-- A secured SPDU arrives from the address of the sender that sent it. -/
def OwnAddress (a : Arrival) : Prop := ∀ s, a.verified c = some s → a.source = a.origin

def Meets : Receiver → List Arrival → Prop
  | _, [] => True
  | t, a :: as => (Genuine c senders t a ∧ OwnAddress c a) ∧ Meets (t.step c display a) as

lemma live_resets (k : StreamKey) (ks : List StreamKey) (log : List Event) :
    live k (ks.map .reset ++ log) = if k ∈ ks then [] else live k log := by
  induction ks with
  | nil => simp
  | cons k' ks ih =>
    simp only [map_cons, cons_append, live, ih, mem_cons]
    by_cases hk : k' = k
    · simp [hk]
    · simp [hk, Ne.symm hk]

variable {k : StreamKey} {o : SocketAddr} {log : List Event} {i : ℕ}

lemma mem_live_of_no_reset {between older : List Event}
    (h : .reset k ∉ between) : i ∈ live k (between ++ .delivered k o i :: older) := by
  induction between with
  | nil => simp [live]
  | cons e between ih =>
    rw [mem_cons, not_or] at h
    cases e with
    | reset k' =>
      have hne : k' ≠ k := fun he => h.1 (by rw [he])
      simpa [live, hne] using ih h.2
    | delivered k' o' i' =>
      simp only [cons_append, live]
      split
      · exact mem_cons_of_mem _ (ih h.2)
      · exact ih h.2

lemma noReplay_of_reset (h : NoReplay log) : NoReplay (.reset k :: log) := by
  intro newer k' o i between k'' older heq
  cases newer with
  | nil => simp at heq
  | cons e newer =>
    simp only [cons_append, cons.injEq] at heq
    exact h newer k' o i between k'' older heq.2

lemma noReplay_resets {ks : List StreamKey} (h : NoReplay log) : NoReplay (ks.map .reset ++ log) := by
  induction ks with
  | nil => exact h
  | cons k ks ih => exact noReplay_of_reset ih

lemma noReplay_delivered (h : NoReplay log)
    (hk : ∀ k', .delivered k' o i ∈ log → k' = k) (hi : i ∉ live k log) : NoReplay (.delivered k o i :: log) := by
  intro newer k' o' i' between k'' older heq
  cases newer with
  | nil =>
    obtain ⟨⟨rfl, rfl, rfl⟩, rfl⟩ := heq
    have hkk : k'' = k := hk k'' (by simp)
    subst hkk
    by_contra hno
    exact hi (mem_live_of_no_reset hno)
  | cons e newer =>
    simp only [cons_append, cons.injEq] at heq
    exact h newer k' o' i' between k'' older heq.2

lemma mem_resets {σ : Session} {k' : StreamKey} {now : ℕ} :
    k' ∈ σ.resets k now ↔ ∃ w, σ.replay.lookup k' = some w ∧ w.expired now σ.replayReset ∧
      (k' = k ∨ k ∉ σ.replay ∧ maxStreams ≤ σ.replay.entries.length) := by
  have hm (w : ReplayWindow) :
      σ.replay.lookup k' = some w ↔ (⟨k', w⟩ : Sigma fun _ : StreamKey => ReplayWindow) ∈ σ.replay.entries :=
    mem_lookup_iff
  simp only [Session.resets, List.mem_map, List.mem_filter, Bool.and_eq_true, Bool.or_eq_true,
    decide_eq_true_eq, hm]
  constructor
  · rintro ⟨⟨k1, w⟩, ⟨he, hx, hc⟩, rfl⟩
    exact ⟨w, he, hx, hc⟩
  · rintro ⟨w, he, hx, hc⟩
    exact ⟨⟨k', w⟩, ⟨he, hx, hc⟩, rfl⟩

open Receiver Session ReplayWindow

/-- The replay state of a receiver agrees with its log, and the log has no replay. -/
structure ReplayInv (senders : Senders) (t : Receiver) : Prop where
  size_pos : 0 < t.session.replayWindow
  size_le : t.session.replayWindow.toNat ≤ 64
  windows : ∀ k w, t.session.replay.lookup k = some w → ∃ top, w.Holds top {i | i ∈ live k t.log}
  free : ∀ k, t.session.replay.lookup k = none → live k t.log = []
  own : ∀ k o i, .delivered k o i ∈ t.log → k = streamKey o (senders.spdu o i)
  noReplay : NoReplay t.log

variable {c : Crypto} (display : SocketAddr → String) {senders : Senders} {w : ReplayWindow} {σ : Session}
  {a : Arrival} {k' : StreamKey} {reset : Option ℕ} {size : ℕ}

lemma receive_of_unverified (h : a.verified c = none) :
    ∃ out st, σ.receive c display a.keys a.octets a.source a.now = (out, { σ with stats := st }) := by
  unfold Arrival.verified at h
  unfold receive check
  cases hu : unmarshal c a.octets a.keys with
  | panic => exact ⟨_, σ.stats, rfl⟩
  | error e => exact ⟨_, _, rfl⟩
  | ok s =>
    have hz : s.keyId = 0 := by
      by_contra hne
      simp [hu, hne] at h
    simp only [hz, if_true]
    by_cases hu : σ.allowUnsecured
    · simp only [hu, Bool.not_true, Bool.false_eq_true, if_false]
      exact ⟨_, _, rfl⟩
    · simp only [hu, Bool.not_false, if_true]
      exact ⟨_, _, rfl⟩

lemma receive_of_verified {s : Spdu} (h : a.verified c = some s) (hpos : 0 < σ.replayWindow) :
    ∃ out st, σ.receive c display a.keys a.octets a.source a.now =
        (out, { (σ.fresh a.source s a.now).2 with stats := st }) ∧ out = if (σ.fresh a.source s a.now).1 then .ok s
        else .error (.replay (replayText s.number a.source display)) := by
  have hu : unmarshal c a.octets a.keys = .ok s ∧ s.keyId ≠ 0 := by
    unfold Arrival.verified at h
    cases hu : unmarshal c a.octets a.keys with
    | ok s' =>
      by_cases hz : s'.keyId = 0
      · simp [hu, hz] at h
      simp only [hu, hz, if_false, some.injEq] at h
      subst h
      exact ⟨rfl, hz⟩
    | error e => simp [hu] at h
    | panic => simp [hu] at h
  simp only [receive, check, hu.1, hu.2, if_false, hpos, if_true]
  rcases hf : σ.fresh a.source s a.now with ⟨ok, σ'⟩
  cases ok with
  | true | false => exact ⟨_, _, rfl, rfl⟩

lemma fresh_eq (σ : Session) (source : SocketAddr) (s : Spdu) (now : ℕ) : σ.fresh source s now =
      ((((σ.pruned (streamKey source s) now).lookup (streamKey source s)).getD {}).accept s.number now
          σ.replayWindow.toNat σ.replayReset).map id fun w =>
        { σ with replay := (σ.pruned (streamKey source s) now).insert (streamKey source s) w } := rfl

variable {now top : ℕ}

lemma pruned_of_not_full
    (h : ¬ (k ∉ σ.replay ∧ maxStreams ≤ σ.replay.entries.length)) : σ.pruned k now = σ.replay := if_neg h

lemma expired_none (h : w.last ≠ none) : w.expired now none = false := by
  cases hl : w.last with
  | none => exact absurd hl h
  | some l => simp [expired, hl]

lemma expired_some {d : ℕ} : w.expired now (some d) = !w.last.any fun l => decide (now - l ≤ d) := by
  cases hl : w.last with
  | none => simp [expired, hl]
  | some l =>
    simp only [expired, hl, any_some, ← decide_not, not_le]

lemma lookup_pruned_eq_some (hls : ∀ k w, σ.replay.lookup k = some w → w.last ≠ none)
    (h : (σ.pruned k now).lookup k' = some w) :
    σ.replay.lookup k' = some w ∧ (k' ∈ σ.resets k now → k' = k ∧ w.expired now σ.replayReset) := by
  by_cases hfull : k ∉ σ.replay ∧ maxStreams ≤ σ.replay.entries.length
  · rw [pruned, if_pos hfull] at h
    have hresets : σ.replay.lookup k' = some w → k' ∈ σ.resets k now →
        w.expired now σ.replayReset := by
      intro hl hm
      obtain ⟨w', hw', hx, -⟩ := mem_resets.mp hm
      rw [hl, some.injEq] at hw'
      exact hw' ▸ hx
    cases hr : σ.replayReset with
    | none =>
      rw [hr] at h
      refine ⟨h, fun hm => ?_⟩
      have hx := hresets h hm
      rw [hr, expired_none (hls k' w h)] at hx
      exact absurd hx (by simp)
    | some d =>
      rw [hr] at h
      obtain ⟨hl, hkeep⟩ := Table.lookup_retain_eq_some.mp h
      refine ⟨hl, fun hm => ?_⟩
      have hx := hresets hl hm
      rw [hr, expired_some, hkeep] at hx
      exact absurd hx (by simp)
  · rw [pruned_of_not_full hfull] at h
    refine ⟨h, fun hm => ?_⟩
    obtain ⟨w', hw', hx, hk | hf⟩ := mem_resets.mp hm
    · rw [h, some.injEq] at hw'
      exact ⟨hk, hw' ▸ hx⟩
    · exact absurd hf hfull

lemma lookup_pruned_eq_none
    (h : (σ.pruned k now).lookup k' = none) : σ.replay.lookup k' = none ∨ k' ∈ σ.resets k now := by
  rcases hl : σ.replay.lookup k' with _ | w
  · exact .inl rfl
  right
  by_cases hfull : k ∉ σ.replay ∧ maxStreams ≤ σ.replay.entries.length
  · rw [pruned, if_pos hfull] at h
    rcases hr : σ.replayReset with _ | d
    · rw [hr] at h
      simp [hl] at h
    rw [hr] at h
    have hdrop : ¬ (w.last.any fun l => decide (now - l ≤ d)) := by
      intro hkeep
      have hin := (Table.lookup_retain_eq_some
        (p := fun _ w => w.last.any fun l => decide (now - l ≤ d))).mpr ⟨hl, hkeep⟩
      rw [h] at hin
      simp at hin
    refine mem_resets.mpr ⟨w, hl, ?_, .inr hfull⟩
    rw [hr, expired_some]
    simpa using hdrop
  · rw [pruned_of_not_full hfull, hl] at h
    simp at h

lemma max?_of_holds {l : List ℕ} (h : w.Holds top {i | i ∈ l}) : l.max? = some top :=
  max?_eq_some_iff.mpr ⟨h.mem, h.le⟩

variable {t : Receiver} {s : Spdu}

/-- What taking or refusing an index means for a window and the indices live in its stream. -/
def Takes (index : ℕ) (alive : List ℕ) (r : Bool × ReplayWindow) : Prop :=
  if r.1 then index ∉ alive ∧ ∃ top, r.2.Holds top {i | i ∈ index :: alive}
  else ∃ top, r.2.Holds top {i | i ∈ alive}

lemma takes_of_expired (h : w.expired now reset) (i : ℕ) : Takes i [] (w.accept (UInt32.ofNat i) now size reset) := by
  obtain ⟨w', hacc, hholds⟩ := accept_of_expired h i size
  have hset : {j | j ∈ [i]} = ({i} : Set ℕ) := by
    ext j
    simp
  rw [hacc, Takes, if_pos rfl, hset]
  exact ⟨by simp, i, hholds⟩

lemma takes_of_holds {alive : List ℕ}
    (hw : w.Holds top {j | j ∈ alive}) (hx : w.expired now reset = false) (hsz : size ≤ 64)
    (hi : i < top + 2 ^ 31) (ht : top < i + 2 ^ 31) : Takes i alive (w.accept (UInt32.ofNat i) now size reset) := by
  rcases accept_of_holds hw hx hsz hi ht.le with ⟨w', hacc, -, hfre, hholds⟩ | ⟨hacc, -⟩
  · have hset : {j | j ∈ i :: alive} = insert i {j | j ∈ alive} := by
      ext j
      simp
    rw [hacc, Takes, if_pos rfl, hset]
    exact ⟨hfre, _, hholds⟩
  · rw [hacc, Takes, if_neg (by simp)]
    exact ⟨top, hw⟩

lemma ReplayInv.last (hinv : ReplayInv senders t) : ∀ k w, t.session.replay.lookup k = some w → w.last ≠ none := by
  intro k w hw
  obtain ⟨top, hh⟩ := hinv.windows k w hw
  exact hh.last

section
variable (hinv : ReplayInv senders t)
include hinv

lemma accept_live (hgen : Genuine c senders t a) (hs : a.verified c = some s) :
    Takes a.index (live (streamKey a.source s) (t.afterResets a s))
      ((((t.session.pruned (streamKey a.source s) a.now).lookup (streamKey a.source s)).getD {}).accept
        s.number a.now t.session.replayWindow.toNat t.session.replayReset) := by
  have hnum : s.number = UInt32.ofNat a.index := by
    rw [hgen.unforged s hs, senders.number_eq]
  have hnear := hgen.near s hs
  generalize hk : streamKey a.source s = k at *
  have hlv : live k (t.afterResets a s) = if k ∈ t.session.resets k a.now then [] else live k t.log := by
    rw [afterResets, hk]
    exact live_resets k _ t.log
  rw [hnum]
  cases hl : (t.session.pruned k a.now).lookup k with
  | none =>
    have hnil : live k (t.afterResets a s) = [] := by
      rw [hlv]
      rcases lookup_pruned_eq_none hl with hnone | hm
      · rw [hinv.free k hnone, ite_self]
      · rw [if_pos hm]
    rw [hnil]
    exact takes_of_expired rfl a.index
  | some w =>
    obtain ⟨hw, hreset⟩ := lookup_pruned_eq_some hinv.last hl
    cases hx : w.expired a.now t.session.replayReset with
    | true =>
      rw [hlv, if_pos (mem_resets.mpr ⟨w, hw, hx, .inl rfl⟩)]
      exact takes_of_expired hx a.index
    | false =>
      have hno : k ∉ t.session.resets k a.now := by
        intro hm
        rw [(hreset hm).2] at hx
        exact absurd hx (by simp)
      rw [if_neg hno] at hlv
      obtain ⟨top, hholds⟩ := hinv.windows k w hw
      rw [hlv] at hnear ⊢
      obtain ⟨hi, ht⟩ := hnear top (max?_of_holds hholds)
      exact takes_of_holds hholds hx hinv.size_le hi ht

lemma other_windows (hk : k' ≠ streamKey a.source s) :
    (∀ w, (t.session.pruned (streamKey a.source s) a.now).lookup k' = some w →
        ∃ top, w.Holds top {i | i ∈ live k' (t.afterResets a s)}) ∧
      ((t.session.pruned (streamKey a.source s) a.now).lookup k' = none → live k' (t.afterResets a s) = []) := by
  have hlv := live_resets k' (t.session.resets (streamKey a.source s) a.now) t.log
  constructor
  · intro w hw
    obtain ⟨hl, hreset⟩ := lookup_pruned_eq_some hinv.last hw
    rw [afterResets, hlv, if_neg fun hm => hk (hreset hm).1]
    exact hinv.windows k' w hl
  intro hno
  rw [afterResets, hlv]
  rcases lookup_pruned_eq_none hno with hl | hm
  · rw [hinv.free k' hl, ite_self]
  · rw [if_pos hm]

lemma own_afterResets (h : .delivered k o i ∈ t.afterResets a s) : k = streamKey o (senders.spdu o i) := by
  rw [afterResets, mem_append] at h
  rcases h with h | h
  · simp at h
  · exact hinv.own k o i h

lemma replayInv_insert (st : Stats) (hw : ∃ top, w.Holds top {i | i ∈ live (streamKey a.source s) log})
    (hsm : ∀ k', k' ≠ streamKey a.source s → live k' log = live k' (t.afterResets a s))
    (hown : ∀ k o i, .delivered k o i ∈ log → k = streamKey o (senders.spdu o i)) (hlaw : NoReplay log) :
    ReplayInv senders ⟨{ t.session with
          replay := (t.session.pruned (streamKey a.source s) a.now).insert (streamKey a.source s) w
          stats := st }, log⟩ := by
  refine ⟨hinv.size_pos, hinv.size_le, ?_, ?_, hown, hlaw⟩
  · intro k' w' hl
    by_cases hk : k' = streamKey a.source s
    · subst hk
      rw [lookup_insert, some.injEq] at hl
      exact hl ▸ hw
    rw [lookup_insert_ne hk] at hl
    rw [hsm k' hk]
    exact (other_windows hinv hk).1 w' hl
  intro k' hl
  by_cases hk : k' = streamKey a.source s
  · subst hk
    simp at hl
  rw [lookup_insert_ne hk] at hl
  rw [hsm k' hk]
  exact (other_windows hinv hk).2 hl

lemma step_replayInv (hgen : Genuine c senders t a)
    (hown : OwnAddress c a) : ReplayInv senders (t.step c display a) := by
  cases hs : a.verified c with
  | none =>
    obtain ⟨out, st, hr⟩ := receive_of_unverified (σ := t.session) display hs
    have hstep : t.step c display a = ⟨{ t.session with stats := st }, t.log⟩ := by
      simp only [step, hr, hs]
    rw [hstep]
    exact ⟨hinv.size_pos, hinv.size_le, hinv.windows, hinv.free, hinv.own, hinv.noReplay⟩
  | some s =>
    obtain ⟨out, st, hr, hout⟩ := receive_of_verified display hs hinv.size_pos
    have htakes := accept_live hinv hgen hs
    have hlaw : NoReplay (t.afterResets a s) := noReplay_resets hinv.noReplay
    have hmine : streamKey a.source s = streamKey a.origin (senders.spdu a.origin a.index) := by
      rw [hown s hs, ← hgen.unforged s hs]
    rw [fresh_eq] at hr hout
    simp only [step, hr, hs, hout]
    generalize hacc : accept _ _ _ _ _ = r at htakes ⊢
    obtain ⟨ok, w⟩ := r
    cases ok with
    | true =>
      obtain ⟨hfre, htop⟩ := htakes
      have hhead : live (streamKey a.source s)
          (.delivered (streamKey a.source s) a.origin a.index :: t.afterResets a s) =
            a.index :: live (streamKey a.source s) (t.afterResets a s) := if_pos rfl
      apply replayInv_insert hinv
      · rw [hhead]
        exact htop
      · intro k' hk
        exact if_neg (Ne.symm hk)
      · intro k o i hm
        rw [mem_cons, Event.delivered.injEq] at hm
        rcases hm with ⟨rfl, rfl, rfl⟩ | hm
        · exact hmine
        · exact own_afterResets hinv hm
      · refine noReplay_delivered hlaw ?_ hfre
        intro k' hm
        rw [own_afterResets hinv hm, hmine]
    | false =>
      exact replayInv_insert hinv st htakes (fun _ _ => rfl) (fun _ _ _ h => own_afterResets hinv h) hlaw

end

lemma replayInv_open (cfg : Config) (hcfg : 0 ≤ cfg.replayWindow) :
    ReplayInv senders { session := Session.open cfg } := by
  refine ⟨?_, ?_, ?_, fun _ _ => rfl, by simp, ?_⟩
  · simp only [Session.open]
    split <;> omega
  · simp only [Session.open]
    split <;> omega
  · intro k w h
    simp [Session.open] at h
  · intro newer k o i between k' older h
    simp at h

lemma run_replayInv (as : List Arrival) (hinv : ReplayInv senders t)
    (h : Meets c display senders t as) : ReplayInv senders (t.run c display as) := by
  induction as generalizing t with
  | nil => exact hinv
  | cons a as ih => exact ih (step_replayInv display hinv h.1.1 h.1.2) h.2

def recordedMac : List UInt8 :=
  [0x58, 0x78, 0x33, 0xb7, 0x31, 0xf5, 0x50, 0x72, 0x01, 0xb9, 0x57, 0x50, 0x1c, 0x7b, 0x09, 0x87,
    0x60, 0x76, 0xf0, 0x62, 0xe4, 0x68, 0xf9, 0x53, 0x60, 0xc3, 0x1d, 0x49, 0x65, 0xe5, 0x01, 0xa3]

def recordedCrypto : Crypto := ⟨fun _ _ _ _ _ => none, fun _ _ => recordedMac, fun _ _ => []⟩

def recordedKeys : Option KeyStore :=
  (KeyStore.withKeys [⟨1, List.replicate 16 0x30, .none, .hmacSha256_128, 0, 0⟩]).toOption

def recordedOctets : List UInt8 :=
  [0x01, 0x40, 0xa1, 24, 0x80, 10, 0, 0, 0, 40, 0, 0, 0, 7, 0, 1, 0, 0, 0, 0, 0, 0, 0, 2, 0, 0, 0, 1,
    0, 0, 0, 0, 0x85, 16] ++ recordedMac.take 16

def recordedSenders : Senders :=
  ⟨fun _ i => { si := 0xa1, number := UInt32.ofNat i, version := 1, keyId := 1, signed := true },
    fun _ _ => rfl⟩

def publisher : SocketAddr := ⟨.v4 10 0 0 1, 102, 0, 0⟩

def attacker : SocketAddr := ⟨.v4 10 0 0 2, 102, 0, 0⟩

def recorded (source : SocketAddr) : Arrival := ⟨recordedOctets, source, 0, recordedKeys, publisher, 7⟩

lemma unmarshal_recorded :
    unmarshal recordedCrypto recordedOctets recordedKeys = .ok (recordedSenders.spdu publisher 7) := by
  decide +kernel

lemma verified_recorded (source : SocketAddr) :
    (recorded source).verified recordedCrypto = some (recordedSenders.spdu publisher 7) := by
  simp only [Arrival.verified, recorded, unmarshal_recorded]
  exact if_neg (by decide)

lemma genuine_recorded {source : SocketAddr} (h : ∀ i ∈ live (streamKey source (recordedSenders.spdu publisher 7))
      (t.afterResets (recorded source) (recordedSenders.spdu publisher 7)), i = 7) :
    Genuine recordedCrypto recordedSenders t (recorded source) := by
  refine ⟨?_, ?_⟩
  · intro s hs
    rw [verified_recorded, some.injEq] at hs
    exact hs.symm
  intro s hs top htop
  rw [verified_recorded, some.injEq] at hs
  subst hs
  have htop7 : top = 7 := h top (max?_mem htop)
  subst htop7
  have hlt : 7 < 7 + 2 ^ 31 := Nat.lt_add_of_pos_right (Nat.two_pow_pos 31)
  exact ⟨hlt, hlt⟩

open SlidingWindow List UInt32 ReplayWindow

/-- A stream whose numbers are counted on beyond `2 ^ 32`: the highest one accepted, and all of them. -/
structure Unrolled where
  top : ℕ
  accepted : List ℕ

namespace Unrolled

/-- The count that has the number `n` and is nearest to the highest one. -/
def index (s : Unrolled) (n : UInt32) : ℕ := (s.top + (n - UInt32.ofNat s.top).toBitVec.toInt).toNat

def Accepts (s : Unrolled) (size : ℕ) (n : UInt32) : Prop :=
  s.top < s.index n ∨ s.top < s.index n + size ∧ s.index n ∉ s.accepted
deriving Decidable

def offer (s : Unrolled) (size : ℕ) (n : UInt32) : Unrolled :=
  if s.Accepts size n then ⟨max s.top (s.index n), s.index n :: s.accepted⟩ else s

/-- The count starts high enough for the numbers behind the first one. -/
def first (n : UInt32) : Unrolled := ⟨n.toNat + 2 ^ 32, [n.toNat + 2 ^ 32]⟩

variable {s : Unrolled}

lemma index_spec (h : 2 ^ 31 ≤ s.top) (n : UInt32) :
    UInt32.ofNat (s.index n) = n ∧ s.index n < s.top + 2 ^ 31 ∧ s.top ≤ s.index n + 2 ^ 31 := by
  have hlo : _ ≤ 2 * (n - UInt32.ofNat s.top).toBitVec.toInt := BitVec.le_two_mul_toInt
  have hhi : 2 * (n - UInt32.ofNat s.top).toBitVec.toInt < _ := BitVec.two_mul_toInt_lt
  have hcast : ((s.index n : ℕ) : ℤ) = s.top + (n - UInt32.ofNat s.top).toBitVec.toInt := by
    unfold index
    omega
  refine ⟨?_, by omega, by omega⟩
  apply UInt32.toBitVec_inj.mp
  have hnat : (UInt32.ofNat (s.index n)).toBitVec = BitVec.ofInt 32 (s.index n : ℕ) := (BitVec.ofInt_natCast 32 _).symm
  rw [hnat, hcast, BitVec.ofInt_add, BitVec.ofInt_toInt, BitVec.ofInt_natCast, UInt32.toBitVec_sub]
  exact (BitVec.add_comm _ _).trans (BitVec.sub_add_cancel _ _)

lemma index_ofNat (hi : i < s.top + 2 ^ 31) (ht : s.top ≤ i + 2 ^ 31) : s.index (UInt32.ofNat i) = i := by
  unfold index
  rw [serial_sub hi ht]
  omega

end Unrolled

/-- An arriving number and the time, at the window and in the count. -/
def observe (size : ℕ) (reset : Option ℕ) (s : ReplayWindow × Unrolled) (x : UInt32 × ℕ) : ReplayWindow × Unrolled :=
  ((s.1.accept x.1 x.2 size reset).2, s.2.offer size x.1)

def Running (reset : Option ℕ) (s : ReplayWindow × Unrolled) (x : UInt32 × ℕ) : Prop := s.1.expired x.2 reset = false

def Matches (s : ReplayWindow × Unrolled) : Prop := 2 ^ 32 ≤ s.2.top ∧ s.1.Holds s.2.top {i | i ∈ s.2.accepted}

variable {s : ReplayWindow × Unrolled} {n : UInt32}

lemma matches_first (h : w.expired now reset) (n : UInt32) : Matches ((w.accept n now size reset).2, .first n) := by
  have hn : UInt32.ofNat (n.toNat + 2 ^ 32) = n := by
    rw [← UInt32.toNat_inj, UInt32.toNat_ofNat']
    have := n.toNat_lt
    omega
  obtain ⟨w', hw, hholds⟩ := ReplayWindow.accept_of_expired h (n.toNat + 2 ^ 32) size
  rw [hn] at hw
  rw [hw]
  exact ⟨Nat.le_add_left _ _, by simpa [Unrolled.first] using hholds⟩

lemma accept_of_matches (hs : Matches s) (hsz : size ≤ 64) (hx : s.1.expired now reset = false) :
    ((s.1.accept n now size reset).1 ↔ s.2.Accepts size n) ∧ Matches (observe size reset s (n, now)) := by
  obtain ⟨htop, hholds⟩ := hs
  obtain ⟨hn, hlt, hle⟩ := Unrolled.index_spec (s := s.2) (by omega) n
  have hset : {j | j ∈ s.2.index n :: s.2.accepted} = insert (s.2.index n) {j | j ∈ s.2.accepted} := by
    ext j
    simp
  have hcs := accept_of_holds hholds hx hsz hlt hle
  rw [hn] at hcs
  unfold observe Unrolled.offer Matches
  rcases hcs with ⟨w', hacc, hnear, hfre, hholds'⟩ | ⟨hacc, hbehind, href⟩
  · have haccepts : s.2.Accepts size n := hnear.imp id fun hnear => ⟨hnear, hfre⟩
    rw [hacc, if_pos haccepts, hset]
    exact ⟨by simp [haccepts], le_max_of_le_left htop, hholds'⟩
  have haccepts : ¬ s.2.Accepts size n := by
    rintro (hahd | ⟨hnear, hfre⟩)
    · omega
    · exact href.elim (fun hfar => by omega) fun hm => hfre hm
  rw [hacc, if_neg haccepts]
  exact ⟨by simp [haccepts], htop, hholds⟩

/-- The numbers that a sending session gives to its SPDUs, with the times at which they arrive. -/
def sent : UInt32 → List ℕ → List (UInt32 × ℕ)
  | _, [] => []
  | number, now :: rest => (number, now) :: sent (number + 1) rest

def decisions (size : ℕ) (reset : Option ℕ) : ReplayWindow → List (UInt32 × ℕ) → List Bool
  | _, [] => []
  | w, (n, now) :: rest => (w.accept n now size reset).1 :: decisions size reset (w.accept n now size reset).2 rest

lemma decisions_sent (h : w.last = none ∨ w.top + 1 = n) (times : List ℕ) :
    decisions size reset w (sent n times) = replicate times.length true := by
  induction times generalizing w n with
  | nil => rfl
  | cons now times ih =>
    have hnx : ∃ w', w.accept n now size reset = (true, w') ∧ w'.top = n := by
      unfold ReplayWindow.accept
      split
      · exact ⟨_, rfl, rfl⟩
      next hx =>
        have htop : w.top + 1 = n := by
          refine h.resolve_left fun hno => hx ?_
          simp [ReplayWindow.expired, hno]
        have hone : (n - w.top).toBitVec.toInt = 1 := by
          rw [← htop, show w.top + 1 - w.top = 1 by rw [UInt32.add_comm, UInt32.add_sub_cancel]]
          rfl
        rw [hone]
        exact ⟨_, rfl, rfl⟩
    obtain ⟨w', hacc, htop⟩ := hnx
    rw [sent, decisions, hacc, ih (.inr (by rw [htop])), length_cons, replicate_succ]

/-- Between resets a number is accepted if it is ahead of the highest one, or in the window behind it and not
accepted in this turn of the count. No number is accepted twice until the highest is more than `2 ^ 31` past it,
and what a session sends is accepted in full. -/
theorem replay_window_exact (size : ℕ) (hsize : size ≤ 64) (reset : Option ℕ) (w : ReplayWindow) (n : UInt32)
    (now : ℕ) (hstart : w.expired now reset = true) (arrivals : List (UInt32 × ℕ))
    (hrun : Runs.Admitted (observe size reset) (Running reset) ((w.accept n now size reset).2, .first n) arrivals) :
    let s := arrivals.foldl (observe size reset) ((w.accept n now size reset).2, .first n)
    (∀ n now, Running reset s (n, now) → ((s.1.accept n now size reset).1 = true ↔ s.2.Accepts size n)) ∧
      (∀ i ∈ s.2.accepted, s.2.top ≤ i + 2 ^ 31 →
        ∀ now, Running reset s (ofNat i, now) → (s.1.accept (ofNat i) now size reset).1 = false) ∧
      ∀ number times, decisions size reset {} (sent number times) = replicate times.length true := by
  intro s
  have hs : Matches s := Runs.induction_admitted Matches
    (fun _ _ hs hx => (accept_of_matches hs hsize hx).2) (matches_first hstart n) hrun
  refine ⟨fun n now hx => (accept_of_matches hs hsize hx).1, ?_, fun number => decisions_sent (.inl rfl)⟩
  intro i hi hnear now hx
  have hle := hs.2.le i hi
  rw [← Bool.not_eq_true, (accept_of_matches hs hsize hx).1, Unrolled.Accepts, Unrolled.index_ofNat (by omega) hnear]
  rintro (hahd | ⟨-, hfre⟩)
  · omega
  · exact hfre hi

theorem replay_window_exact_at :
    let s := [(8, 1), (5, 2)].foldl (observe 64 none) ((({ } : ReplayWindow).accept 7 0 64 none).2, .first 7)
    (s.1.accept 5 3 64 none).1 = false ∧ decisions 64 none {} (sent 4294967295 [0, 1]) = [true, true] := by
  have h := replay_window_exact 64 le_rfl none {} 7 0 rfl [(8, 1), (5, 2)] ⟨rfl, rfl, trivial⟩
  exact ⟨h.2.1 4294967301 (by decide +kernel) (by decide +kernel) 3 rfl, h.2.2 4294967295 [0, 1]⟩

/-- A number accepted late is accepted again after the highest one has advanced by less than `2 ^ 31`. -/
theorem late_number_accepted_twice : (2147483710 : UInt32).toNat - (63 : UInt32).toNat < 2 ^ 31 ∧
    decisions 64 none {} [(63, 0), (0, 1), (2147483710, 2), (0, 3)] = [true, true, true, true] := by decide +kernel

def Stats.total (s : Stats) : ℕ :=
  s.accepted + s.malformed + s.unknownKey + s.unauthentic + s.unsecured + s.replayed

lemma total_receive (σ : Session) {a : Arrival} (h : ¬ Version1Sealed a.octets a.keys) :
    (σ.receive c display a.keys a.octets a.source a.now).2.stats.total = σ.stats.total + 1 := by
  rw [← unmarshal_eq_panic c] at h
  unfold receive check
  cases hu : unmarshal c a.octets a.keys with
  | panic => exact absurd hu h
  | error e => cases e <;> grind [Stats.refuse, Stats.total]
  | ok s =>
    have hf : (σ.fresh a.source s a.now).2.stats = σ.stats := rfl
    rcases hfre : σ.fresh a.source s a.now with ⟨ok, σ'⟩
    rw [hfre] at hf
    cases ok <;> grind [Stats.total]

/-- In every run of a session each datagram is counted in exactly one counter, but for those that decoding aborts
on. -/
theorem datagrams_counted (σ : Session) (as : List Arrival) (h : ∀ a ∈ as, ¬ Version1Sealed a.octets a.keys) :
    (as.foldl (fun σ a => (σ.receive c display a.keys a.octets a.source a.now).2) σ).stats.total =
      σ.stats.total + as.length := by
  induction as generalizing σ with
  | nil => rfl
  | cons a as ih =>
    obtain ⟨hfirst, hrest⟩ := forall_mem_cons.mp h
    rw [foldl_cons, ih _ hrest, total_receive _ σ hfirst, length_cons]
    omega

/-- A datagram that is accepted and, received once more, is a replay. -/
theorem recorded_counted_twice : ([recorded publisher, recorded publisher].foldl
    (fun σ a => (σ.receive recordedCrypto (fun _ => "") a.keys a.octets a.source a.now).2) (Session.open {})).stats.total =
      2 := by
  refine datagrams_counted _ (Session.open {}) _ fun a ha => ?_
  obtain rfl : a = recorded publisher := by simpa using ha
  rw [← unmarshal_eq_panic recordedCrypto]
  intro hpanic
  cases unmarshal_recorded.symm.trans hpanic

end Iec61850.RSession
