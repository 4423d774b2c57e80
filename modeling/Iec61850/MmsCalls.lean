import Iec61850.MmsDecode
import Iec61850.Runs
import Iec61850.Lookup

/-! Confirmed requests of a client connection, the PDUs that complete them, and those started while it ends. -/
namespace Iec61850.Mms
open Option ListIndex Table List

inductive CallStage where
  | numbered
  /-- Its slot is registered, and the request is being written. -/
  | sending
  /-- The request is written, and nobody has waited for the response. -/
  | outstanding
  /-- The receiving end of the channel is moved into the wait. -/
  | waiting
  | ended
deriving DecidableEq

inductive CloseCause where
  /-- The reader could not go on. -/
  | transport
  | aborted
  | closed
deriving DecidableEq

inductive Channel where
  | empty
  /-- The answer of the server, with the PDU it came in, which no function reads. -/
  | answered (pdu : List UInt8) (result : Except ServiceError (List UInt8))
  | failed (cause : CloseCause)
  | abandoned
deriving DecidableEq

structure Call where
  id : UInt32
  stage : CallStage := .numbered
  channel : Channel := .empty
deriving DecidableEq

def Call.abandon (c : Call) : Call := if c.channel = .empty then { c with channel := .abandoned } else c

inductive ConnState where
  | connected
  | closing
  | closed
deriving DecidableEq

/-- How far the reader task has come: it fails all calls in two steps, under a lock of their own each. -/
inductive ReaderStage where
  | reading
  | failing
  | ended
deriving DecidableEq

/-- The calls of a connection, in the order they began; a slot holds the number of its call. -/
structure Calls where
  state : ConnState := .connected
  closeErr : Option CloseCause := none
  reader : ReaderStage := .reading
  nextId : UInt32 := 1
  pending : Table UInt32 ℕ := ∅
  calls : List Call := []

inductive CallStep where
  /-- A caller finds the connection up and takes an identifier. -/
  | begin
  | register (k : ℕ)
  /-- The request is written, or that fails. -/
  | sent (k : ℕ) (ok : Bool)
  /-- The wait for the response is polled for the first time. -/
  | wait (k : ℕ)
  | receive (k : ℕ)
  | drop (k : ℕ)
  | timeout (k : ℕ)
  | pdu (octets : List UInt8)
  /-- Reading fails, and the reader task records why the association ended. -/
  | fail (cause : CloseCause)
  /-- Then it fails every pending call. -/
  | drain
  | abort
  | close

namespace Calls

def setStage (s : Calls) (k : ℕ) (stage : CallStage) : Calls :=
  { s with calls := s.calls.modify k fun c => { c with stage := stage } }

def atStage (s : Calls) (k : ℕ) (stage : CallStage) : Option Call :=
  (s.calls[k]?).filter fun c => c.stage == stage

def dropSender (s : Calls) (id : UInt32) : Calls :=
  match s.pending.lookup id with
  | some k => { s with calls := s.calls.modify k Call.abandon }
  | none => s

def register (s : Calls) (k : ℕ) (c : Call) : Calls :=
  { s.dropSender c.id with
    pending := s.pending.insert c.id k
    calls := (s.dropSender c.id).calls.modify k fun c => { c with stage := .sending, channel := .empty } }

def remove (s : Calls) (id : UInt32) : Calls := { s.dropSender id with pending := s.pending.erase id }

def release (s : Calls) (k : ℕ) (c : Call) : Calls := (s.remove c.id).setStage k .ended

def deliver (s : Calls) (id : UInt32) (result : Channel) : Calls :=
  match s.pending.lookup id with
  | none => s
  | some k =>
    { s with
      pending := s.pending.erase id
      calls := s.calls.modify k fun c => { c with channel := result } }

def drain (s : Calls) : Calls :=
  { s with
    reader := .ended
    pending := ∅
    calls := s.calls.mapIdx fun k c =>
      if s.pending.lookup c.id = some k then { c with channel := .failed (s.closeErr.getD .closed) } else c }

def closing (s : Calls) (cause : CloseCause) : Calls :=
  if s.state = .connected then { s with state := .closing, closeErr := some cause } else s

def step (s : Calls) : CallStep → Calls
  | .begin =>
    if s.state = .connected then { s with calls := s.calls ++ [{ id := s.nextId }], nextId := s.nextId + 1 } else s
  | .register k => ((s.atStage k .numbered).map (s.register k)).getD s
  | .sent k ok =>
    match s.atStage k .sending with
    | none => s
    | some c => if ok then s.setStage k .outstanding else s.release k c
  | .wait k => ((s.atStage k .outstanding).map fun _ => s.setStage k .waiting).getD s
  | .receive k =>
    match s.atStage k .waiting with
    | none => s
    | some c => if c.channel = .empty then s else s.setStage k .ended
  | .drop k =>
    match s.calls[k]? with
    | none => s
    | some c =>
      match c.stage with
      -- The slot is released while the receiving end is in its place.
      | .outstanding => s.release k c
      | .sending | .waiting => s.setStage k .ended
      | .numbered | .ended => s
  | .timeout k => ((s.atStage k .waiting).map fun _ => s.setStage k .ended).getD s
  | .pdu octets =>
    if s.reader = .reading then
      match dispatch octets with
      | some (id, result) => s.deliver id (.answered octets result)
      | none => s
    else s
  | .fail cause =>
    -- The first cause wins; a close or an abort records its own before.
    if s.reader = .reading then
      { s with
        reader := .failing
        state := .closed
        closeErr := if s.state = .connected then some cause else s.closeErr }
    else s
  | .drain => if s.reader = .failing then s.drain else s
  | .abort => s.closing .aborted
  | .close => s.closing .closed

def run (s : Calls) (steps : List CallStep) : Calls := steps.foldl step s

/-- A call is neither answered nor failed, dropped or timed out. -/
def Outstanding (s : Calls) (k : ℕ) (id : UInt32) : Prop :=
  ∃ c, s.calls[k]? = some c ∧ c.id = id ∧ c.channel = .empty ∧
    (c.stage = .sending ∨ c.stage = .outstanding ∨ c.stage = .waiting)

/-- Slots are those of outstanding calls. -/
def Released (s : Calls) : Prop := s.pending.All fun id k => s.Outstanding k id

/-- A call that is dropped or times out is not registered any more. -/
def Collected (s : Calls) : CallStep → Prop
  | .drop k =>
    ∀ c ∈ s.calls[k]?, c.stage = .sending ∨ c.stage = .waiting → s.pending.lookup c.id ≠ some k
  | .timeout k => ∀ c ∈ s.calls[k]?, c.stage = .waiting → s.pending.lookup c.id ≠ some k
  | _ => True

instance (s : Calls) (x : CallStep) : Decidable (s.Collected x) := by
  cases x <;> unfold Collected <;> infer_instance

variable {s s' : Calls} {k j : ℕ} {id : UInt32} {c : Call} {f : Call → Call} {stage : CallStage}

lemma atStage_eq_some (h : s.atStage k stage = some c) : s.calls[k]? = some c ∧ c.stage = stage := by
  obtain ⟨hc, hst⟩ := filter_eq_some_iff.mp h
  exact ⟨hc, by simpa using hst⟩

lemma Outstanding.modify_ne (h : s.Outstanding k id) (hne : j ≠ k)
    (hcls : s'.calls = s.calls.modify j f) : s'.Outstanding k id := by
  obtain ⟨c, hc, hrs⟩ := h
  refine ⟨c, ?_, hrs⟩
  rw [hcls, getElem?_modify_of_ne hne.symm, hc]

section
variable (h : s.Released)
include h

lemma Released.id_eq (hsl : s.pending.lookup id = some k) (hc : s.calls[k]? = some c) :
    c.id = id ∧ c.channel = .empty ∧ (c.stage = .sending ∨ c.stage = .outstanding ∨ c.stage = .waiting) := by
  obtain ⟨c', hc', hrs⟩ := h id k hsl
  obtain rfl := mem_unique hc hc'
  exact hrs

lemma Released.no_slot (hc : s.calls[k]? = some c)
    (hfree : s.pending.lookup c.id ≠ some k) : ∀ id, s.pending.lookup id ≠ some k := by
  intro id hsl
  obtain ⟨rfl, -⟩ := h.id_eq hsl hc
  exact hfree hsl

lemma Released.modify (hfree : ∀ id, s.pending.lookup id ≠ some k)
    (hcls : s'.calls = s.calls.modify k f) (hp : s'.pending = s.pending) : s'.Released := by
  intro id k' hsl
  rw [hp] at hsl
  refine (h id k' hsl).modify_ne ?_ hcls
  rintro rfl
  exact hfree id hsl

lemma Released.setStage (hst : stage = .sending ∨ stage = .outstanding ∨ stage = .waiting) :
    (s.setStage k stage).Released := by
  intro id k' hsl
  obtain ⟨c, hc, hid, hchan, hlv⟩ := h id k' hsl
  by_cases hk : k = k'
  · subst hk
    exact ⟨_, getElem?_modify_self hc, hid, hchan, hst⟩
  · exact Outstanding.modify_ne ⟨c, hc, hid, hchan, hlv⟩ hk rfl

lemma Released.remove (hid : ∀ c, s.calls[k]? = some c → c.id = id)
    (hcls : s'.calls = s.calls.modify k f) (hp : s'.pending = s.pending.erase id) : s'.Released := by
  intro id' k' hsl
  rw [hp] at hsl
  obtain ⟨hne, hsl⟩ := lookup_erase_eq_some.mp hsl
  refine (h id' k' hsl).modify_ne ?_ hcls
  rintro rfl
  obtain ⟨c, hc, hid', -⟩ := h id' k hsl
  exact hne (hid'.symm.trans (hid c hc))

lemma released_begin : (s.step .begin).Released := by
  rw [step]
  split
  · intro id k hsl
    obtain ⟨c, hc, hrs⟩ := h id k hsl
    have hlt : k < s.calls.length := (List.getElem?_eq_some_iff.mp hc).1
    exact ⟨c, by rw [List.getElem?_append_left hlt]; exact hc, hrs⟩
  · exact h

end

@[simp] lemma abandon_id (c : Call) : c.abandon.id = c.id := by
  unfold Call.abandon
  split <;> rfl

@[simp] lemma abandon_stage (c : Call) : c.abandon.stage = c.stage := by
  unfold Call.abandon
  split <;> rfl

@[simp] lemma dropSender_reader : (s.dropSender id).reader = s.reader := by
  unfold dropSender
  split <;> rfl

lemma dropSender_getElem? : (s.dropSender id).calls[k]? =
    if s.pending.lookup id = some k then (s.calls[k]?).map Call.abandon else s.calls[k]? := by
  unfold dropSender
  split
  next j hj =>
    rw [getElem?_modify, hj]
    by_cases hk : j = k
    · simp [hk]
    · simp [hk]
  · next hno => simp [hno]

section
variable (h : s.Released)
include h

lemma Released.dropSender_of_ne {id' : UInt32} (hsl : s.pending.lookup id' = some k)
    (hne : id' ≠ id) : (s.dropSender id).calls[k]? = s.calls[k]? := by
  rw [dropSender_getElem?, if_neg]
  intro hslot'
  obtain ⟨c, hc, hid, -⟩ := h id' k hsl
  exact hne (hid.symm.trans (h.id_eq hslot' hc).1)

lemma released_register (hc : s.calls[k]? = some c) (hst : c.stage = .numbered) : (s.register k c).Released := by
  have hoth : ∀ id, s.pending.lookup id ≠ some k := by
    intro id hsl
    obtain ⟨-, -, hlv⟩ := h.id_eq hsl hc
    simp [hst] at hlv
  intro id k' hsl
  have hcls : (s.register k c).calls[k']? = _ := getElem?_modify _ _ _ _
  rcases lookup_insert_eq_some.mp hsl with ⟨rfl, rfl⟩ | ⟨hid, hsl⟩
  · refine ⟨{ c with stage := .sending, channel := .empty }, ?_, rfl, rfl, .inl rfl⟩
    rw [hcls, dropSender_getElem?, if_neg (hoth _), hc]
    simp
  obtain ⟨c', hc', hlv⟩ := h id k' hsl
  have hne : k ≠ k' := fun heq => hoth id (heq ▸ hsl)
  refine ⟨c', ?_, hlv⟩
  -- What is replaced in the slot is the sending end of another call.
  rw [hcls, h.dropSender_of_ne hsl hid, hc']
  simp [hne]

lemma released_remove : (s.remove id).Released := by
  intro id' k hsl
  have hsl : (s.pending.erase id).lookup id' = some k := hsl
  obtain ⟨hne, hsl⟩ := lookup_erase_eq_some.mp hsl
  obtain ⟨c, hc, hlv⟩ := h id' k hsl
  refine ⟨c, ?_, hlv⟩
  show (s.dropSender id).calls[k]? = _
  rw [h.dropSender_of_ne hsl hne, hc]

lemma released_release (hc : s.calls[k]? = some c) : (s.release k c).Released := by
  have hnx : (s.remove c.id).Released := released_remove h
  refine hnx.modify ?_ rfl rfl
  intro id' hsl
  obtain ⟨hne, hsl⟩ := lookup_erase_eq_some.mp hsl
  exact hne (h.id_eq hsl hc).1.symm

lemma released_deliver {result : Channel} : (s.deliver id result).Released := by
  unfold deliver
  split
  · exact h
  next k hsl =>
  refine h.remove ?_ rfl rfl
  intro c hc
  exact (h.id_eq hsl hc).1

lemma released_end_iff (hc : s.calls[k]? = some c) :
    (s.setStage k .ended).Released ↔ s.pending.lookup c.id ≠ some k := by
  constructor
  · intro hnx hsl
    obtain ⟨c', hc', -, -, hlv⟩ := hnx c.id k hsl
    have hend : (s.setStage k .ended).calls[k]? = some { c with stage := .ended } := getElem?_modify_self hc
    obtain rfl := mem_unique hend hc'
    simp at hlv
  · intro hfree
    exact h.modify (h.no_slot hc hfree) rfl rfl

lemma released_step_iff (x : CallStep) : (s.step x).Released ↔ s.Collected x := by
  cases x with
  | begin => exact iff_of_true (released_begin h) trivial
  | register k =>
    refine iff_of_true ?_ trivial
    rw [step]
    cases hat : s.atStage k .numbered with
    | none => exact h
    | some c => exact released_register h (atStage_eq_some hat).1 (atStage_eq_some hat).2
  | sent k ok =>
    refine iff_of_true ?_ trivial
    rw [step]
    split
    · exact h
    next c hat =>
    split
    · exact h.setStage (.inr (.inl rfl))
    · exact released_release h (atStage_eq_some hat).1
  | wait k =>
    refine iff_of_true ?_ trivial
    rw [step]
    cases s.atStage k .outstanding with
    | none => exact h
    | some c => exact h.setStage (.inr (.inr rfl))
  | receive k =>
    refine iff_of_true ?_ trivial
    rw [step]
    split
    · exact h
    next c hat =>
    split
    · exact h
    next hfull =>
      obtain ⟨hc, -⟩ := atStage_eq_some hat
      exact (released_end_iff h hc).mpr fun hsl => hfull (h.id_eq hsl hc).2.1
  | drop k =>
    rw [step, Collected]
    rcases hc : s.calls[k]? with _ | c
    · simp [h]
    cases hst : c.stage with
    | numbered | ended => simp [hst, h]
    | sending | waiting => simpa [hst] using released_end_iff h hc
    | outstanding => simp [hst, released_release h hc]
  | timeout k =>
    rw [step, Collected, atStage]
    rcases hc : s.calls[k]? with _ | c
    · simp [h]
    by_cases hst : c.stage = .waiting
    · simpa [hst, filter_some] using released_end_iff h hc
    · simp [hst, h, filter_some]
  | pdu octets =>
    refine iff_of_true ?_ trivial
    rw [step]
    split
    · split
      · exact released_deliver h
      · exact h
    · exact h
  | fail cause =>
    refine iff_of_true ?_ trivial
    rw [step]
    split
    · exact h
    · exact h
  | drain =>
    refine iff_of_true ?_ trivial
    rw [step]
    split
    · nofun
    · exact h
  | abort | close =>
    refine iff_of_true ?_ trivial
    rw [step, closing]
    split
    · exact h
    · exact h

end

variable {x : CallStep}

def Live (c : Call) : Prop := c.stage = .sending ∨ c.stage = .outstanding ∨ c.stage = .waiting
deriving Decidable

inductive Move (s : Calls) (x : CallStep) : Calls → Prop
  | begun : Move s x { s with calls := s.calls ++ [{ id := s.nextId }], nextId := s.nextId + 1 }
  | registered {k : ℕ} {c : Call} : x = .register k → s.atStage k .numbered = some c → Move s x (s.register k c)
  | staged {k : ℕ} {c : Call} {stage : CallStage} : s.calls[k]? = some c → Live c → stage ≠ .numbered →
      Move s x (s.setStage k stage)
  | released {k : ℕ} {c : Call} :
      (x = .sent k false ∧ s.atStage k .sending = some c) ∨ (x = .drop k ∧ s.atStage k .outstanding = some c) →
      Move s x (s.release k c)
  | answered {octets : List UInt8} {id : UInt32} {result : Except ServiceError (List UInt8)} :
      x = .pdu octets → s.reader = .reading → dispatch octets = some (id, result) →
      Move s x (s.deliver id (.answered octets result))
  | drained : Move s x s.drain
  /-- The life of the connection goes on, beside its calls. -/
  | lived {s' : Calls} : s'.calls = s.calls → s'.pending = s.pending → (s'.reader = .ended → s.reader = .ended) →
      Move s x s'

lemma Move.stay (s : Calls) (x : CallStep) : Move s x s := .lived rfl rfl fun h => h

lemma move_step (s : Calls) (x : CallStep) : Move s x (s.step x) := by
  cases x with
  | begin =>
    rw [step]
    split
    · exact .begun
    · exact .stay s _
  | register k =>
    rw [step]
    cases hat : s.atStage k .numbered with
    | none => exact .stay s _
    | some c => exact .registered rfl hat
  | sent k ok =>
    rw [step]
    split
    · exact .stay s _
    next c hat =>
    obtain ⟨hc, hst⟩ := atStage_eq_some hat
    split
    · exact .staged hc (.inl hst) (by decide)
    next hok =>
    rw [Bool.not_eq_true] at hok
    subst hok
    exact .released (.inl ⟨rfl, hat⟩)
  | wait k =>
    rw [step]
    cases hat : s.atStage k .outstanding with
    | none => exact .stay s _
    | some c =>
      obtain ⟨hc, hst⟩ := atStage_eq_some hat
      exact .staged hc (.inr (.inl hst)) (by decide)
  | receive k =>
    rw [step]
    split
    · exact .stay s _
    next c hat =>
    obtain ⟨hc, hst⟩ := atStage_eq_some hat
    split
    · exact .stay s _
    · exact .staged hc (.inr (.inr hst)) (by decide)
  | drop k =>
    rw [step]
    split
    · exact .stay s _
    next c hc =>
    split
    next hst =>
      have hat : s.atStage k .outstanding = some c := by simp [atStage, hc, hst, filter_some]
      exact .released (.inr ⟨rfl, hat⟩)
    · next hst => exact .staged hc (.inl hst) (by decide)
    · next hst => exact .staged hc (.inr (.inr hst)) (by decide)
    · exact .stay s _
    · exact .stay s _
  | timeout k =>
    rw [step]
    cases hat : s.atStage k .waiting with
    | none => exact .stay s _
    | some c =>
      obtain ⟨hc, hst⟩ := atStage_eq_some hat
      exact .staged hc (.inr (.inr hst)) (by decide)
  | pdu octets =>
    rw [step]
    split
    next hrdg =>
      split
      · next hd => exact .answered rfl hrdg hd
      · exact .stay s _
    · exact .stay s _
  | fail cause =>
    rw [step]
    split
    · exact .lived rfl rfl nofun
    · exact .stay s _
  | drain =>
    rw [step]
    split
    · exact .drained
    · exact .stay s _
  | abort | close =>
    rw [step, closing]
    split
    · exact .lived rfl rfl fun h => h
    · exact .stay s _

/-- In every state of a run the slots are those of outstanding calls, exactly if no call leaves its slot behind.
-/
theorem slots_released_iff (steps : List CallStep) :
    (∀ part, part <+: steps → (({} : Calls).run part).Released) ↔ Runs.Admitted step Collected {} steps := by
  refine Runs.forall_prefix_iff Released (fun s x h => released_step_iff h x) ?_
  intro id k hsl
  cases hsl

def waitingCall : List CallStep := [.begin, .register 0, .sent 0 true, .wait 0]

def firstAnswer : List UInt8 := (confirmedResponse 1 (Asn1.prim (Asn1.contextPrimitive 5) [])).encode

/-- A call that is answered before it returns leaves no slot. -/
theorem answered_call_released :
    ∀ part, part <+: waitingCall ++ [.pdu firstAnswer, .receive 0] → (({} : Calls).run part).Released :=
  (slots_released_iff (waitingCall ++ [.pdu firstAnswer, .receive 0])).mpr (by decide +kernel)

/-- A call that ends with a timeout leaves its slot behind. -/
theorem timed_out_call_kept : ¬ (({} : Calls).run (waitingCall ++ [.timeout 0])).Released := by
  intro h
  have hsl : (({} : Calls).run (waitingCall ++ [.timeout 0])).pending.lookup 1 = some 0 := by
    decide +kernel
  have hend : (({} : Calls).run (waitingCall ++ [.timeout 0])).calls[0]? = some ⟨1, .ended, .empty⟩ := by
    decide +kernel
  obtain ⟨c, hc, -, -, hlv⟩ := h 1 0 hsl
  obtain rfl := mem_unique hend hc
  simp at hlv

open AList

/-- A call that nobody has answered can be, as it is in its slot. -/
def Slotted (s : Calls) : Prop :=
  ∀ k c, s.calls[k]? = some c → Live c → c.channel = .empty → s.pending.lookup c.id = some k

lemma abandon_channel_ne (c : Call) : c.abandon.channel ≠ .empty := by
  unfold Call.abandon
  split
  · exact Channel.noConfusion
  · assumption

lemma not_live_ended : ¬ Live { c with stage := .ended } := by
  rintro (h | h | h) <;> cases h

section
variable (h : s.Slotted)
include h

lemma Slotted.dropSender (hc : (s.dropSender id).calls[k]? = some c) (hlv : Live c)
    (hemp : c.channel = .empty) : s.pending.lookup c.id = some k ∧ c.id ≠ id := by
  rw [dropSender_getElem?] at hc
  split at hc
  · obtain ⟨c', -, rfl⟩ := map_eq_some_iff.mp hc
    exact absurd hemp (abandon_channel_ne c')
  next hoth =>
  have hsl := h k c hc hlv hemp
  refine ⟨hsl, ?_⟩
  rintro rfl
  exact hoth hsl

lemma slotted_register (hc : s.calls[k]? = some c) : (s.register k c).Slotted := by
  intro j c' hc' hlv hemp
  show (s.pending.insert c.id k).lookup c'.id = some j
  rcases modify_cases hc' with ⟨rfl, c0, hc0, rfl⟩ | ⟨-, hc'⟩
  · have hid : c0.id = c.id := by
      rw [dropSender_getElem?, hc] at hc0
      split at hc0
      · rw [← some.inj hc0, abandon_id]
      · rw [some.inj hc0]
    rw [hid, lookup_insert]
  obtain ⟨hsl, hne⟩ := h.dropSender hc' hlv hemp
  rw [lookup_insert_ne hne]
  exact hsl

lemma slotted_release : (s.release k c).Slotted := by
  intro j c' hc' hlv hemp
  show (s.pending.erase c.id).lookup c'.id = some j
  rcases modify_cases hc' with ⟨rfl, c0, -, rfl⟩ | ⟨-, hc'⟩
  · exact absurd hlv not_live_ended
  obtain ⟨hsl, hne⟩ := h.dropSender hc' hlv hemp
  rw [lookup_erase_ne hne]
  exact hsl

lemma slotted_deliver {result : Channel} (hres : result ≠ .empty) : (s.deliver id result).Slotted := by
  unfold deliver
  split
  · exact h
  next k hk =>
  intro j c' hc' hlv hemp
  rcases modify_cases hc' with ⟨rfl, c0, -, rfl⟩ | ⟨hj, hc'⟩
  · exact absurd hemp hres
  have hsl := h j c' hc' hlv hemp
  have hne : c'.id ≠ id := by
    rintro rfl
    exact hj (mem_unique hsl hk)
  rw [lookup_erase_ne hne]
  exact hsl

lemma answered_drain (hc : s.drain.calls[k]? = some c) (hlv : Live c) : c.channel ≠ .empty := by
  have hc : (s.calls.mapIdx _)[k]? = some c := hc
  rw [List.getElem?_mapIdx] at hc
  obtain ⟨c0, hc0, rfl⟩ := map_eq_some_iff.mp hc
  split
  · exact Channel.noConfusion
  next hoth =>
  intro hemp
  rw [if_neg hoth] at hlv
  exact hoth (h k c0 hc0 hlv hemp)

lemma slotted_step (x : CallStep) : (s.step x).Slotted := by
  have hm := move_step s x
  generalize s.step x = s' at hm
  cases hm with
  | begun =>
    intro j c hc hlv hemp
    rcases append_cases hc with hc | ⟨-, rfl⟩
    · exact h j c hc hlv hemp
    · -- The new call has not registered.
      rcases hlv with h | h | h <;> cases h
  | staged hc hlv hst =>
    intro j c' hc' hlive' hemp
    rcases modify_cases hc' with ⟨rfl, c0, hc0, rfl⟩ | ⟨-, hc'⟩
    · obtain rfl := mem_unique hc hc0
      have hsl := h j _ hc hlv hemp
      exact hsl
    · exact h j c' hc' hlive' hemp
  | registered hx hat => exact slotted_register h (atStage_eq_some hat).1
  | released hx => exact slotted_release h
  | answered hx hrdg hd => exact slotted_deliver h Channel.noConfusion
  | drained =>
    intro j c hc hlv hemp
    exact absurd hemp (answered_drain h hc hlv)
  | lived hcls hpend _ =>
    intro j c hc hlv hemp
    rw [hcls] at hc
    rw [hpend]
    exact h j c hc hlv hemp

end

/-- Once the reader task has failed all calls there is no slot, and no call waits without a result. -/
def Settled (s : Calls) : Prop :=
  s.reader = .ended → s.pending = ∅ ∧ ∀ (k : ℕ) c, s.calls[k]? = some c → Live c → c.channel ≠ .empty

/-- No call registers once the reader has ended. -/
def InTime (s : Calls) : CallStep → Prop
  | .register k => s.reader = .ended → s.atStage k .numbered = none
  | _ => True

instance (s : Calls) (x : CallStep) : Decidable (s.InTime x) := by
  cases x <;> unfold InTime <;> infer_instance

lemma Slotted.settled (h : s.Slotted) (hp : s.pending = ∅) : s.Settled := by
  intro _
  refine ⟨hp, ?_⟩
  intro k c hc hlv hemp
  have hsl := h k c hc hlv hemp
  rw [hp] at hsl
  cases hsl

lemma pending_step (hx : ∀ k, x ≠ .register k) (hp : s.pending = ∅) : (s.step x).pending = ∅ := by
  have hm := move_step s x
  generalize s.step x = s' at hm
  cases hm with
  | begun | staged => exact hp
  | registered heq _ => exact absurd heq (hx _)
  | released _ =>
    show s.pending.erase _ = ∅
    rw [hp]
    rfl
  | answered _ _ hd =>
    unfold deliver
    rw [hp]
    exact hp
  | drained => rfl
  | lived hcls hpend _ => rw [hpend, hp]

lemma reader_step (hend : (s.step x).reader = .ended) : s.reader = .ended ∨ (s.step x).pending = ∅ := by
  have hm := move_step s x
  generalize s.step x = s' at hm hend ⊢
  cases hm with
  | begun | staged => exact .inl hend
  | registered | released =>
    have hsm : (s.dropSender _).reader = .ended := hend
    rw [dropSender_reader] at hsm
    exact .inl hsm
  | answered _ _ hd =>
    unfold deliver at hend
    split at hend
    · exact .inl hend
    · exact .inl hend
  | drained => exact .inr rfl
  | lived hcls hpend hreader => exact .inl (hreader hend)

lemma settled_step_iff (hslots : s.Slotted) (h : s.Settled) (x : CallStep) : (s.step x).Settled ↔ s.InTime x := by
  have hnx := slotted_step hslots x
  by_cases hx : ∃ k, x = .register k
  · obtain ⟨k, rfl⟩ := hx
    rw [step, InTime]
    rcases hat : s.atStage k .numbered with _ | c
    · exact iff_of_true h fun _ => rfl
    have hreader : (s.register k c).reader = s.reader := dropSender_reader
    constructor
    · intro hset hend
      -- The slot of the call is there now.
      have hemp : s.pending.insert c.id k = ∅ := (hset (hreader.trans hend)).1
      have hsl : (s.pending.insert c.id k).lookup c.id = some k := lookup_insert _
      rw [hemp] at hsl
      cases hsl
    · intro hin hend
      exact absurd (hin (hreader.symm.trans hend)) (by simp)
  refine iff_of_true ?_ ?_
  · intro hend
    have hp : (s.step x).pending = ∅ := by
      rcases reader_step hend with hbef | hp
      · exact pending_step (fun k hk => hx ⟨k, hk⟩) (h hbef).1
      · exact hp
    exact hnx.settled hp hend
  cases x with
  | register k => exact absurd ⟨k, rfl⟩ hx
  | _ => trivial

/-- In every run calls that wait for an answer have different identifiers. -/
theorem waiting_ids_distinct (steps : List CallStep) :
    { k : ℕ | ∃ c ∈ (({} : Calls).run steps).calls[k]?, Live c ∧ c.channel = .empty }.InjOn
      fun k => (({} : Calls).run steps).calls[k]?.map Call.id := by
  have h : (({} : Calls).run steps).Slotted :=
    Runs.invariant Slotted (fun _ x h => slotted_step h x) (fun _ _ h => by cases h) steps
  rintro i ⟨a, ha, hlv, hemp⟩ j ⟨b, hb, hlive', hempty'⟩ hid
  have hi := h i a ha hlv hemp
  have hj := h j b hb hlive' hempty'
  grind

/-- In every state of a run no request outlives the association, exactly if no call of the run registers
after the reader task has failed all calls. -/
theorem settled_iff (steps : List CallStep) :
    (∀ part, part <+: steps → (({} : Calls).run part).Settled) ↔ Runs.Admitted step InTime {} steps := by
  have hslots (part : List CallStep) : (({} : Calls).run part).Slotted :=
    Runs.invariant Slotted (fun s x h => slotted_step h x) (fun k c hc => by cases hc) part
  have hiff : (∀ part, part <+: steps → (({} : Calls).run part).Slotted ∧ (({} : Calls).run part).Settled) ↔
      Runs.Admitted step InTime {} steps := by
    refine Runs.forall_prefix_iff (fun s : Calls => s.Slotted ∧ s.Settled) ?_ ⟨hslots [], nofun⟩
    intro s x h
    rw [← settled_step_iff h.1 h.2 x]
    exact and_iff_right (slotted_step h.1 x)
  rw [← hiff]
  apply forall₂_congr
  intro part _
  exact (and_iff_right (hslots part)).symm

/-- A call that waits when the reader fails gets the error. -/
theorem settled_waiting :
    ∀ part, part <+: waitingCall ++ [.fail .transport, .drain, .receive 0] → (({} : Calls).run part).Settled :=
  (settled_iff (waitingCall ++ [.fail .transport, .drain, .receive 0])).mpr (by decide +kernel)

def lateCall : List CallStep := [.begin, .fail .transport, .drain, .register 0, .sent 0 true, .wait 0]

theorem late_call_waits : (({} : Calls).run lateCall).state = .closed ∧ (({} : Calls).run lateCall).reader = .ended ∧
      (({} : Calls).run lateCall).pending.lookup 1 = some 0 ∧
      (({} : Calls).run lateCall).calls[0]? = some ⟨1, .waiting, .empty⟩ := by
  decide +kernel

end Calls

open Asn1

def carriedId (pdu : List UInt8) : Option ℕ :=
  match (Decoder.new pdu).readTlv with
  | .error _ => none
  | .ok ((tag, content), _) =>
    if tag = tagConfirmedResponse ∨ tag = tagConfirmedError then
      match (Decoder.new content).readTlv with
      | .error _ => none
      | .ok ((tag, id), _) =>
        if tag ≠ tagInteger ∧ tag ≠ contextPrimitive 0 then none else (decodeUint id).toOption
    else if tag = tagRejectPdu then
      match (Decoder.new content).optional (contextPrimitive 0) with
      | .ok (some id, _) => (decodeUint id).toOption
      | _ => none
    else none

namespace Calls
variable {s : Calls} {k : ℕ} {id : UInt32} {c : Call} {x : CallStep}

/-- A slot is that of a call of its identifier that has registered and is without a result, and a call that
has not registered has no result. -/
structure Fresh (s : Calls) : Prop where
  slots : s.pending.All fun id k =>
    ∃ c, s.calls[k]? = some c ∧ c.id = id ∧ c.channel = .empty ∧ c.stage ≠ .numbered
  numbered : ∀ (k : ℕ) c, s.calls[k]? = some c → c.stage = .numbered → c.channel = .empty

/-- The result of a call is the answer to it, and the call does not lose the chance to get one. -/
def Sound (s : Calls) : Prop :=
  ∀ (k : ℕ) c, s.calls[k]? = some c →
    (∀ pdu result, c.channel = .answered pdu result → carriedId pdu = some c.id.toNat) ∧
      (Live c → c.channel ≠ .abandoned)

/-- No other call waits in the slot of an identifier. -/
def Alone (s : Calls) (id : UInt32) (k : ℕ) : Prop :=
  ∀ j ∈ s.pending.lookup id, j ≠ k → ∀ c ∈ s.calls[j]?, ¬ Live c
deriving Decidable

/-- A call registers, fails or is dropped while no other live call is pending under its number, and a response
reaches a pending call only by the identifier in its octets. -/
def Own (s : Calls) : CallStep → Prop
  | .register k => ∀ c ∈ s.atStage k .numbered, s.Alone c.id k
  | .sent k ok => ok = false → ∀ c ∈ s.atStage k .sending, s.Alone c.id k
  | .drop k => ∀ c ∈ s.atStage k .outstanding, s.Alone c.id k
  | .pdu octets => s.reader = .reading → ∀ r ∈ dispatch octets, (s.pending.lookup r.1).isSome = true →
      carriedId octets = some r.1.toNat
  | _ => True

instance (s : Calls) (x : CallStep) : Decidable (s.Own x) := by
  cases x <;> unfold Own <;> infer_instance

/-- The result of a call, once it is there, stays. -/
def Once (s : Calls) (x : CallStep) : Prop :=
  ∀ (k : ℕ) c, s.calls[k]? = some c → c.channel ≠ .empty →
    ∃ c', (s.step x).calls[k]? = some c' ∧ c'.id = c.id ∧ c'.channel = c.channel

/-- A PDU that carries the identifier of no pending call changes nothing. -/
def Ignored (s : Calls) (x : CallStep) : Prop :=
  ∀ octets, x = .pdu octets → (∀ id : UInt32, carriedId octets = some id.toNat → s.pending.lookup id = none) →
    s.step x = s

lemma abandon_of_ne (h : c.channel ≠ .empty) : c.abandon = c := if_neg h

lemma abandon_channel_of_empty (h : c.channel = .empty) : c.abandon.channel = .abandoned := by
  rw [Call.abandon, if_pos h]

section
variable (h : s.Fresh)
include h

lemma Fresh.slot (hsl : s.pending.lookup id = some k) (hc : s.calls[k]? = some c) :
    c.id = id ∧ c.channel = .empty ∧ c.stage ≠ .numbered := by
  obtain ⟨c', hc', hrs⟩ := h.slots id k hsl
  obtain rfl := mem_unique hc hc'
  exact hrs

lemma Fresh.dropSender (hc : (s.dropSender id).calls[k]? = some c) :
    (s.pending.lookup id ≠ some k ∧ s.calls[k]? = some c) ∨
      ∃ c0, s.pending.lookup id = some k ∧ s.calls[k]? = some c0 ∧ c = { c0 with channel := .abandoned } := by
  rw [dropSender_getElem?] at hc
  split at hc
  next hsl =>
    obtain ⟨c0, hc0, rfl⟩ := map_eq_some_iff.mp hc
    refine .inr ⟨c0, hsl, hc0, ?_⟩
    rw [Call.abandon, if_pos (h.slot hsl hc0).2.1]
  · next hoth => exact .inl ⟨hoth, hc⟩

lemma Fresh.dropSender_of_ne {id' : UInt32} (hsl : s.pending.lookup id' = some k) (hne : id' ≠ id) :
    (s.dropSender id).calls[k]? = s.calls[k]? := by
  rw [dropSender_getElem?, if_neg]
  intro hslot'
  obtain ⟨c, hc, hid, -⟩ := h.slots id' k hsl
  exact hne (hid.symm.trans (h.slot hslot' hc).1)

lemma fresh_register (hat : s.atStage k .numbered = some c) : (s.register k c).Fresh := by
  obtain ⟨hc, hst⟩ := atStage_eq_some hat
  -- The call that registers is in no slot.
  have hfree (id : UInt32) : s.pending.lookup id ≠ some k := fun hsl => (h.slot hsl hc).2.2 hst
  refine ⟨?_, ?_⟩
  · intro id j hsl
    rcases Table.lookup_insert_eq_some.mp hsl with ⟨hid, rfl⟩ | ⟨hid, hsl⟩
    · have hc' : (s.dropSender c.id).calls[k]? = some c := by
        rw [dropSender_getElem?, if_neg (hfree c.id), hc]
      exact ⟨_, getElem?_modify_self hc', hid.symm, rfl, CallStage.noConfusion⟩
    obtain ⟨c', hc', hrs⟩ := h.slots id j hsl
    have hne : j ≠ k := fun heq => hfree id (heq ▸ hsl)
    refine ⟨c', ?_, hrs⟩
    show ((s.dropSender c.id).calls.modify k _)[j]? = some c'
    rw [getElem?_modify_of_ne hne, h.dropSender_of_ne hsl hid, hc']
  intro j c' hc' hnum
  rcases modify_cases hc' with ⟨rfl, c0, -, rfl⟩ | ⟨-, hc'⟩
  · cases hnum
  rcases h.dropSender hc' with ⟨-, hc'⟩ | ⟨c0, hsl, hc0, rfl⟩
  · exact h.numbered j c' hc' hnum
  · exact absurd hnum (h.slot hsl hc0).2.2

lemma fresh_release (hc : s.calls[k]? = some c) : (s.release k c).Fresh := by
  refine ⟨?_, ?_⟩
  · intro id j hsl
    obtain ⟨hid, hsl⟩ := Table.lookup_erase_eq_some.mp hsl
    obtain ⟨c', hc', hrs⟩ := h.slots id j hsl
    have hne : j ≠ k := by
      rintro rfl
      obtain rfl := mem_unique hc hc'
      exact hid hrs.1.symm
    refine ⟨c', ?_, hrs⟩
    show ((s.dropSender c.id).calls.modify k _)[j]? = some c'
    rw [getElem?_modify_of_ne hne, h.dropSender_of_ne hsl hid, hc']
  intro j c' hc' hnum
  rcases modify_cases hc' with ⟨rfl, c0, -, rfl⟩ | ⟨-, hc'⟩
  · cases hnum
  rcases h.dropSender hc' with ⟨-, hc'⟩ | ⟨c0, hsl, hc0, rfl⟩
  · exact h.numbered j c' hc' hnum
  · exact absurd hnum (h.slot hsl hc0).2.2

lemma fresh_deliver {result : Channel} : (s.deliver id result).Fresh := by
  unfold deliver
  split
  · exact h
  next k hk =>
  refine ⟨?_, ?_⟩
  · intro id' j hsl
    obtain ⟨hid, hsl⟩ := Table.lookup_erase_eq_some.mp hsl
    obtain ⟨c', hc', hrs⟩ := h.slots id' j hsl
    have hne : j ≠ k := by
      rintro rfl
      exact hid (hrs.1.symm.trans (h.slot hk hc').1)
    refine ⟨c', ?_, hrs⟩
    rw [getElem?_modify_of_ne hne, hc']
  intro j c' hc' hnum
  rcases modify_cases hc' with ⟨rfl, c0, hc0, rfl⟩ | ⟨-, hc'⟩
  · exact absurd hnum (h.slot hk hc0).2.2
  · exact h.numbered j c' hc' hnum

end

lemma drain_cases (hc : s.drain.calls[k]? = some c) : ∃ c0, s.calls[k]? = some c0 ∧
    ((s.pending.lookup c0.id = some k ∧ c = { c0 with channel := .failed (s.closeErr.getD .closed) }) ∨ c = c0) := by
  have hc : (s.calls.mapIdx _)[k]? = some c := hc
  rw [List.getElem?_mapIdx] at hc
  obtain ⟨c0, hc0, rfl⟩ := map_eq_some_iff.mp hc
  refine ⟨c0, hc0, ?_⟩
  split
  · next hsl => exact .inl ⟨hsl, rfl⟩
  · exact .inr rfl

lemma fresh_drain (h : s.Fresh) : s.drain.Fresh := by
  refine ⟨?_, ?_⟩
  · nofun
  intro j c hc hnum
  obtain ⟨c0, hc0, ⟨hsl, rfl⟩ | rfl⟩ := drain_cases hc
  · exact absurd hnum (h.slot hsl hc0).2.2
  · exact h.numbered j c hc0 hnum

lemma fresh_step (h : s.Fresh) (x : CallStep) : (s.step x).Fresh := by
  have hm := move_step s x
  generalize s.step x = s' at hm
  cases hm with
  | begun =>
    refine ⟨?_, ?_⟩
    · intro id k hsl
      obtain ⟨c, hc, hrs⟩ := h.slots id k hsl
      exact ⟨c, getElem?_append_of_some hc, hrs⟩
    intro k c hc hnum
    rcases append_cases hc with hc | ⟨-, rfl⟩
    · exact h.numbered k c hc hnum
    · rfl
  | registered hx hat => exact fresh_register h hat
  | @staged k c stage hc hlv hst =>
    refine ⟨?_, ?_⟩
    · intro id j hsl
      obtain ⟨c', hc', hid, hemp, hnum⟩ := h.slots id j hsl
      by_cases hj : j = k
      · subst hj
        exact ⟨_, getElem?_modify_self hc', hid, hemp, hst⟩
      · exact ⟨c', by rw [setStage, getElem?_modify_of_ne hj, hc'], hid, hemp, hnum⟩
    intro j c' hc' hnum
    rcases modify_cases hc' with ⟨rfl, c0, -, rfl⟩ | ⟨-, hc'⟩
    · exact absurd hnum hst
    · exact h.numbered j c' hc' hnum
  | released hx =>
    rcases hx with ⟨-, hat⟩ | ⟨-, hat⟩
    · exact fresh_release h (atStage_eq_some hat).1
    · exact fresh_release h (atStage_eq_some hat).1
  | answered hx hrdg hd => exact fresh_deliver h
  | drained => exact fresh_drain h
  | lived hcls hpend _ =>
    refine ⟨?_, ?_⟩
    · rw [hpend, hcls]
      exact h.slots
    · rw [hcls]
      exact h.numbered

section
variable (hf : s.Fresh) {j : ℕ}
include hf

lemma sound_abandon (h : s.Sound) (halone : s.Alone id k) (hj : j ≠ k) (hc : (s.dropSender id).calls[j]? = some c) :
    (∀ pdu result, c.channel = .answered pdu result → carriedId pdu = some c.id.toNat) ∧
      (Live c → c.channel ≠ .abandoned) := by
  rcases hf.dropSender hc with ⟨-, hc⟩ | ⟨c0, hsl, hc0, rfl⟩
  · exact h j c hc
  refine ⟨nofun, ?_⟩
  intro hlv
  exact absurd hlv (halone j hsl hj c0 hc0)

lemma sound_step (h : s.Sound) (hx : s.Own x) : (s.step x).Sound := by
  have hm := move_step s x
  generalize s.step x = s' at hm
  cases hm with
  | begun =>
    intro k c hc
    rcases append_cases hc with hc | ⟨-, rfl⟩
    · exact h k c hc
    · exact ⟨nofun, fun _ => Channel.noConfusion⟩
  | @registered k c heq hat =>
    subst heq
    intro j c' hc'
    rcases modify_cases hc' with ⟨rfl, c0, -, rfl⟩ | ⟨hj, hc'⟩
    · exact ⟨nofun, fun _ => Channel.noConfusion⟩
    · exact sound_abandon hf h (hx c hat) hj hc'
  | staged hc hlv hst =>
    intro j c' hc'
    rcases modify_cases hc' with ⟨rfl, c0, hc0, rfl⟩ | ⟨-, hc'⟩
    · obtain rfl := mem_unique hc hc0
      exact ⟨(h j _ hc).1, fun _ => (h j _ hc).2 hlv⟩
    · exact h j c' hc'
  | @released k c heq =>
    have halone : s.Alone c.id k := by
      rcases heq with ⟨rfl, hat⟩ | ⟨rfl, hat⟩
      · exact hx rfl c hat
      · exact hx c hat
    intro j c' hc'
    rcases modify_cases hc' with ⟨rfl, c0, hc0, rfl⟩ | ⟨hj, hc'⟩
    · refine ⟨?_, fun hlv => absurd hlv not_live_ended⟩
      rcases hf.dropSender hc0 with ⟨-, hc0⟩ | ⟨c1, -, -, rfl⟩
      · exact (h j c0 hc0).1
      · exact nofun
    · exact sound_abandon hf h halone hj hc'
  | @answered octets id result heq hrdg hd =>
    subst heq
    unfold deliver
    split
    · exact h
    next k hsl =>
    intro j c' hc'
    rcases modify_cases hc' with ⟨rfl, c0, hc0, rfl⟩ | ⟨-, hc'⟩
    · refine ⟨?_, fun _ => Channel.noConfusion⟩
      intro pdu result' heq
      cases heq
      have hcarried : carriedId octets = some id.toNat := by
        apply hx hrdg (id, result) hd
        rw [hsl]
        rfl
      rw [hcarried, (hf.slot hsl hc0).1]
    · exact h j c' hc'
  | drained =>
    intro j c hc
    obtain ⟨c0, hc0, ⟨-, rfl⟩ | rfl⟩ := drain_cases hc
    · exact ⟨nofun, fun _ => Channel.noConfusion⟩
    · exact h j c hc0
  | lived hcls _ _ =>
    intro j c hc
    rw [hcls] at hc
    exact h j c hc

lemma not_sound_abandon {s' : Calls} {c' : Call} (hsl : s.pending.lookup id = some j)
    (hj : j ≠ k) (hc' : s.calls[j]? = some c') (hlv : Live c') {f : Call → Call}
    (hcls : s'.calls = (s.dropSender id).calls.modify k f) : ¬ s'.Sound := by
  intro hsnd
  have hnow : s'.calls[j]? = some c'.abandon := by
    rw [hcls, getElem?_modify_of_ne hj, dropSender_getElem?, if_pos hsl, hc']
    rfl
  apply (hsnd j _ hnow).2
  · show _ ∨ _ ∨ _
    rw [abandon_stage]
    exact hlv
  · exact abandon_channel_of_empty (hf.slot hsl hc').2.1

lemma sound_step_iff (h : s.Sound) (x : CallStep) : (s.step x).Sound ↔ s.Own x := by
  refine ⟨?_, sound_step hf h⟩
  intro hnx
  cases x with
  | register k =>
    intro c hat j hsl hj c' hc' hlv
    have hat : s.atStage k .numbered = some c := hat
    have hstep : s.step (.register k) = s.register k c := by rw [step, hat]; rfl
    rw [hstep] at hnx
    exact not_sound_abandon hf hsl hj hc' hlv rfl hnx
  | sent k ok =>
    intro hok c hat j hsl hj c' hc' hlv
    subst hok
    have hat : s.atStage k .sending = some c := hat
    have hstep : s.step (.sent k false) = s.release k c := by simp only [step, hat]; rfl
    rw [hstep] at hnx
    exact not_sound_abandon hf hsl hj hc' hlv rfl hnx
  | drop k =>
    intro c hat j hsl hj c' hc' hlv
    obtain ⟨hc, hst⟩ := atStage_eq_some hat
    have hstep : s.step (.drop k) = s.release k c := by simp only [step, hc, hst]
    rw [hstep] at hnx
    exact not_sound_abandon hf hsl hj hc' hlv rfl hnx
  | pdu octets =>
    intro hrdg r hr hsome
    obtain ⟨id, result⟩ := r
    obtain ⟨k, hsl⟩ := isSome_iff_exists.mp hsome
    obtain ⟨c, hc, hid, -⟩ := hf.slots id k hsl
    have hr : dispatch octets = some (id, result) := hr
    have hstep : s.step (.pdu octets) = s.deliver id (.answered octets result) := by
      simp only [step, hrdg, hr, if_true]
    have hdeliver : (s.deliver id (.answered octets result)).calls[k]? =
        some { c with channel := .answered octets result } := by
      simp only [deliver, hsl]
      exact getElem?_modify_self hc
    rw [hstep] at hnx
    have hcarried := (hnx k _ hdeliver).1 octets result rfl
    rw [hcarried, ← hid]
  | begin | wait k | receive k | timeout k | fail cause | drain | abort | close => trivial

lemma once_step (x : CallStep) : s.Once x := by
  intro j c hc hfull
  have hdrop (id : UInt32) : (s.dropSender id).calls[j]? = some c := by
    rw [dropSender_getElem?, hc, map_some, abandon_of_ne hfull, ite_self]
  have hm := move_step s x
  generalize s.step x = s' at hm
  cases hm with
  | begun =>
    exact ⟨c, getElem?_append_of_some hc, rfl, rfl⟩
  | @registered k c' heq hat =>
    have hj : j ≠ k := by
      rintro rfl
      obtain ⟨hc', hst⟩ := atStage_eq_some hat
      obtain rfl := mem_unique hc hc'
      exact hfull (hf.numbered j c hc hst)
    refine ⟨c, ?_, rfl, rfl⟩
    show ((s.dropSender c'.id).calls.modify k _)[j]? = some c
    rw [getElem?_modify_of_ne hj, hdrop]
  | @staged k c' stage hc' hlv hst =>
    by_cases hj : j = k
    · subst hj
      exact ⟨_, getElem?_modify_self hc, rfl, rfl⟩
    · exact ⟨c, by rw [setStage, getElem?_modify_of_ne hj, hc], rfl, rfl⟩
  | @released k c' heq =>
    by_cases hj : j = k
    · subst hj
      exact ⟨_, getElem?_modify_self (hdrop c'.id), rfl, rfl⟩
    refine ⟨c, ?_, rfl, rfl⟩
    show ((s.dropSender c'.id).calls.modify k _)[j]? = some c
    rw [getElem?_modify_of_ne hj, hdrop]
  | @answered octets id result heq hrdg hd =>
    unfold deliver
    split
    · exact ⟨c, hc, rfl, rfl⟩
    next k hsl =>
    have hj : j ≠ k := by
      rintro rfl
      exact hfull (hf.slot hsl hc).2.1
    exact ⟨c, by rw [getElem?_modify_of_ne hj, hc], rfl, rfl⟩
  | drained =>
    refine ⟨c, ?_, rfl, rfl⟩
    show (s.calls.mapIdx _)[j]? = some c
    rw [List.getElem?_mapIdx, hc, map_some, if_neg]
    intro hsl
    exact hfull (hf.slot hsl hc).2.1
  | lived hcls _ _ => exact ⟨c, by rw [hcls, hc], rfl, rfl⟩

end

lemma ignored_step (hx : s.Own x) : s.Ignored x := by
  rintro octets rfl hfree
  rw [step]
  split
  next hrdg =>
    split
    next id result hd =>
      have hno : s.pending.lookup id = none := by
        by_contra hsome
        have hcarried := hx hrdg (id, result) hd (isSome_iff_ne_none.mpr hsome)
        exact hsome (hfree id hcarried)
      unfold deliver
      rw [hno]
    · rfl
  · rfl

/-- In every state of a run the results of the calls are answers to them, exactly if every step is for the call
it is meant for. A call has one result at most, and a PDU with the identifier of no pending call changes
nothing. -/
theorem answers_matched_iff (steps : List CallStep) :
    ((∀ part, part <+: steps → (({} : Calls).run part).Sound) ↔ Runs.Admitted step Own {} steps) ∧
      ∀ part x, part ++ [x] <+: steps → (({} : Calls).run part).Once x ∧
        (Runs.Admitted step Own {} steps → (({} : Calls).run part).Ignored x) := by
  have hfre (part : List CallStep) : (({} : Calls).run part).Fresh := by
    refine Runs.invariant Fresh (fun s x h => fresh_step h x) ⟨?_, ?_⟩ part
    · nofun
    · nofun
  have hiff : (∀ part, part <+: steps → (({} : Calls).run part).Fresh ∧ (({} : Calls).run part).Sound) ↔
      Runs.Admitted step Own {} steps := by
    refine Runs.forall_prefix_iff (fun s : Calls => s.Fresh ∧ s.Sound) ?_ ⟨hfre [], fun k c hc => by cases hc⟩
    intro s x h
    rw [← sound_step_iff h.1 h.2 x]
    exact and_iff_right (fresh_step h.1 x)
  refine ⟨?_, ?_⟩
  · rw [← hiff]
    apply forall₂_congr
    intro part _
    exact (and_iff_right (hfre part)).symm
  · intro part x hpart
    exact ⟨once_step (hfre part) x, fun hown => ignored_step (hown.of_prefix hpart)⟩

def crossedAnswers : List CallStep :=
  [.begin, .begin, .register 0, .register 1, .sent 0 true, .sent 1 true, .wait 0, .wait 1,
    .pdu (confirmedResponse 2 (prim (contextPrimitive 5) [])).encode, .pdu firstAnswer, .pdu firstAnswer,
    .receive 1, .receive 0]

theorem answers_matched_crossed : (∀ part, part <+: crossedAnswers → (({} : Calls).run part).Sound) ∧
      (({} : Calls).run crossedAnswers).calls.map (fun c => (c.id, c.stage)) = [(1, .ended), (2, .ended)] :=
  ⟨(answers_matched_iff crossedAnswers).1.mpr (by decide +kernel), by decide +kernel⟩

def wideAnswer : List UInt8 :=
  (cons tagConfirmedResponse [uintElem tagInteger 0x100000001, prim (contextPrimitive 5) []]).encode

/-- It completes the call of the identifier 1. -/
theorem wide_answer_taken : carriedId wideAnswer = some (2 ^ 32 + 1) ∧
      (({} : Calls).run (waitingCall ++ [.pdu wideAnswer])).calls[0]? =
        some ⟨1, .waiting, .answered wideAnswer (.ok [0x85, 0])⟩ := by
  decide +kernel

end Calls
end Iec61850.Mms
