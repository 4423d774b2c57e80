import Iec61850.MmsDecode
import Iec61850.Runs
import Iec61850.Lookup

/-! Deferred requests of an association, which run beside the loop that reads PDUs, and their cancellation. -/
namespace Iec61850.Server
open Asn1 Mms ListIndex List Option UInt32 AList

/-- The receiving end of the channel of a deferred request. -/
inductive CancelSignal where
  | waiting
  | sent
  /-- The sending end is gone; the request takes that for a signal too. -/
  | dropped
deriving DecidableEq

/-- What a deferred request comes to: what its handler returned, or nothing when it was cancelled. -/
abbrev DeferredOutcome := Option (Except HandlerError Element)

inductive DeferredStage where
  /-- It waits to be run for the first time. -/
  | pushed
  | running
  /-- Its outcome is being written. -/
  | answering (outcome : DeferredOutcome)
  | answered (outcome : DeferredOutcome)

namespace DeferredStage

def outcome : DeferredStage → Option DeferredOutcome
  | answering o | answered o => some o
  | _ => none

def isAnswered : DeferredStage → Bool
  | answered _ => true
  | _ => false

end DeferredStage

/-- A deferred request. `result` is there when its handler is done. `acked`, kept for reasoning: a Cancel that
names it was acknowledged before its answer. -/
structure Deferred where
  invokeId : UInt32
  stage : DeferredStage := .pushed
  result : Option (Except HandlerError Element) := none
  signal : CancelSignal := .waiting
  acked : Bool := false

/-- What the association writes: an answer, with the number of its request, or an answer to a Cancel. -/
inductive Written where
  | answer (request : ℕ) (pdu : List UInt8)
  | cancelResponse (pdu : List UInt8)
  | cancelError (pdu : List UInt8)
deriving DecidableEq

/-- The deferred requests of an association in the order they came, and the channels by identifier. -/
structure Deferrals where
  maxPdu : ℕ := 65000
  requests : List Deferred := []
  running : Table UInt32 ℕ := ∅
  wire : List Written := []

inductive DeferStep where
  | request (invokeId : UInt32)
  /-- It is run for the first time, and registers. -/
  | start (k : ℕ)
  | finish (k : ℕ) (result : Except HandlerError Element)
  /-- It is run and looks at both its handler and its channel, which of them first is left to chance. -/
  | select (k : ℕ) (handlerFirst : Bool)
  | send (k : ℕ)
  | cancel (content : List UInt8)

def tagCancelResponse : Tag := contextPrimitive 6
def tagCancelError : Tag := contextConstructed 7

def preempted : HandlerError := .service ⟨5, 3, false⟩

def cancelErrorPdu (id : UInt32) : Element :=
  cons tagCancelError
    [uintElem (contextPrimitive 0) id.toUInt64,
     cons (contextConstructed 1) [cons (contextConstructed 0) [intElem (contextPrimitive 10) 1]]]

namespace Deferrals

def answerPdu (maxPdu : ℕ) (id : UInt32) : DeferredOutcome → List UInt8
  | none => (encodeErrorPdu id preempted).encode
  | some (.ok resp) => sendResponse maxPdu id resp
  | some (.error e) => (encodeErrorPdu id e).encode

def dropSender (s : Deferrals) (id : UInt32) : Deferrals :=
  match s.running.lookup id with
  | some k =>
    { s with requests := s.requests.modify k fun r =>
        if r.signal = .waiting then { r with signal := .dropped } else r }
  | none => s

def register (s : Deferrals) (k : ℕ) (id : UInt32) : Deferrals :=
  { s.dropSender id with
    running := s.running.insert id k
    requests := (s.dropSender id).requests.modify k fun r => { r with stage := .running } }

def settle (s : Deferrals) (k : ℕ) (id : UInt32) (outcome : DeferredOutcome) : Deferrals :=
  { s.dropSender id with
    running := s.running.erase id
    requests := (s.dropSender id).requests.modify k fun r => { r with stage := .answering outcome } }

def selected (r : Deferred) (handlerFirst : Bool) : Option DeferredOutcome :=
  match r.result, r.signal with
  | none, .waiting => none
  | none, _ => some none
  | some result, .waiting => some (some result)
  | some result, _ => some (if handlerFirst then some result else none)

def mark (n : ℕ) (r : Deferred) : Deferred :=
  if r.invokeId.toNat = n ∧ r.stage.isAnswered = false then { r with acked := true } else r

def acknowledge (s : Deferrals) (n k : ℕ) : Deferrals :=
  { s with
    running := s.running.erase (UInt32.ofNat n)
    requests := (s.requests.modify k fun r => { r with signal := .sent }).map (mark n)
    wire := s.wire ++ [.cancelResponse (uintElem tagCancelResponse (UInt32.ofNat n).toUInt64).encode] }

def refuse (s : Deferrals) (n : ℕ) : Deferrals :=
  { s with wire := s.wire ++ [.cancelError (cancelErrorPdu (UInt32.ofNat n)).encode] }

def handleCancel (s : Deferrals) (content : List UInt8) : Deferrals :=
  match decodeUint content with
  | .error _ => s
  | .ok n =>
    match s.running.lookup (UInt32.ofNat n) with
    | some k => s.acknowledge n k
    | none => s.refuse n

def step (s : Deferrals) : DeferStep → Deferrals
  | .request id => { s with requests := s.requests ++ [{ invokeId := id }] }
  | .start k =>
    match s.requests[k]? with
    | some r =>
      match r.stage with
      | .pushed => s.register k r.invokeId
      | _ => s
    | none => s
  | .finish k result =>
    match s.requests[k]? with
    | some r =>
      match r.stage with
      | .running => { s with requests := s.requests.modify k fun r => { r with result := some result } }
      | _ => s
    | none => s
  | .select k handlerFirst =>
    match s.requests[k]? with
    | some r =>
      match r.stage, selected r handlerFirst with
      | .running, some outcome => s.settle k r.invokeId outcome
      | _, _ => s
    | none => s
  | .send k =>
    match s.requests[k]? with
    | some r =>
      match r.stage with
      | .answering outcome =>
        { s with
          requests := s.requests.modify k fun r => { r with stage := .answered outcome }
          wire := s.wire ++ [.answer k (answerPdu s.maxPdu r.invokeId outcome)] }
      | _ => s
    | none => s
  | .cancel content => s.handleCancel content

def run (s : Deferrals) (steps : List DeferStep) : Deferrals := steps.foldl step s

variable {s s' : Deferrals} {x : DeferStep} {k j : ℕ} {r r' : Deferred} {id : UInt32}

inductive Move (s : Deferrals) (x : DeferStep) : Deferrals → Prop
  | requested {id : UInt32} : x = .request id → Move s x { s with requests := s.requests ++ [{ invokeId := id }] }
  | started {k : ℕ} {r : Deferred} : s.requests[k]? = some r → r.stage = .pushed → Move s x (s.register k r.invokeId)
  | finished {k : ℕ} {r : Deferred} {result : Except HandlerError Element} : s.requests[k]? = some r →
      r.stage = .running →
      Move s x { s with requests := s.requests.modify k fun r => { r with result := some result } }
  | selected {k : ℕ} {r : Deferred} {handlerFirst : Bool} {outcome : DeferredOutcome} :
      x = .select k handlerFirst → s.requests[k]? = some r → r.stage = .running →
      Deferrals.selected r handlerFirst = some outcome → Move s x (s.settle k r.invokeId outcome)
  | sent {k : ℕ} {r : Deferred} {outcome : DeferredOutcome} : s.requests[k]? = some r → r.stage = .answering outcome →
      Move s x { s with
        requests := s.requests.modify k fun r => { r with stage := .answered outcome }
        wire := s.wire ++ [.answer k (answerPdu s.maxPdu r.invokeId outcome)] }
  | acknowledged {content : List UInt8} {n k : ℕ} : x = .cancel content → decodeUint content = .ok n →
      s.running.lookup (UInt32.ofNat n) = some k → Move s x (s.acknowledge n k)
  | refused {n : ℕ} : Move s x (s.refuse n)
  | stayed : Move s x s

lemma move_step (s : Deferrals) (x : DeferStep) : Move s x (s.step x) := by
  cases x with
  | request id => exact .requested rfl
  | start k =>
    rw [step]
    split
    next r hr =>
      split
      · next hst => exact .started hr hst
      · exact .stayed
    · exact .stayed
  | finish k result =>
    rw [step]
    split
    next r hr =>
      split
      · next hst => exact .finished hr hst
      · exact .stayed
    · exact .stayed
  | select k handlerFirst =>
    rw [step]
    split
    next r hr =>
      split
      · next outcome hst hsel => exact .selected rfl hr hst hsel
      · exact .stayed
    · exact .stayed
  | send k =>
    rw [step]
    split
    next r hr =>
      split
      · next outcome hst => exact .sent hr hst
      · exact .stayed
    · exact .stayed
  | cancel content =>
    rw [step, handleCancel]
    split
    · exact .stayed
    next n hn =>
    split
    · next k hk => exact .acknowledged rfl hn hk
    · exact .refused

lemma maxPdu_dropSender : (s.dropSender id).maxPdu = s.maxPdu := by
  rw [dropSender]
  split <;> rfl

lemma wire_dropSender : (s.dropSender id).wire = s.wire := by
  rw [dropSender]
  split <;> rfl

lemma dropSender_getElem? (id : UInt32) (h : s.requests[j]? = some r) :
    ∃ r', (s.dropSender id).requests[j]? = some r' ∧ r'.stage = r.stage ∧ r'.invokeId = r.invokeId ∧
      r'.acked = r.acked := by
  rw [dropSender]
  split
  next k _ =>
    by_cases hj : j = k
    · subst hj
      refine ⟨_, getElem?_modify_self h, ?_⟩
      split <;> exact ⟨rfl, rfl, rfl⟩
    · exact ⟨r, by rw [getElem?_modify_of_ne hj, h], rfl, rfl, rfl⟩
  · exact ⟨r, h, rfl, rfl, rfl⟩

variable {m : ℕ} {l : List Deferred}

def answersTo (s : Deferrals) (k : ℕ) : List (List UInt8) :=
  s.wire.filterMap fun
    | .answer j pdu => if j = k then some pdu else none
    | _ => none

def replies (maxPdu : ℕ) (r : Deferred) : List (List UInt8) :=
  match r.stage with
  | .answered outcome => [answerPdu maxPdu r.invokeId outcome]
  | _ => []

lemma replies_of_not_answered (h : r.stage.isAnswered = false) : replies m r = [] := by
  rw [replies]
  cases hst : r.stage with
  | answered outcome =>
    rw [hst] at h
    cases h
  | _ => rfl

lemma replies_dropSender : (s.dropSender id).requests.map (replies m) = s.requests.map (replies m) := by
  rw [dropSender]
  split
  · apply map_modify_of_eq
    intro r _
    split <;> rfl
  · rfl

lemma replies_acknowledge {n : ℕ} : (s.acknowledge n k).requests.map (replies m) = s.requests.map (replies m) := by
  have hmark : replies m ∘ mark n = replies m := by
    ext1 r
    rw [Function.comp_apply, mark]
    split <;> rfl
  rw [acknowledge, List.map_map, hmark]
  exact map_modify_of_eq fun r _ => rfl

lemma replies_advance {stage : DeferredStage} (hr : s.requests[k]? = some r) (hn : r.stage.isAnswered = false)
    (hn' : stage.isAnswered = false) :
    ((s.dropSender id).requests.modify k fun r => { r with stage := stage }).map (replies m) =
      s.requests.map (replies m) := by
  refine Eq.trans ?_ (replies_dropSender : (s.dropSender id).requests.map (replies m) = _)
  apply map_modify_of_eq
  intro r' hr'
  obtain ⟨r1, h1, hst, -⟩ := dropSender_getElem? id hr
  cases h1.symm.trans hr'
  rw [replies_of_not_answered hn', replies_of_not_answered (hst ▸ hn)]

lemma answersTo_append {w : Written} {running : Table UInt32 ℕ} :
    answersTo { s with requests := l, running := running, wire := s.wire ++ [w] } k =
      s.answersTo k ++ match w with | .answer j pdu => if j = k then [pdu] else [] | _ => [] := by
  rw [answersTo, filterMap_append]
  congr 1
  cases w with
  | answer j pdu =>
    by_cases hj : j = k
    · simp [hj]
    · simp [hj]
  | cancelResponse pdu => rfl
  | cancelError pdu => rfl

/-- A request has on the wire what it has been answered with, and nothing else. -/
def Told (s : Deferrals) : Prop := ∀ k, s.answersTo k = (s.requests.map (replies s.maxPdu)).getD k []

lemma told_of_wire (h : s.Told) (hw : s'.wire = s.wire) (hm : s'.maxPdu = s.maxPdu)
    (hr : s'.requests.map (replies s.maxPdu) = s.requests.map (replies s.maxPdu)) : s'.Told := by
  intro j
  rw [hm, hr, ← h j, answersTo, hw, answersTo]

lemma told_step (h : s.Told) : (s.step x).Told := by
  have hm := move_step s x
  generalize s.step x = s' at hm ⊢
  cases hm with
  | @requested id _ =>
    intro j
    have hnew : replies s.maxPdu ({ invokeId := id } : Deferred) = [] := rfl
    rw [map_append, map_singleton, hnew]
    refine (h j).trans ?_
    rcases Nat.lt_or_ge j (s.requests.map (replies s.maxPdu)).length with hlt | hge
    · rw [getD_append _ _ _ _ hlt]
    · rw [getD_append_right _ _ _ _ hge, getD_eq_default _ _ hge]
      cases j - (s.requests.map (replies s.maxPdu)).length <;> rfl
  | started hr hst =>
    exact told_of_wire h wire_dropSender maxPdu_dropSender (replies_advance hr (by rw [hst]; rfl) rfl)
  | finished => exact told_of_wire h rfl rfl (map_modify_of_eq fun r _ => rfl)
  | selected _ hr hst _ =>
    exact told_of_wire h wire_dropSender maxPdu_dropSender (replies_advance hr (by rw [hst]; rfl) rfl)
  | @sent k r outcome hr hst =>
    intro j
    rw [answersTo_append, h j, getD_eq_getElem?_getD, getElem?_map, getD_eq_getElem?_getD, getElem?_map]
    by_cases hj : k = j
    · subst hj
      rw [hr, getElem?_modify_self hr, map_some, replies_of_not_answered (by rw [hst]; rfl)]
      simp [replies]
    · rw [getElem?_modify_of_ne (Ne.symm hj)]
      simp [hj]
  | acknowledged =>
    intro j
    rw [replies_acknowledge, acknowledge, answersTo_append, h j, append_nil]
  | refused =>
    intro j
    rw [refuse, answersTo_append, h j, append_nil]
  | stayed => exact h

section
variable (hr : s.requests[k]? = some r)
include hr

lemma start_getElem? : ∃ r', (s.step (.start k)).requests[k]? = some r' ∧ r'.stage ≠ .pushed := by
  rw [step, hr]
  dsimp only
  split
  · obtain ⟨r1, h1, -⟩ := dropSender_getElem? r.invokeId hr
    exact ⟨_, getElem?_modify_self h1, nofun⟩
  · next hst => exact ⟨r, hr, hst⟩

lemma finish_getElem? {result : Except HandlerError Element} (hst : r.stage ≠ .pushed) :
    ∃ r', (s.step (.finish k result)).requests[k]? = some r' ∧ r'.stage ≠ .pushed ∧
      (r'.stage = .running → r'.result.isSome) := by
  rw [step, hr]
  dsimp only
  split
  · exact ⟨_, getElem?_modify_self hr, hst, fun _ => rfl⟩
  · next hrun => exact ⟨r, hr, hst, fun h => absurd h hrun⟩

lemma select_getElem? {handlerFirst : Bool} (hst : r.stage ≠ .pushed)
    (hresult : r.stage = .running → r.result.isSome) :
    ∃ r', (s.step (.select k handlerFirst)).requests[k]? = some r' ∧ r'.stage.outcome.isSome := by
  rw [step, hr]
  dsimp only
  split
  · obtain ⟨r1, h1, -⟩ := dropSender_getElem? r.invokeId hr
    exact ⟨_, getElem?_modify_self h1, rfl⟩
  next hno =>
  refine ⟨r, hr, ?_⟩
  cases hs : r.stage with
  | pushed => exact absurd hs hst
  | running =>
    -- with a result there is always an outcome
    obtain ⟨result, hres⟩ := isSome_iff_exists.mp (hresult hs)
    have hsel : ∃ outcome, selected r handlerFirst = some outcome := by
      rw [selected, hres]
      cases r.signal <;> exact ⟨_, rfl⟩
    obtain ⟨outcome, hout⟩ := hsel
    exact absurd hout (hno outcome hs)
  | answering outcome => rfl
  | answered outcome => rfl

lemma send_getElem? (hout : r.stage.outcome.isSome) :
    ∃ r', (s.step (.send k)).requests[k]? = some r' ∧ r'.stage.isAnswered := by
  rw [step, hr]
  dsimp only
  split
  · exact ⟨_, getElem?_modify_self hr, rfl⟩
  next hno =>
  refine ⟨r, hr, ?_⟩
  cases hs : r.stage with
  | pushed | running =>
    rw [hs] at hout
    cases hout
  | answering outcome => exact absurd hs (hno outcome)
  | answered outcome => rfl

lemma answered_run (result : Except HandlerError Element) (handlerFirst : Bool) :
    ∃ r', (s.run [.start k, .finish k result, .select k handlerFirst, .send k]).requests[k]? = some r' ∧
      r'.stage.isAnswered := by
  obtain ⟨r1, h1, hstarted⟩ := start_getElem? hr
  obtain ⟨r2, h2, hstarted2, hres⟩ := finish_getElem? h1 hstarted
  obtain ⟨r3, h3, hout⟩ := select_getElem? h2 hstarted2 hres
  exact send_getElem? h3 hout

end

variable {n : ℕ} {outcome : DeferredOutcome}

/-- An identifier is used again only after its answer, a request that is cancelled and done ends as cancelled, and a
Cancel names an identifier of 32 bits. -/
def Apart (s : Deferrals) : DeferStep → Prop
  | .request id => ∀ r ∈ s.requests, r.invokeId = id → r.stage.isAnswered = true
  | .select k handlerFirst => ∀ r ∈ s.requests[k]?, r.signal = .sent → r.result.isSome = true → handlerFirst = false
  | .cancel content => ∀ n ∈ (decodeUint content).toOption,
      (s.running.lookup (UInt32.ofNat n)).isSome = true → n < 2 ^ 32
  | _ => True

instance (s : Deferrals) (x : DeferStep) : Decidable (s.Apart x) := by
  cases x <;> unfold Apart <;> infer_instance

/-- What a request knows of the Cancels that were acknowledged, at each stage. -/
def Signalled (s : Deferrals) (k : ℕ) (r : Deferred) : Prop :=
  match r.stage with
  | .pushed => r.signal = .waiting ∧ r.acked = false
  | .running =>
    (r.signal = .waiting ∧ r.acked = false ∧ s.running.lookup r.invokeId = some k) ∨
      (r.signal = .sent ∧ r.acked = true)
  | .answering outcome | .answered outcome => outcome = none ↔ r.acked = true

/-- Requests that are not answered have different identifiers. -/
def Distinct (l : List Deferred) : Prop :=
  ∀ (j k : ℕ) r r', l[j]? = some r → l[k]? = some r' → r.invokeId = r'.invokeId →
    r.stage.isAnswered = false → r'.stage.isAnswered = false → j = k

/-- Requests that are not answered have different identifiers, and what is registered is a request that runs
and has not been signalled. -/
structure Orderly (s : Deferrals) : Prop where
  distinct : Distinct s.requests
  entry : s.running.All fun id k =>
    ∃ r, s.requests[k]? = some r ∧ r.invokeId = id ∧ r.stage = .running ∧ r.signal = .waiting
  signalled : ∀ (k : ℕ) r, s.requests[k]? = some r → s.Signalled k r

lemma selected_spec {handlerFirst : Bool} (hsel : selected r handlerFirst = some outcome)
    (hfst : r.signal = .sent → r.result.isSome → handlerFirst = false) :
    (r.signal = .waiting → outcome ≠ none) ∧ (r.signal = .sent → outcome = none) := by
  rw [selected] at hsel
  split at hsel
  · cases hsel
  next hres hsignal =>
    cases hsel
    exact ⟨fun hw => absurd hw hsignal, fun _ => rfl⟩
  next result hres hsignal =>
    cases hsel
    refine ⟨fun _ => some_ne_none _, fun hs => ?_⟩
    rw [hsignal] at hs
    cases hs
  next result hres hsignal =>
    refine ⟨fun hw => absurd hw hsignal, fun hs => ?_⟩
    rw [hfst hs (by rw [hres]; rfl)] at hsel
    exact (some.inj hsel).symm

lemma Distinct.of_back {l' : List Deferred} (h : Distinct l)
    (hbk : ∀ (j : ℕ) r', l'[j]? = some r' → ∃ r, l[j]? = some r ∧ r.invokeId = r'.invokeId ∧
      (r'.stage.isAnswered = false → r.stage.isAnswered = false)) : Distinct l' := by
  intro j k r1 r2 h1 h2 hid hn1 hn2
  obtain ⟨r1', h1', hid1, hback1⟩ := hbk j r1 h1
  obtain ⟨r2', h2', hid2, hback2⟩ := hbk k r2 h2
  exact h j k r1' r2' h1' h2' (by rw [hid1, hid2, hid]) (hback1 hn1) (hback2 hn2)

lemma Signalled.of_lookup (h : s.Signalled k r) (hkeep : r.stage = .running → s.running.lookup r.invokeId = some k →
      s'.running.lookup r.invokeId = some k) : s'.Signalled k r := by
  rw [Signalled] at h ⊢
  cases hst : r.stage with
  | running =>
    rw [hst] at h
    rcases h with ⟨hw, ha, hl⟩ | hs
    · exact .inl ⟨hw, ha, hkeep hst hl⟩
    · exact .inr hs
  | _ => rwa [hst] at h

namespace Orderly

section
variable (h : s.Orderly)
include h

lemma holder (hr : s.requests[k]? = some r) (hn : r.stage.isAnswered = false)
    (hj : s.running.lookup r.invokeId = some j) : j = k ∧ r.stage = .running := by
  obtain ⟨r', hr', hid, hst, -⟩ := h.entry r.invokeId j hj
  have hjk : j = k := h.distinct j k r' r hr' hr hid (by rw [hst]; rfl) hn
  subst hjk
  rw [hr] at hr'
  cases hr'
  exact ⟨rfl, hst⟩

lemma requested (hfree : ∀ r ∈ s.requests, r.invokeId = id → r.stage.isAnswered) :
    Orderly { s with requests := s.requests ++ [{ invokeId := id }] } := by
  refine ⟨?_, ?_, ?_⟩
  · intro j k r1 r2 h1 h2 hid hn1 hn2
    rcases append_cases h1 with h1 | ⟨rfl, rfl⟩
    · rcases append_cases h2 with h2 | ⟨rfl, rfl⟩
      · exact h.distinct j k r1 r2 h1 h2 hid hn1 hn2
      have ha := hfree r1 (mem_of_getElem? h1) hid
      rw [hn1] at ha
      cases ha
    rcases append_cases h2 with h2 | ⟨rfl, rfl⟩
    · have ha := hfree r2 (mem_of_getElem? h2) hid.symm
      rw [hn2] at ha
      cases ha
    · rfl
  · intro id' j hj
    obtain ⟨r, hr, hrs⟩ := h.entry id' j hj
    exact ⟨r, getElem?_append_of_some hr, hrs⟩
  · intro j r hr
    rcases append_cases hr with hr | ⟨-, rfl⟩
    · exact (h.signalled j r hr).of_lookup fun _ hl => hl
    · exact ⟨rfl, rfl⟩

/-- One request changes, and the registrations of the others stay. -/
theorem at_one (hr : s.requests[k]? = some r) (hat : s'.requests[k]? = some r')
    (hof : ∀ j, j ≠ k → s'.requests[j]? = s.requests[j]?) (hid : r'.invokeId = r.invokeId)
    (hans : r'.stage.isAnswered = false → r.stage.isAnswered = false) (hsignalled : s'.Signalled k r')
    (hentry : s'.running.All fun id j => s.running.lookup id = some j ∧ j ≠ k ∨
      j = k ∧ r.invokeId = id ∧ r'.stage = .running ∧ r'.signal = .waiting)
    (hkp : ∀ j id, s.running.lookup id = some j → j ≠ k → s'.running.lookup id = some j) : s'.Orderly := by
  refine ⟨?_, ?_, ?_⟩
  · apply h.distinct.of_back
    intro j r1 hr1
    by_cases hj : j = k
    · subst hj
      cases hat.symm.trans hr1
      exact ⟨r, hr, hid.symm, hans⟩
    · exact ⟨r1, hof j hj ▸ hr1, rfl, fun hn => hn⟩
  · intro id j hl
    rcases hentry id j hl with ⟨hold, hj⟩ | ⟨rfl, hown, hrun, hwt⟩
    · obtain ⟨r1, hr1, hrs⟩ := h.entry id j hold
      exact ⟨r1, (hof j hj).trans hr1, hrs⟩
    · exact ⟨r', hat, hid.trans hown, hrun, hwt⟩
  intro j r1 hr1
  by_cases hj : j = k
  · subst hj
    cases hat.symm.trans hr1
    exact hsignalled
  · exact (h.signalled j r1 (hof j hj ▸ hr1)).of_lookup fun _ hl => hkp j _ hl hj

/-- A registration is of the request that has its identifier. -/
theorem entry_at (hr : s.requests[k]? = some r) (hl : s.running.lookup id = some k) :
    r.invokeId = id ∧ r.stage = .running ∧ r.signal = .waiting := by
  obtain ⟨r1, hr1, hrs⟩ := h.entry id k hl
  cases hr.symm.trans hr1
  exact hrs

lemma started (hr : s.requests[k]? = some r) (hst : r.stage = .pushed) : (s.register k r.invokeId).Orderly := by
  have hn : r.stage.isAnswered = false := by rw [hst]; rfl
  -- nothing is registered under the identifier yet, so no sending end is dropped
  have hno : s.running.lookup r.invokeId = none := by
    rcases hj : s.running.lookup r.invokeId with _ | j
    · rfl
    have hrun := (h.holder hr hn hj).2
    rw [hst] at hrun
    cases hrun
  have hdrop : s.dropSender r.invokeId = s := by rw [dropSender, hno]
  have hs := h.signalled k r hr
  rw [Signalled, hst] at hs
  rw [register, hdrop]
  refine h.at_one hr (getElem?_modify_self hr) (fun j hj => getElem?_modify_of_ne hj) rfl (fun _ => hn)
    (.inl ⟨hs.1, hs.2, lookup_insert _⟩) ?_ ?_
  · intro id j hl
    by_cases hid : id = r.invokeId
    · rw [hid, lookup_insert] at hl
      exact .inr ⟨(some.inj hl).symm, hid.symm, rfl, hs.1⟩
    rw [lookup_insert_ne hid] at hl
    refine .inl ⟨hl, ?_⟩
    rintro rfl
    exact hid (h.entry_at hr hl).1.symm
  intro j id hl _
  have hid : id ≠ r.invokeId := by
    rintro rfl
    cases hno.symm.trans hl
  exact (lookup_insert_ne hid).trans hl

lemma finished (hr : s.requests[k]? = some r) {result : Except HandlerError Element} :
    Orderly { s with requests := s.requests.modify k fun r => { r with result := some result } } := by
  refine h.at_one hr (getElem?_modify_self hr) (fun j hj => getElem?_modify_of_ne hj) rfl (fun hn => hn)
    ((h.signalled k r hr).of_lookup fun _ hl => hl) ?_ fun _ _ hl _ => hl
  intro id j hl
  by_cases hj : j = k
  · subst hj
    exact .inr ⟨rfl, h.entry_at hr hl⟩
  · exact .inl ⟨hl, hj⟩

lemma settled (hr : s.requests[k]? = some r) (hst : r.stage = .running)
    (hwaiting : r.signal = .waiting → outcome ≠ none)
    (hsent : r.signal = .sent → outcome = none) : (s.settle k r.invokeId outcome).Orderly := by
  have hn : r.stage.isAnswered = false := by rw [hst]; rfl
  obtain ⟨r1, h1, -, hsm⟩ := dropSender_getElem? r.invokeId hr
  -- only the request itself may lose its sending end
  have hof (j : ℕ) (hj : j ≠ k) : (s.settle k r.invokeId outcome).requests[j]? = s.requests[j]? := by
    refine (getElem?_modify_of_ne hj).trans ?_
    rcases hl : s.running.lookup r.invokeId with _ | i
    · rw [dropSender, hl]
    have hi : j ≠ i := (h.holder hr hn hl).1.symm ▸ hj
    rw [dropSender, hl]
    exact getElem?_modify_of_ne hi
  refine h.at_one hr (getElem?_modify_self h1) hof hsm.1 (fun _ => hn) ?_ ?_ ?_
  · have hs := h.signalled k r hr
    rw [Signalled, hst] at hs
    show outcome = none ↔ r1.acked
    rw [hsm.2]
    rcases hs with ⟨hw, ha, -⟩ | ⟨hs, ha⟩
    · simp [hwaiting hw, ha]
    · simp [hsent hs, ha]
  · intro id j hl
    obtain ⟨hne, hold⟩ := Table.lookup_erase_eq_some.mp hl
    refine .inl ⟨hold, ?_⟩
    rintro rfl
    exact hne (h.entry_at hr hold).1.symm
  · intro j id hl hj
    have hne : id ≠ r.invokeId := by
      rintro rfl
      exact hj (h.holder hr hn hl).1
    exact (lookup_erase_ne hne).trans hl

lemma sent (hr : s.requests[k]? = some r) (hst : r.stage = .answering outcome) {wire : List Written} :
    Orderly { s with requests := s.requests.modify k fun r => { r with stage := .answered outcome }, wire := wire } := by
  have hs := h.signalled k r hr
  rw [Signalled, hst] at hs
  refine h.at_one hr (getElem?_modify_self hr) (fun j hj => getElem?_modify_of_ne hj) rfl nofun hs ?_ fun _ _ hl _ => hl
  intro id j hl
  refine .inl ⟨hl, ?_⟩
  rintro rfl
  have hrun := (h.entry_at hr hl).2.1
  rw [hst] at hrun
  cases hrun

lemma acknowledged (hn : n < 2 ^ 32) (hk : s.running.lookup (UInt32.ofNat n) = some k) :
    (s.acknowledge n k).Orderly := by
  obtain ⟨r, hr, hid, hst, hsignal⟩ := h.entry _ k hk
  have hunans : r.stage.isAnswered = false := by rw [hst]; rfl
  have hnum : r.invokeId.toNat = n := by
    rw [hid, UInt32.toNat_ofNat']
    exact Nat.mod_eq_of_lt hn
  have hkeep {j : ℕ} {r' : Deferred} (hr' : s.requests[j]? = some r') (hj : j ≠ k) : mark n r' = r' := by
    rw [mark]
    split
    next hmark =>
      have hid' : r'.invokeId = r.invokeId := UInt32.toNat_inj.mp (by rw [hmark.1, hnum])
      exact absurd (h.distinct j k r' r hr' hr hid' hmark.2 hunans) hj
    · rfl
  have hat : (s.acknowledge n k).requests[k]? = some { r with signal := .sent, acked := true } := by
    change (map (mark n) _)[k]? = _
    rw [getElem?_map, getElem?_modify_self hr, map_some, mark, if_pos ⟨hnum, hunans⟩]
  have hof (j : ℕ) (hj : j ≠ k) : (s.acknowledge n k).requests[j]? = s.requests[j]? := by
    change (map (mark n) _)[j]? = _
    rw [getElem?_map, getElem?_modify_of_ne hj]
    cases hr' : s.requests[j]? with
    | none => rfl
    | some r' => rw [map_some, hkeep hr' hj]
  refine h.at_one hr hat hof rfl (fun _ => hunans) ?_ ?_ ?_
  · rw [Signalled]
    rw [hst]
    exact .inr ⟨rfl, rfl⟩
  · intro id' j hl
    obtain ⟨hne, hold⟩ := Table.lookup_erase_eq_some.mp hl
    refine .inl ⟨hold, ?_⟩
    rintro rfl
    exact hne ((h.entry_at hr hold).1.symm.trans hid)
  intro j id' hl hj
  have hne : id' ≠ UInt32.ofNat n := by
    rintro rfl
    exact hj (mem_unique hl hk)
  exact (AList.lookup_erase_ne hne).trans hl

end

end Orderly

lemma orderly_step (h : s.Orderly) (hx : s.Apart x) : (s.step x).Orderly := by
  have hm := move_step s x
  generalize s.step x = s' at hm ⊢
  cases hm with
  | requested hreq =>
    subst hreq
    exact h.requested hx
  | started hr hst => exact h.started hr hst
  | finished hr _ => exact h.finished hr
  | selected hsel hr hst hout =>
    subst hsel
    have hspec := selected_spec hout (hx _ hr)
    exact h.settled hr hst hspec.1 hspec.2
  | sent hr hst => exact h.sent hr hst
  | acknowledged hcancel hn hk =>
    subst hcancel
    exact h.acknowledged (hx _ (by rw [hn]; rfl) (by rw [hk]; rfl)) hk
  | refused => exact ⟨h.distinct, h.entry, h.signalled⟩
  | stayed => exact h

/-- Deferred requests are answered once, as cancelled exactly if a Cancel that names them was acknowledged
before, and a Cancel is refused if it names none that is not answered. -/
structure Served (s : Deferrals) : Prop where
  once : ∀ (k : ℕ) r, s.requests[k]? = some r → s.answersTo k =
    match r.stage with
    | .answered outcome => [answerPdu s.maxPdu r.invokeId outcome]
    | _ => []
  cancelled : ∀ (k : ℕ) r outcome, s.requests[k]? = some r → r.stage.outcome = some outcome →
    (outcome = none ↔ r.acked = true)
  ends : ∀ (k : ℕ) r result handlerFirst, s.requests[k]? = some r →
    ∃ r', (s.run [.start k, .finish k result, .select k handlerFirst, .send k]).requests[k]? = some r' ∧
      r'.stage.isAnswered = true
  refused : ∀ content n, s.Apart (.cancel content) → decodeUint content = .ok n →
    (∀ r ∈ s.requests, r.invokeId.toNat = n → r.stage.isAnswered = true) → s.step (.cancel content) = s.refuse n

lemma served (ht : s.Told) (ho : s.Orderly) : s.Served where
  once k r hr := by
    rw [ht k, getD_eq_getElem?_getD, getElem?_map, hr]
    rfl
  cancelled k r outcome hr hout := by
    have hs := ho.signalled k r hr
    rw [Signalled] at hs
    cases hst : r.stage with
    | pushed | running =>
      rw [hst] at hout
      cases hout
    | answering o | answered o =>
      rw [hst] at hout hs
      cases hout
      exact hs
  ends k r result handlerFirst hr := answered_run hr result handlerFirst
  refused content n hx hn hno := by
    rw [step, handleCancel, hn]
    dsimp only
    rcases hk : s.running.lookup (ofNat n) with _ | k
    · rfl
    obtain ⟨r, hr, hid, hst, -⟩ := ho.entry _ k hk
    have hlt : n < 2 ^ 32 := hx n (by rw [hn]; rfl) (by rw [hk]; rfl)
    have hnum : r.invokeId.toNat = n := by
      rw [hid, toNat_ofNat']
      exact Nat.mod_eq_of_lt hlt
    have ha := hno r (mem_of_getElem? hr) hnum
    rw [hst] at ha
    cases ha

lemma told_start (maxPdu : ℕ) : Told { maxPdu := maxPdu } := fun _ => rfl

lemma orderly_start (maxPdu : ℕ) : Orderly { maxPdu := maxPdu } where
  distinct := by
    intro j k r r' hr
    cases hr
  entry := Table.all_empty
  signalled := by
    intro k r hr
    cases hr

/-- In every run a request is answered at most once, with what became of it. -/
theorem answers_told (maxPdu : ℕ) (steps : List DeferStep) : (run { maxPdu := maxPdu } steps).Told :=
  Runs.invariant Told (fun _ _ ht => told_step ht) (told_start maxPdu) steps

/-- On an association whose deferred requests are kept apart by their identifiers, and where no result is
preferred to a signal, each is answered once, as cancelled exactly if it was cancelled. -/
theorem deferred_served (maxPdu : ℕ) (steps : List DeferStep)
    (h : Runs.Admitted step Apart { maxPdu := maxPdu } steps) : (run { maxPdu := maxPdu } steps).Served := by
  have htold : (run { maxPdu := maxPdu } steps).Told :=
    Runs.invariant Told (fun _ _ ht => told_step ht) (told_start maxPdu) steps
  have horderly : (run { maxPdu := maxPdu } steps).Orderly :=
    Runs.induction_admitted Orderly (fun _ _ ho hx => orderly_step ho hx) (orderly_start maxPdu) h
  exact served htold horderly

def cancelledOnce : List DeferStep :=
  [.request 7, .start 0, .cancel [7], .select 0 true, .send 0, .cancel [7]]

theorem deferred_served_cancelled : (run { maxPdu := 65000 } cancelledOnce).Served ∧
      (run { maxPdu := 65000 } cancelledOnce).wire =
        [.cancelResponse [0x86, 1, 7], .answer 0 (encodeErrorPdu 7 preempted).encode,
          .cancelError (cancelErrorPdu 7).encode] :=
  ⟨deferred_served 65000 cancelledOnce (by decide +kernel), by decide +kernel⟩

def sameId : List DeferStep :=
  [.request 7, .request 7, .start 0, .start 1, .select 0 false, .select 1 false, .send 0, .send 1]

/-- Each of two requests with one identifier is answered as cancelled: the second takes the place of the first,
which then takes out what the second registered. -/
theorem same_id_preempted : (run {} sameId).wire =
        [.answer 0 (encodeErrorPdu 7 preempted).encode, .answer 1 (encodeErrorPdu 7 preempted).encode] ∧
      ¬ (run {} sameId).Served := by
  refine ⟨by decide +kernel, ?_⟩
  intro h
  have hr : (run {} sameId).requests[0]? = some ⟨7, .answered none, none, .dropped, false⟩ := rfl
  have hacked := (h.cancelled 0 _ none hr rfl).mp rfl
  cases hacked

end Deferrals
end Iec61850.Server
