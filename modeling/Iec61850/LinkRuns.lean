import Iec61850.Runs
import Iec61850.MmsDecode

/-! What one association writes to its transport, over every interleaving of requests, senders and the
writer task. -/
namespace Iec61850.Server
open Asn1

/-- An unconfirmed PDU that was accepted. `serial` numbers the acceptances and `during` is the request that
was unanswered then; both are kept for reasoning. -/
structure AcceptedPdu where
  serial : ℕ
  during : Option ℕ
  pdu : List UInt8
deriving DecidableEq

/-- What is written to the transport. -/
inductive WrittenPdu where
  | queued (a : AcceptedPdu)
  /-- An unconfirmed PDU that precedes a response. -/
  | first (a : AcceptedPdu)
  | response (request : ℕ) (pdu : List UInt8)
  /-- Answers and calls of other kinds. -/
  | other (pdu : List UInt8)
deriving DecidableEq

def WrittenPdu.queued? : WrittenPdu → Option AcceptedPdu
  | queued a => some a
  | _ => none

/-- The PDUs held back while one confirmed request is handled. -/
structure HeldPdu where
  inRequest : Bool := false
  before : List AcceptedPdu := []
  after : List AcceptedPdu := []
deriving DecidableEq

inductive Serving where
  | idle
  /-- The handler works on a request. -/
  | handling (request : ℕ)
  /-- The handler is done, and its answer is being written, with what goes before and after it. -/
  | answering (request : ℕ) (before : List AcceptedPdu) (response : List UInt8) (after : List AcceptedPdu)
  /-- The answer is written, and what was held is being queued. -/
  | queueing (after : List AcceptedPdu)
deriving DecidableEq

namespace Serving

def request : Serving → Option ℕ
  | handling r | answering r _ _ _ => some r
  | _ => none

def waiting : Serving → List AcceptedPdu
  | answering _ _ _ after | queueing after => after
  | _ => []

end Serving

/-- An association. `callers` are the PDUs of calls that found no request in progress and are about to
queue, and `pumping` is the one taken from the queue. The last four fields are kept for reasoning: how
many requests there were, what was accepted for the queue and to precede a response, and what was dropped.
-/
structure Link where
  held : HeldPdu := {}
  queue : List AcceptedPdu := []
  closed : Bool := false
  serving : Serving := .idle
  callers : List (List UInt8) := []
  pumping : Option AcceptedPdu := none
  wire : List WrittenPdu := []
  requests : ℕ := 0
  accepted : List AcceptedPdu := []
  firsts : List AcceptedPdu := []
  lost : List AcceptedPdu := []

inductive LinkStep where
  | request
  /-- A thread sends an unconfirmed PDU, ahead of the response in progress or not. -/
  | send (first : Bool) (service : Element)
  /-- A call that found no request in progress queues its PDU. -/
  | queue (i : ℕ)
  | answer (response : List UInt8)
  | write
  | requeue
  | take
  | pump
  | other (pdu : List UInt8)
  | close

namespace Link

def count (s : Link) : ℕ := s.accepted.length + s.firsts.length

def accept (s : Link) (pdu : List UInt8) : AcceptedPdu :=
  { serial := s.count, during := s.serving.request, pdu := pdu }

def hasRoom (s : Link) : Bool := !s.closed && decide (s.queue.length < unconfirmedQueueDepth)

def hold (s : Link) (first : Bool) (pdu : List UInt8) : Link :=
  let a := s.accept pdu
  if first then
    { s with held := { s.held with before := s.held.before ++ [a] }, firsts := s.firsts ++ [a] }
  else { s with held := { s.held with after := s.held.after ++ [a] }, accepted := s.accepted ++ [a] }

def step (s : Link) : LinkStep → Link
  | .request =>
    match s.serving with
    | .idle =>
      { s with
        held := { s.held with inRequest := true }
        serving := .handling s.requests
        requests := s.requests + 1 }
    | _ => s
  | .send first service =>
    let pdu := (cons tagUnconfirmed [service]).encode
    if s.held.inRequest then s.hold first pdu else { s with callers := s.callers ++ [pdu] }
  | .queue i =>
    match s.callers[i]? with
    | none => s
    | some pdu =>
      let left := { s with callers := s.callers.eraseIdx i }
      -- The caller of a full queue is told so.
      if s.hasRoom then
        { left with queue := s.queue ++ [s.accept pdu], accepted := s.accepted ++ [s.accept pdu] }
      else left
  | .answer response =>
    match s.serving with
    | .handling r =>
      { s with held := {}, serving := .answering r s.held.before response s.held.after }
    | _ => s
  | .write =>
    if s.closed then s
    else
      match s.serving with
      | .answering r (a :: before) response after =>
        { s with wire := s.wire ++ [.first a], serving := .answering r before response after }
      | .answering r [] response after =>
        { s with wire := s.wire ++ [.response r response], serving := .queueing after }
      | _ => s
  | .requeue =>
    match s.serving with
    | .queueing [] => { s with serving := .idle }
    | .queueing (a :: after) =>
      let next := { s with serving := .queueing after }
      -- Nobody is told when the queue is full.
      if s.hasRoom then { next with queue := s.queue ++ [a] }
      else if s.closed then next
      else { next with lost := s.lost ++ [a] }
    | _ => s
  | .take =>
    match s.pumping, s.queue with
    | none, a :: rest => if s.closed then s else { s with pumping := some a, queue := rest }
    | _, _ => s
  | .pump =>
    match s.pumping with
    | none => s
    | some a => if s.closed then s else { s with wire := s.wire ++ [.queued a], pumping := none }
  | .other pdu => if s.closed then s else { s with wire := s.wire ++ [.other pdu] }
  | .close => { s with closed := true }

def run (s : Link) (steps : List LinkStep) : Link := steps.foldl step s

def written (s : Link) : List AcceptedPdu := s.wire.filterMap WrittenPdu.queued?

def pipeline (s : Link) : List AcceptedPdu :=
  s.written ++ s.pumping.toList ++ s.queue ++ s.serving.waiting ++ s.held.after

def conn (s : Link) : ServerConn :=
  { queue := s.queue.map AcceptedPdu.pdu
    closed := s.closed
    inRequest := s.held.inRequest
    after := s.held.after.map AcceptedPdu.pdu }

end Link

open Serving WrittenPdu List Runs

namespace Link
variable {s s' : Link} {x : LinkStep} {a : AcceptedPdu} {r : ℕ}

inductive Move (s : Link) : LinkStep → Link → Prop where
  | request (idle : s.serving = .idle) :
      Move s .request { s with
        held := { s.held with inRequest := true }
        serving := .handling s.requests
        requests := s.requests + 1 }
  | before {service : Asn1.Element} (pdu : List UInt8) (busy : s.held.inRequest = true) :
      Move s (.send true service) { s with
        held := { s.held with before := s.held.before ++ [s.accept pdu] }
        firsts := s.firsts ++ [s.accept pdu] }
  | after {service : Asn1.Element} (pdu : List UInt8) (busy : s.held.inRequest = true) :
      Move s (.send false service) { s with
        held := { s.held with after := s.held.after ++ [s.accept pdu] }
        accepted := s.accepted ++ [s.accept pdu] }
  | call {x : LinkStep} (callers : List (List UInt8)) : Move s x { s with callers := callers }
  | queue {i : ℕ} (pdu : List UInt8) (callers : List (List UInt8)) (room : s.hasRoom = true) :
      Move s (.queue i) { s with
        callers := callers
        queue := s.queue ++ [s.accept pdu]
        accepted := s.accepted ++ [s.accept pdu] }
  | answer {r : ℕ} {response : List UInt8} (busy : s.serving = .handling r) :
      Move s (.answer response)
        { s with held := {}, serving := .answering r s.held.before response s.held.after }
  | first {r : ℕ} {a : AcceptedPdu} {before after : List AcceptedPdu} {response : List UInt8}
      (busy : s.serving = .answering r (a :: before) response after) (up : s.closed = false) :
      Move s .write { s with wire := s.wire ++ [.first a], serving := .answering r before response after }
  | respond {r : ℕ} {after : List AcceptedPdu} {response : List UInt8}
      (busy : s.serving = .answering r [] response after) (up : s.closed = false) :
      Move s .write { s with wire := s.wire ++ [.response r response], serving := .queueing after }
  | rest (busy : s.serving = .queueing []) : Move s .requeue { s with serving := .idle }
  | requeue {a : AcceptedPdu} {after : List AcceptedPdu} (busy : s.serving = .queueing (a :: after))
      (room : s.hasRoom = true) :
      Move s .requeue { s with serving := .queueing after, queue := s.queue ++ [a] }
  | drop {a : AcceptedPdu} {after lost : List AcceptedPdu} (busy : s.serving = .queueing (a :: after))
      (full : s.hasRoom = false) (told : lost = if s.closed then s.lost else s.lost ++ [a]) :
      Move s .requeue { s with serving := .queueing after, lost := lost }
  | take {a : AcceptedPdu} {rest : List AcceptedPdu} (idle : s.pumping = none) (some : s.queue = a :: rest) :
      Move s .take { s with pumping := Option.some a, queue := rest }
  | pump {a : AcceptedPdu} (busy : s.pumping = some a) (up : s.closed = false) :
      Move s .pump { s with wire := s.wire ++ [.queued a], pumping := none }
  | other (pdu : List UInt8) (up : s.closed = false) :
      Move s (.other pdu) { s with wire := s.wire ++ [.other pdu] }
  | close : Move s .close { s with closed := true }

lemma move_step (s : Link) (x : LinkStep) : s.step x = s ∨ Move s x (s.step x) := by
  cases x with
  | request =>
    rw [step]
    split
    · next h => exact .inr (.request h)
    · exact .inl rfl
  | send first service =>
    rw [step]
    split
    next h =>
      cases first with
      | true => exact .inr (.before _ h)
      | false => exact .inr (.after _ h)
    · exact .inr (.call _)
  | queue i =>
    rw [step]
    split
    · exact .inl rfl
    dsimp only
    split
    · next h => exact .inr (.queue _ _ h)
    · exact .inr (.call _)
  | answer response =>
    rw [step]
    split
    · next h => exact .inr (.answer h)
    · exact .inl rfl
  | write =>
    rw [step]
    split
    · exact .inl rfl
    next hup =>
    have hup : s.closed = false := Bool.eq_false_iff.mpr hup
    split
    · next h => exact .inr (.first h hup)
    · next h => exact .inr (.respond h hup)
    · exact .inl rfl
  | requeue =>
    rw [step]
    split
    · next h => exact .inr (.rest h)
    next a after h =>
      right
      split
      · next hrm => exact .requeue h hrm
      next hfull =>
      have hfull : s.hasRoom = false := Bool.eq_false_iff.mpr hfull
      split
      · next hdown => exact .drop h hfull (by rw [if_pos hdown])
      · next hup => exact .drop h hfull (by rw [if_neg hup])
    · exact .inl rfl
  | take =>
    rw [step]
    split
    next hp hq =>
      split
      · exact .inl rfl
      · exact .inr (.take hp hq)
    · exact .inl rfl
  | pump =>
    rw [step]
    split
    · exact .inl rfl
    next hp =>
    split
    · exact .inl rfl
    · next hup => exact .inr (.pump hp (Bool.eq_false_iff.mpr hup))
  | other pdu =>
    rw [step]
    split
    · exact .inl rfl
    · next hup => exact .inr (.other pdu (Bool.eq_false_iff.mpr hup))
  | close => exact .inr .close

lemma step_of_moves {Inv : Link → Prop} (h : Inv s) (hmove : ∀ s', Move s x s' → Inv s') : Inv (s.step x) := by
  rcases move_step s x with heq | hm
  · rw [heq]
    exact h
  · exact hmove _ hm

structure Shape (s : Link) : Prop where
  busy : s.held.inRequest = true → ∃ r, s.serving = .handling r
  quiet : s.held.inRequest = false → s.held.before = [] ∧ s.held.after = []

lemma Shape.after_nil (h : s.Shape) (hs : ∀ r, s.serving ≠ .handling r) : s.held.before = [] ∧ s.held.after = [] := by
  cases hr : s.held.inRequest with
  | true =>
    obtain ⟨r, hbusy⟩ := h.busy hr
    exact absurd hbusy (hs r)
  | false => exact h.quiet hr

lemma shape_step (h : s.Shape) : (s.step x).Shape := by
  refine step_of_moves h ?_
  intro s' hm
  -- Where a step is about another stage than the handler's, nothing is held.
  have hidle (hs : ∀ r, s.serving ≠ .handling r) : s.held.inRequest ≠ true := by
    intro hr
    obtain ⟨r, hbusy⟩ := h.busy hr
    exact hs r hbusy
  cases hm with
  | request idle => exact ⟨fun _ => ⟨s.requests, rfl⟩, fun hr => by cases hr⟩
  | before _ busy | after _ busy => exact ⟨h.busy, fun hr => absurd busy (Bool.eq_false_iff.mp hr)⟩
  | call | queue | take | pump | other | close => exact ⟨h.busy, h.quiet⟩
  | answer busy => exact ⟨fun hr => (by cases hr), fun _ => ⟨rfl, rfl⟩⟩
  | first busy _ | respond busy _ | rest busy | requeue busy _ | drop busy _ _ =>
    exact ⟨fun hr => absurd hr (hidle (by simp [busy])), h.quiet⟩

/-- A waiting sender gets into the queue only while no PDU held for a response is still to be queued. -/
def Calm (s : Link) : LinkStep → Prop
  | .queue _ => s.serving = .idle ∨ s.serving = .queueing []
  | _ => True

instance (s : Link) (x : LinkStep) : Decidable (s.Calm x) := by
  cases x <;> unfold Calm <;> infer_instance

lemma Calm.free {i : ℕ} (hshp : s.Shape) (h : s.Calm (.queue i)) :
    s.serving.waiting = [] ∧ s.held.after = [] ∧ s.serving.request = none := by
  rcases h with h | h <;>
  · have haft := (hshp.after_nil (by simp [h])).2
    rw [h]
    exact ⟨rfl, haft, rfl⟩

inductive Flow (s s' : Link) : Prop where
  | same (pipeline : s'.pipeline = s.pipeline) (accepted : s'.accepted = s.accepted)
  | enter (a : AcceptedPdu) (pipeline : s'.pipeline = s.pipeline ++ [a])
      (accepted : s'.accepted = s.accepted ++ [a])
  | lose (pipeline : s'.pipeline.Sublist s.pipeline) (accepted : s'.accepted = s.accepted)
      (why : s.closed = true ∨ s'.lost ≠ [])

lemma flow_move (hshp : s.Shape) (hcalm : s.Calm x) (hm : Move s x s') : Flow s s' := by
  cases hm with
  | request idle => exact .same (by simp [pipeline, written, idle, waiting]) rfl
  | before | call | close => exact .same rfl rfl
  | after pdu busy => exact .enter (s.accept pdu) (by simp [pipeline, written]) rfl
  | queue pdu callers room =>
    obtain ⟨hwaiting, haft, -⟩ := hcalm.free hshp
    exact .enter (s.accept pdu) (by simp [pipeline, written, hwaiting, haft]) rfl
  | answer busy | rest busy | requeue busy _ =>
    exact .same (by simp [pipeline, written, busy, waiting]) rfl
  | first busy _ | respond busy _ =>
    exact .same (by simp [pipeline, written, busy, waiting, filterMap_append, queued?]) rfl
  | @drop a after lost busy full told =>
    refine .lose ?_ rfl ?_
    · simp only [pipeline, written, busy, waiting]
      exact ((sublist_cons_self a after).append_left _).append_right _
    cases hc : s.closed with
    | true => exact .inl rfl
    | false => exact .inr (by simp [told, hc])
  | take idle some => exact .same (by simp [pipeline, written, idle, some]) rfl
  | pump busy up =>
    exact .same (by simp [pipeline, written, busy, filterMap_append, queued?]) rfl
  | other pdu up =>
    exact .same (by simp [pipeline, written, filterMap_append, queued?]) rfl

def Ordered (s : Link) : Prop := s.pipeline.Sublist s.accepted

lemma ordered_step (hshp : s.Shape) (h : s.Ordered) (hcalm : s.Calm x) : (s.step x).Ordered := by
  refine step_of_moves h ?_
  intro s' hm
  unfold Ordered at h ⊢
  cases flow_move hshp hcalm hm with
  | same hp ha => rwa [hp, ha]
  | enter a hp ha =>
    rw [hp, ha]
    exact h.append_right [a]
  | lose hp ha why =>
    rw [ha]
    exact hp.trans h

structure Numbered (s : Link) : Prop where
  sorted : s.accepted.Pairwise fun a b => a.serial < b.serial
  below : ∀ a ∈ s.accepted, a.serial < s.count

lemma Numbered.accept (h : s.Numbered) (pdu : List UInt8) :
    (s.accepted ++ [s.accept pdu]).Pairwise fun a b => a.serial < b.serial := by
  refine pairwise_append.mpr ⟨h.sorted, pairwise_singleton _ _, ?_⟩
  intro a ha b hb
  rw [mem_singleton.mp hb]
  exact h.below a ha

lemma numbered_step (h : s.Numbered) : (s.step x).Numbered := by
  have haccept (pdu : List UInt8) : ∀ a ∈ s.accepted ++ [s.accept pdu], a.serial < s.count + 1 := by
    intro a ha
    rcases mem_append.mp ha with ha | ha
    · exact Nat.lt_succ_of_lt (h.below a ha)
    · rw [mem_singleton.mp ha]
      exact Nat.lt_succ_self _
  refine step_of_moves h ?_
  intro s' hm
  cases hm with
  | before pdu busy =>
    refine ⟨h.sorted, ?_⟩
    intro a ha
    have hlt := h.below a ha
    simp only [count, length_append, length_singleton] at hlt ⊢
    omega
  | after pdu _ | queue pdu _ _ =>
    refine ⟨h.accept pdu, ?_⟩
    intro a ha
    have hlt := haccept pdu a ha
    simp only [count, length_append, length_singleton] at hlt ⊢
    omega
  | _ => exact ⟨h.sorted, h.below⟩

def Answered (s : Link) (r : ℕ) : Prop := ∃ pdu, response r pdu ∈ s.wire

lemma Answered.mono {w : List WrittenPdu} (h : s.Answered r) (hw : s'.wire = s.wire ++ w) : s'.Answered r := by
  obtain ⟨pdu, hm⟩ := h
  exact ⟨pdu, hw ▸ mem_append_left w hm⟩

/-- The requests are numbered, and one that is in progress has no response yet. -/
structure Current (s : Link) : Prop where
  progress : ∀ r, s.serving.request = some r → r < s.requests ∧ ¬ s.Answered r
  past : ∀ r, s.Answered r → r < s.requests

lemma Current.of_eq (h : s.Current) (hr : s'.serving.request = s.serving.request)
    (hn : s'.requests = s.requests) (hw : ∀ r, s'.Answered r → s.Answered r) : s'.Current := by
  constructor
  · intro r hreq
    rw [hr] at hreq
    obtain ⟨hlt, hno⟩ := h.progress r hreq
    exact ⟨hn ▸ hlt, fun ha => hno (hw r ha)⟩
  intro r ha
  rw [hn]
  exact h.past r (hw r ha)

variable {f : WrittenPdu}

lemma answered_of_append (hf : ∀ r pdu, f ≠ .response r pdu)
    (hw : s'.wire = s.wire ++ [f]) (h : s'.Answered r) : s.Answered r := by
  obtain ⟨pdu, hm⟩ := h
  rw [hw] at hm
  rcases mem_append.mp hm with hm | hm
  · exact ⟨pdu, hm⟩
  · exact absurd (mem_singleton.mp hm).symm (hf r pdu)

lemma current_step (h : s.Current) : (s.step x).Current := by
  refine step_of_moves h ?_
  intro s' hm
  cases hm with
  | request idle =>
    constructor
    · intro r hreq
      obtain rfl := Option.some.inj hreq
      exact ⟨Nat.lt_succ_self _, fun ha => absurd (h.past _ ha) (Nat.lt_irrefl _)⟩
    · intro r ha
      exact Nat.lt_succ_of_lt (h.past r ha)
  | before | after | call | queue | take | close => exact h.of_eq rfl rfl fun _ => id
  | answer busy | rest busy | requeue busy _ | drop busy _ _ =>
    exact h.of_eq (by rw [busy]; rfl) rfl fun _ => id
  | first busy up =>
    refine h.of_eq (by rw [busy]; rfl) rfl ?_
    intro r ha
    exact answered_of_append (by simp) rfl ha
  | @respond r after response busy up =>
    constructor
    · nofun
    intro r' ha
    obtain ⟨pdu, hmem⟩ := ha
    rcases mem_append.mp hmem with hmem | hmem
    · exact h.past r' ⟨pdu, hmem⟩
    · obtain ⟨rfl, -⟩ : r' = r ∧ pdu = response := by simpa using hmem
      exact (h.progress r' (by rw [busy]; rfl)).1
  | pump | other => exact h.of_eq rfl rfl fun r ha => answered_of_append (by simp) rfl ha

/-- What a queued PDU asks of the frames before it: the response of the request unanswered when it was accepted.
-/
def AfterResponse (f : WrittenPdu) (before : List WrittenPdu) : Prop :=
  ∀ a r, f = .queued a → a.during = some r → ∃ pdu, response r pdu ∈ before

/-- The PDUs behind a response are queued after it. -/
structure Due (s : Link) : Prop where
  passed : ∀ a ∈ s.pumping.toList ++ s.queue, ∀ r, a.during = some r → s.Answered r
  waiting : ∀ a ∈ s.serving.waiting ++ s.held.after, ∀ r, a.during = some r →
    s.serving.request = some r ∨ s.Answered r
  wire : History.Led AfterResponse s.wire

lemma afterResponse_of_ne (hf : ∀ a, f ≠ .queued a) (l : List WrittenPdu) : AfterResponse f l := by
  intro a r heq
  exact absurd heq (hf a)

lemma due_step (hshp : s.Shape) (h : s.Due) (hcalm : s.Calm x) : (s.step x).Due := by
  refine step_of_moves h ?_
  intro s' hm
  cases hm with
  | request idle =>
    refine ⟨h.passed, ?_, h.wire⟩
    have hno := (hshp.after_nil (by simp [idle])).2
    simp [waiting, hno]
  | before | call | close => exact ⟨h.passed, h.waiting, h.wire⟩
  | after pdu busy =>
    refine ⟨h.passed, ?_, h.wire⟩
    intro a ha r hr
    rcases mem_append.mp ha with ha | ha
    · exact h.waiting a (mem_append_left _ ha) r hr
    rcases mem_append.mp ha with ha | ha
    · exact h.waiting a (mem_append_right _ ha) r hr
    · rw [mem_singleton.mp ha] at hr
      exact .inl hr
  | queue pdu callers room =>
    refine ⟨?_, h.waiting, h.wire⟩
    intro a ha r hr
    rw [← append_assoc] at ha
    rcases mem_append.mp ha with ha | ha
    · exact h.passed a ha r hr
    -- A PDU is queued directly only while no request is unanswered.
    have hno : s.serving.request = none := (hcalm.free hshp).2.2
    rw [mem_singleton.mp ha] at hr
    rw [accept, hno] at hr
    cases hr
  | @answer r response busy =>
    refine ⟨h.passed, ?_, h.wire⟩
    intro a ha r' hr'
    have hwait := h.waiting a (mem_append_right _ (by simpa [waiting] using ha)) r' hr'
    rwa [busy] at hwait
  | @first r a before after response busy up =>
    refine ⟨fun b hb r' hr' => (h.passed b hb r' hr').mono rfl, ?_,
      h.wire.append_one (afterResponse_of_ne (by simp) _)⟩
    intro b hb r' hr'
    have hwait := h.waiting b (by rw [busy]; exact hb) r' hr'
    rw [busy] at hwait
    exact hwait.imp id fun ha => ha.mono rfl
  | @respond r after response busy up =>
    refine ⟨fun b hb r' hr' => (h.passed b hb r' hr').mono rfl, ?_,
      h.wire.append_one (afterResponse_of_ne (by simp) _)⟩
    intro b hb r' hr'
    have hwait := h.waiting b (by rw [busy]; exact hb) r' hr'
    right
    rcases hwait with hreq | ha
    · rw [busy] at hreq
      obtain rfl := Option.some.inj hreq
      exact ⟨response, mem_append_right _ (mem_singleton_self _)⟩
    · exact ha.mono rfl
  | rest busy =>
    refine ⟨h.passed, ?_, h.wire⟩
    have hno := (hshp.after_nil (by simp [busy])).2
    simp [waiting, hno]
  | @requeue a after busy room =>
    have hwait : ∀ b ∈ a :: after, ∀ r, b.during = some r → s.Answered r := by
      intro b hb r hr
      have hor := h.waiting b (mem_append_left _ (by rw [busy]; exact hb)) r hr
      rw [busy] at hor
      exact hor.resolve_left (by simp [request])
    refine ⟨?_, ?_, h.wire⟩
    · intro b hb r hr
      rw [← append_assoc] at hb
      rcases mem_append.mp hb with hb | hb
      · exact h.passed b hb r hr
      · rw [mem_singleton.mp hb] at hr
        exact hwait a mem_cons_self r hr
    intro b hb r hr
    have hno := (hshp.after_nil (by simp [busy])).2
    rw [hno, append_nil] at hb
    exact .inr (hwait b (mem_cons_of_mem _ hb) r hr)
  | @drop a after lost busy full told =>
    refine ⟨h.passed, ?_, h.wire⟩
    intro b hb r hr
    have hmem : b ∈ s.serving.waiting ++ s.held.after := by
      rw [busy]
      exact mem_cons_of_mem a hb
    have hor := h.waiting b hmem r hr
    rwa [busy] at hor
  | @take a rest idle some =>
    refine ⟨?_, h.waiting, h.wire⟩
    intro b hb r hr
    exact h.passed b (by rw [idle, some]; simpa using hb) r hr
  | @pump a busy up =>
    refine ⟨fun b hb r hr => (h.passed b (mem_append_right _ (by simpa using hb)) r hr).mono rfl,
      fun b hb r hr => (h.waiting b hb r hr).imp id fun ha => ha.mono rfl, h.wire.append_one ?_⟩
    intro b r heq hr
    obtain rfl := queued.inj heq
    exact h.passed a (by simp [busy]) r hr
  | other pdu up =>
    exact ⟨fun b hb r hr => (h.passed b hb r hr).mono rfl,
      fun b hb r hr => (h.waiting b hb r hr).imp id fun ha => ha.mono rfl,
      h.wire.append_one (afterResponse_of_ne (by simp) _)⟩

def ahead (s : Link) : List AcceptedPdu :=
  match s.serving with
  | .handling _ => s.held.before
  | .answering _ before _ _ => before
  | _ => []

/-- What a response asks of the frames before it: all that were to precede it. -/
def AfterFirsts (firsts : List AcceptedPdu) (f : WrittenPdu) (before : List WrittenPdu) : Prop :=
  ∀ r pdu a, f = .response r pdu → a ∈ firsts → a.during = some r → first a ∈ before

/-- What is to precede a response is written before it. -/
structure Heralded (s : Link) : Prop where
  place : ∀ a ∈ s.firsts, ∃ r, a.during = some r ∧ (s.serving.request = some r ∧ a ∈ s.ahead ∨ first a ∈ s.wire)
  wire : History.Led (AfterFirsts s.firsts) s.wire

lemma afterFirsts_of_ne {firsts : List AcceptedPdu} (hf : ∀ r pdu, f ≠ .response r pdu)
    (l : List WrittenPdu) : AfterFirsts firsts f l := by
  intro r pdu a heq
  exact absurd heq (hf r pdu)

lemma Heralded.of_wire (h : s.Heralded) (hf : s'.firsts = s.firsts) (hw : s.wire ⊆ s'.wire)
    (hled : History.Led (AfterFirsts s.firsts) s'.wire)
    (hkeep : ∀ a r, s.serving.request = some r → a ∈ s.ahead →
      s'.serving.request = some r ∧ a ∈ s'.ahead ∨ first a ∈ s'.wire) : s'.Heralded := by
  refine ⟨fun a ha => ?_, hf ▸ hled⟩
  obtain ⟨r, hr, hpl⟩ := h.place a (hf ▸ ha)
  exact ⟨r, hr, hpl.elim (fun hp => hkeep a r hp.1 hp.2) fun hm => .inr (hw hm)⟩

lemma Heralded.of_eq (h : s.Heralded) (hf : s'.firsts = s.firsts) (hw : s'.wire = s.wire)
    (hkeep : ∀ a r, s.serving.request = some r → a ∈ s.ahead →
      s'.serving.request = some r ∧ a ∈ s'.ahead) : s'.Heralded :=
  h.of_wire hf (hw ▸ List.Subset.refl _) (hw ▸ h.wire) fun a r hreq ha => .inl (hkeep a r hreq ha)

lemma Heralded.write (h : s.Heralded) (hno : ∀ r pdu, f ≠ .response r pdu)
    (hf : s'.firsts = s.firsts) (hw : s'.wire = s.wire ++ [f])
    (hkeep : ∀ a r, s.serving.request = some r → a ∈ s.ahead →
      s'.serving.request = some r ∧ a ∈ s'.ahead ∨ f = .first a) : s'.Heralded := by
  refine h.of_wire hf ?_ (hw ▸ h.wire.append_one (afterFirsts_of_ne hno _)) fun a r hreq ha => ?_
  · rw [hw]
    exact subset_append_left _ _
  refine (hkeep a r hreq ha).imp_right ?_
  rintro rfl
  rw [hw]
  exact mem_append_right _ (mem_singleton_self _)

lemma heralded_step (hshp : s.Shape) (hcur : s.Current) (h : s.Heralded) : (s.step x).Heralded := by
  refine step_of_moves h ?_
  intro s' hm
  cases hm with
  | request idle => exact h.of_eq rfl rfl fun a r hreq _ => by simp [idle, request] at hreq
  | before pdu busy =>
    obtain ⟨r, hserving⟩ := hshp.busy busy
    have hreq : s.serving.request = some r := by rw [hserving]; rfl
    constructor
    · intro a ha
      rcases mem_append.mp ha with ha | ha
      · obtain ⟨r', hr', hpl⟩ := h.place a ha
        refine ⟨r', hr', hpl.imp ?_ id⟩
        rintro ⟨hreq', hahd⟩
        refine ⟨hreq', ?_⟩
        simp only [ahead, hserving] at hahd ⊢
        exact mem_append_left _ hahd
      refine ⟨r, by rw [mem_singleton.mp ha]; exact hreq, .inl ⟨hreq, ?_⟩⟩
      simp only [ahead, hserving]
      exact mem_append_right _ ha
    intro pre f post heq r' pdu' a hf ha hr'
    rcases mem_append.mp ha with ha | ha
    · exact h.wire pre f post heq r' pdu' a hf ha hr'
    -- The request in progress has no response on the wire.
    rw [mem_singleton.mp ha] at hr'
    have hans : s.Answered r' := by
      refine ⟨pdu', ?_⟩
      rw [show s.wire = pre ++ f :: post from heq, hf]
      simp
    exact absurd hans (hcur.progress r' hr').2
  | after | call | queue | take | close =>
    exact h.of_eq rfl rfl fun a r hreq hahd => ⟨hreq, hahd⟩
  | answer busy =>
    refine h.of_eq rfl rfl ?_
    intro a r hreq hahd
    simp only [ahead, busy, request] at hreq hahd ⊢
    exact ⟨hreq, hahd⟩
  | @first r b before after response busy up =>
    refine h.write (by simp) rfl rfl ?_
    intro a r' hreq hahd
    simp only [ahead, busy, request] at hreq hahd ⊢
    rcases mem_cons.mp hahd with rfl | hmem
    · exact .inr rfl
    · exact .inl ⟨hreq, hmem⟩
  | @respond r after response busy up =>
    have hout : ∀ a ∈ s.firsts, first a ∈ s.wire := by
      intro a ha
      obtain ⟨r', -, hpl⟩ := h.place a ha
      refine hpl.resolve_left ?_
      rintro ⟨-, hahd⟩
      simp [ahead, busy] at hahd
    constructor
    · intro a ha
      obtain ⟨r', hr', -⟩ := h.place a ha
      exact ⟨r', hr', .inr (mem_append_left _ (hout a ha))⟩
    refine h.wire.append_one ?_
    intro r' pdu a _ ha _
    exact hout a ha
  | rest busy | requeue busy _ | drop busy _ _ =>
    exact h.of_eq rfl rfl fun a r hreq _ => by simp [busy, request] at hreq
  | pump | other => exact h.write (by simp) rfl rfl fun a r hreq hahd => .inl ⟨hreq, hahd⟩

/-- When a handler returns, the queue has room for what was held meanwhile. -/
def Roomy (s : Link) : LinkStep → Prop
  | .answer _ => s.queue.length + s.held.after.length ≤ unconfirmedQueueDepth
  | _ => True

instance (s : Link) (x : LinkStep) : Decidable (s.Roomy x) := by
  cases x <;> unfold Roomy <;> infer_instance

/-- The queue has room for all that waits for it, and nothing was lost. -/
structure Lossless (s : Link) : Prop where
  room : s.queue.length + s.serving.waiting.length ≤ unconfirmedQueueDepth
  lost : s.lost = []

lemma room_of_hasRoom (h : s.hasRoom) : s.queue.length < unconfirmedQueueDepth := by
  rw [hasRoom, Bool.and_eq_true, decide_eq_true_eq] at h
  exact h.2

lemma lossless_step (hshp : s.Shape) (h : s.Lossless) (hcalm : s.Calm x) (hroomy : s.Roomy x) :
    (s.step x).Lossless := by
  refine step_of_moves h ?_
  intro s' hm
  have hrm := h.room
  cases hm with
  | request idle =>
    refine ⟨?_, h.lost⟩
    rw [idle] at hrm
    exact hrm
  | before | after | call | pump | other | close => exact ⟨hrm, h.lost⟩
  | queue pdu callers room =>
    refine ⟨?_, h.lost⟩
    have hlt := room_of_hasRoom room
    simp only [(hcalm.free hshp).1, length_append, length_singleton, length_nil]
    omega
  | answer busy =>
    refine ⟨?_, h.lost⟩
    exact hroomy
  | first busy _ | respond busy _ | rest busy =>
    refine ⟨?_, h.lost⟩
    rw [busy] at hrm
    exact hrm
  | requeue busy room =>
    refine ⟨?_, h.lost⟩
    rw [busy] at hrm
    simp only [waiting, length_append, length_cons, length_nil] at hrm ⊢
    omega
  | @drop a after lost busy full told =>
    rw [busy] at hrm
    simp only [waiting, length_cons] at hrm
    refine ⟨?_, ?_⟩
    · simp only [waiting]
      omega
    -- There is room, so the association has ended.
    have hcl : s.closed := by
      by_contra hup
      have hyes : s.hasRoom := by
        rw [hasRoom, Bool.eq_false_iff.mpr hup]
        simpa using (by omega : s.queue.length < unconfirmedQueueDepth)
      rw [full] at hyes
      cases hyes
    rw [told, if_pos hcl]
    exact h.lost
  | take idle some =>
    refine ⟨?_, h.lost⟩
    rw [some, length_cons] at hrm
    dsimp only
    omega

/-- All that was accepted is on its way, as long as the association lasts; and what was written was
accepted before all that is not. -/
structure Whole (s : Link) : Prop where
  kept : s.closed = false → s.pipeline = s.accepted
  written : s.written <+: s.accepted

lemma written_prefix_pipeline (s : Link) : s.written <+: s.pipeline := by
  refine ⟨s.pumping.toList ++ s.queue ++ s.serving.waiting ++ s.held.after, ?_⟩
  simp [pipeline]

lemma Move.closed_mono (hm : Move s x s') (h : s'.closed = false) : s.closed = false := by
  cases hm with
  | close => cases h
  | _ => exact h

lemma Move.written_of_closed (hm : Move s x s') (h : s.closed) : s'.written = s.written := by
  cases hm with
  | first _ up | respond _ up | pump _ up | other _ up => rw [h] at up; cases up
  | _ => rfl

lemma Flow.accepted_prefix (h : Flow s s') : s.accepted <+: s'.accepted := by
  cases h with
  | same _ ha | lose _ ha _ => exact ha ▸ prefix_refl _
  | enter a hp ha => exact ⟨[a], ha.symm⟩

lemma whole_step (hshp : s.Shape) (h : s.Whole) (hcalm : s.Calm x) (hlost : (s.step x).lost = []) :
    (s.step x).Whole := by
  rcases move_step s x with heq | hm
  · rw [heq]
    exact h
  generalize s.step x = s' at hm hlost
  have hflow := flow_move hshp hcalm hm
  have hkp : s.closed = false → s'.pipeline = s'.accepted := by
    intro hup
    have hbef := h.kept hup
    cases hflow with
    | same hp ha | enter _ hp ha => rw [hp, ha, hbef]
    | lose hp ha why =>
      rcases why with hdown | hne
      · rw [hup] at hdown
        cases hdown
      · exact absurd hlost hne
  refine ⟨fun hup => hkp (hm.closed_mono hup), ?_⟩
  cases hc : s.closed with
  | false =>
    rw [← hkp hc]
    exact written_prefix_pipeline s'
  | true =>
    rw [hm.written_of_closed hc]
    exact h.written.trans hflow.accepted_prefix

variable {steps : List LinkStep}

lemma shape_start : ({} : Link).Shape := ⟨fun h => (by cases h), fun _ => ⟨rfl, rfl⟩⟩

lemma current_start : ({} : Link).Current := by
  constructor
  · nofun
  · rintro r ⟨pdu, h⟩
    cases h

lemma due_start : ({} : Link).Due := by
  refine ⟨?_, ?_, History.led_nil⟩
  · nofun
  · nofun

lemma heralded_start : ({} : Link).Heralded := by
  refine ⟨?_, History.led_nil⟩
  intro a h
  cases h

lemma heralded_run (steps : List LinkStep) : (({} : Link).run steps).Heralded := by
  refine (invariant (fun s : Link => s.Shape ∧ s.Current ∧ s.Heralded) ?_
    ⟨shape_start, current_start, heralded_start⟩ steps).2.2
  intro s x hs
  exact ⟨shape_step hs.1, current_step hs.2.1, heralded_step hs.1 hs.2.1 hs.2.2⟩

lemma numbered_run (steps : List LinkStep) : (({} : Link).run steps).Numbered := by
  refine invariant Numbered (fun s x hs => numbered_step hs) ⟨List.Pairwise.nil, ?_⟩ steps
  intro a h
  cases h

lemma ordered_due_run (h : Runs.Admitted step Calm {} steps) :
    (({} : Link).run steps).Ordered ∧ (({} : Link).run steps).Due := by
  refine (induction_admitted (fun s : Link => s.Shape ∧ s.Ordered ∧ s.Due) ?_
    ⟨shape_start, nil_sublist _, due_start⟩ h).2
  intro s x hs hx
  exact ⟨shape_step hs.1, ordered_step hs.1 hs.2.1 hx, due_step hs.1 hs.2.2 hx⟩

lemma whole_run (h : Runs.Admitted step (fun s x => s.Calm x ∧ s.Roomy x) {} steps) :
    (({} : Link).run steps).Lossless ∧ (({} : Link).run steps).Whole := by
  refine (induction_admitted (fun s : Link => s.Shape ∧ s.Lossless ∧ s.Whole) ?_
    ⟨shape_start, ⟨Nat.zero_le _, rfl⟩, ⟨fun _ => rfl, nil_prefix⟩⟩ h).2
  intro s x hs hx
  have hlossless := lossless_step hs.1 hs.2.1 hx.1 hx.2
  exact ⟨shape_step hs.1, hlossless, whole_step hs.1 hs.2.2 hx.1 hlossless.lost⟩

lemma written_sublist (h : s.Ordered) : s.written.Sublist s.accepted :=
  (written_prefix_pipeline s).sublist.trans h

/-- In every run, what was to precede a response is written before it. Where PDUs are queued directly only while
no request is in progress, they are written in the order they were accepted, and those accepted while a request
was unanswered after its response. -/
theorem unconfirmed_in_order (steps : List LinkStep) :
    (∀ before r pdu after, (({} : Link).run steps).wire = before ++ .response r pdu :: after →
      ∀ a ∈ (({} : Link).run steps).firsts, a.during = some r → first a ∈ before) ∧
    (Runs.Admitted step Calm {} steps →
      (({} : Link).run steps).written.Sublist (({} : Link).run steps).accepted ∧
      (({} : Link).run steps).written.Pairwise (fun a b => a.serial < b.serial) ∧
      ∀ before a after r, (({} : Link).run steps).wire = before ++ .queued a :: after →
        a.during = some r → ∃ pdu, response r pdu ∈ before) := by
  constructor
  · intro before r pdu after hwire a ha hr
    exact (heralded_run steps).wire before _ after hwire r pdu a rfl ha hr
  intro hcalm
  obtain ⟨hordered, hdue⟩ := ordered_due_run hcalm
  have hsub := written_sublist hordered
  refine ⟨hsub, (numbered_run steps).sorted.sublist hsub, ?_⟩
  intro before a after r hwire hr
  exact hdue.wire before _ after hwire a r rfl hr

def sampleReport : Asn1.Element := .primitive (Asn1.contextPrimitive 0) []

def reportsAround : List LinkStep :=
  [.request, .send false sampleReport, .answer [0], .write, .requeue, .requeue,
    .send false sampleReport, .queue 0, .take, .pump, .take, .pump]

def overtaking : List LinkStep :=
  [.request, .send false sampleReport, .answer [0], .send false sampleReport, .queue 0, .write,
    .requeue, .take, .pump, .take, .pump]

def flooding : List LinkStep :=
  [.request] ++ List.replicate (unconfirmedQueueDepth + 1) (.send false sampleReport) ++
    [.answer [0], .write] ++ List.replicate (unconfirmedQueueDepth + 1) .requeue

/-- Both reports are written in order, behind the response. -/
theorem reports_around_in_order : (({} : Link).run reportsAround).wire.length = 3 ∧
      (({} : Link).run reportsAround).written.Pairwise (fun a b => a.serial < b.serial) :=
  ⟨by decide +kernel, ((unconfirmed_in_order reportsAround).2 (by decide +kernel)).2.1⟩

/-- The report accepted second is written first. -/
theorem report_overtaken : (({} : Link).run overtaking).accepted.map AcceptedPdu.serial = [0, 1] ∧
      (({} : Link).run overtaking).written.map AcceptedPdu.serial = [1, 0] := by decide +kernel

/-- Where PDUs are queued directly only while no request is in progress, and a handler returns only if the queue
has room for what it sent, no accepted PDU is lost: all are on their way while the association lasts, each
written before any accepted later. -/
theorem accepted_not_lost (steps : List LinkStep)
    (h : Runs.Admitted step (fun s x => s.Calm x ∧ s.Roomy x) {} steps) : (({} : Link).run steps).lost = [] ∧
    ((({} : Link).run steps).closed = false → (({} : Link).run steps).pipeline = (({} : Link).run steps).accepted) ∧
    (({} : Link).run steps).written <+: (({} : Link).run steps).accepted := by
  obtain ⟨hlossless, hwhole⟩ := whole_run h
  exact ⟨hlossless.lost, hwhole.kept, hwhole.written⟩

theorem reports_around_not_lost :
    (({} : Link).run reportsAround).accepted.length = 2 ∧ (({} : Link).run reportsAround).lost = [] :=
  ⟨by decide +kernel, (accepted_not_lost reportsAround (by decide +kernel)).1⟩

lemma run_append (s : Link) (xs ys : List LinkStep) : s.run (xs ++ ys) = (s.run xs).run ys :=
  foldl_append

lemma run_sends (n : ℕ) (service : Asn1.Element) (hr : s.held.inRequest) :
    ∃ after accepted, after.length = s.held.after.length + n ∧
      s.run (List.replicate n (.send false service)) =
        { s with held := { s.held with after := after }, accepted := accepted } := by
  induction n generalizing s with
  | zero => exact ⟨s.held.after, s.accepted, rfl, rfl⟩
  | succ n ih =>
    have hstep : s.step (.send false service) = s.hold false (Asn1.cons tagUnconfirmed [service]).encode := by
      rw [step, if_pos hr]
    obtain ⟨after, accepted, hlen, hrun⟩ := ih (s := s.step (.send false service)) (by rw [hstep]; exact hr)
    refine ⟨after, accepted, ?_, ?_⟩
    · rw [hlen, hstep]
      simp only [hold, Bool.false_eq_true, if_false, length_append, length_singleton]
      omega
    rw [replicate_succ, run, foldl_cons]
    rw [run] at hrun
    rw [hrun, hstep]
    rfl

lemma lost_requeues {after : List AcceptedPdu} (hup : s.closed = false) (hs : s.serving = .queueing after)
    (hq : s.queue.length ≤ unconfirmedQueueDepth) :
    (s.run (List.replicate after.length .requeue)).lost.length =
      s.lost.length + (s.queue.length + after.length - unconfirmedQueueDepth) := by
  induction after generalizing s with
  | nil =>
    simp only [length_nil, replicate_zero, run, foldl_nil]
    omega
  | cons a after ih =>
    rw [length_cons, replicate_succ, run, foldl_cons]
    by_cases hlt : s.queue.length < unconfirmedQueueDepth
    · have hrm : s.hasRoom := by simp [hasRoom, hup, hlt]
      have hstep : s.step .requeue = { s with serving := .queueing after, queue := s.queue ++ [a] } := by
        simp [step, hs, hrm]
      rw [hstep]
      have hrs := ih (s := { s with serving := .queueing after, queue := s.queue ++ [a] }) hup rfl
        (by simp only [length_append, length_singleton]; omega)
      rw [run] at hrs
      rw [hrs]
      simp only [length_append, length_singleton]
      omega
    have hfull : s.hasRoom = false := by simp [hasRoom, hlt]
    have hstep : s.step .requeue = { s with serving := .queueing after, lost := s.lost ++ [a] } := by
      simp [step, hs, hfull, hup]
    rw [hstep]
    have hrs := ih (s := { s with serving := .queueing after, lost := s.lost ++ [a] }) hup rfl hq
    rw [run] at hrs
    rw [hrs]
    simp only [length_append, length_singleton]
    omega

/-- The last report was accepted, and is dropped behind the response. -/
theorem held_report_lost : (({} : Link).run flooding).lost.length = 1 := by
  let busy := ({} : Link).step .request
  obtain ⟨after, accepted, hlen, hsnd⟩ := run_sends (s := busy) (unconfirmedQueueDepth + 1) sampleReport rfl
  have hlen : after.length = unconfirmedQueueDepth + 1 := by simpa [busy, step] using hlen
  -- The handler has returned and the response is written.
  let answered := ((busy.run (replicate (unconfirmedQueueDepth + 1) (.send false sampleReport))).step
    (.answer [0])).step .write
  have hrun : ({} : Link).run flooding = answered.run (replicate after.length .requeue) := by
    have hrequest : ({} : Link).run [.request] = busy := rfl
    have hreturn (t : Link) : t.run [.answer [0], .write] = (t.step (.answer [0])).step .write := rfl
    rw [hlen, flooding, run_append, run_append, run_append, hrequest, hreturn]
  have hans : answered.closed = false ∧ answered.serving = .queueing after ∧ answered.queue = [] ∧
      answered.lost = [] := by
    dsimp only [answered]
    rw [hsnd]
    exact ⟨rfl, rfl, rfl, rfl⟩
  obtain ⟨hup, hserving, hqueue, hlost⟩ := hans
  have hcnt := lost_requeues hup hserving (by rw [hqueue]; exact Nat.zero_le _)
  rw [hrun, hcnt, hqueue, hlost, hlen, length_nil]
  omega

end Link
end Iec61850.Server
