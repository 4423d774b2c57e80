import Iec61850.CommandSteps
import Iec61850.MmsWriteReal
import Mathlib.Data.List.Perm.Basic
import Iec61850.ClientControl

/-! How often a command is terminated, and what a control call makes of whatever a server sends. -/
namespace Iec61850.Server
open Mms Asn1 List Option

def domainSpecificName (domain item : String) : Element :=
  cons (contextConstructed 1) [prim tagVisibleString (Text.octets domain), prim tagVisibleString (Text.octets item)]

def vmdSpecificName (name : String) : Element := prim (contextPrimitive 0) (Text.octets name)

def variableEntry (name : Element) : Element := cons tagSequence [cons (contextConstructed 0) [name]]

def lastApplErrorValue (domain ctlItem : String) (ctx : ControlCtx) (cause : AddCause) : Value :=
  .struct
    [.visibleText (domain ++ "/" ++ ctlItem),
     .int8 0,
     .struct [.int8 ctx.origin.code.toInt8, .octetString (Text.octets ctx.orIdent)],
     .uint8 ctx.ctlNum,
     .int8 cause.code.toInt8]

def informationReport (names : List Element) (values : List Value) : Element :=
  cons (contextConstructed 0)
    [cons (contextConstructed 0) (names.map variableEntry), cons (contextConstructed 0) (dataElements values)]

def commandTerminationReport (domain item : String) (oper : Value) : Element :=
  informationReport [domainSpecificName domain item] [oper]

def commandTerminationNegativeReport (domain item : String) (oper lastApplError : Value) : Element :=
  informationReport [vmdSpecificName "LastApplError", domainSpecificName domain item] [lastApplError, oper]

structure ControlWrite where
  domain : String
  ctlItem : String
  oper : Value

/-- The CommandTermination owed for one operate. Kept for reasoning: `supervised` says that a timer was started
for it and `refused` that the operate was refused. -/
structure Termination where
  conn : ConnId
  write : ControlWrite
  ctx : ControlCtx
  operTimeout : ℕ
  done : Bool := false
  deferred : Bool := false
  timer : Bool := false
  supervised : Bool := false
  refused : Bool := false

namespace Termination

def report (t : Termination) (cause : AddCause) : Element :=
  if cause = AddCause.none then commandTerminationReport t.write.domain t.write.ctlItem t.write.oper
  else
    commandTerminationNegativeReport t.write.domain t.write.ctlItem t.write.oper
      (lastApplErrorValue t.write.domain t.write.ctlItem t.ctx cause)

def claim (t : Termination) : Termination := { t with done := true, timer := false }

def discard (t : Termination) : Termination := { t with done := true, refused := true }

def supervise (t : Termination) : Termination :=
  if t.operTimeout = 0 then t else { t with supervised := true, timer := t.timer || !t.done }

end Termination

inductive Conclusion where
  /-- Ask whether the application has taken the termination over. -/
  | ask
  | finish
  | supervise

/-- The controls of a server with the terminations they owe, numbered in the order they were made.
`finishing` are the calls that have claimed a termination and not yet sent it; `sent` is what the
connections took, kept for reasoning. -/
structure Commands where
  controls : Controls
  conns : Table ConnId ServerConn := ∅
  writes : Table ConnId (ControlWrite × ℕ) := ∅
  terms : List Termination := []
  owed : Table ConnId ℕ := ∅
  concluding : Table ConnId (ℕ × Conclusion) := ∅
  finishing : List (ℕ × AddCause) := []
  sent : List (ℕ × AddCause) := []

inductive CommandStep where
  | control (x : ControlStep)
  /-- Whatever else happens to a connection. -/
  | connection (conn : ConnId) (sc : ServerConn)
  | deferTermination (t : ℕ)
  /-- The application calls the function it got for that. -/
  | complete (t : ℕ) (cause : AddCause)
  /-- The timer of a termination acts, also one that was to be aborted and had already woken. -/
  | timeout (t : ℕ)
  | transmit (i : ℕ)
  | conclude (conn : ConnId)

namespace Commands

def start (m : Model) (clock : Instant) : Commands := { controls := Controls.start m clock }

def finish (s : Commands) (t : ℕ) (cause : AddCause) : Commands :=
  match s.terms[t]? with
  | none => s
  | some term =>
    if term.done then s
    else { s with terms := s.terms.modify t Termination.claim, finishing := s.finishing ++ [(t, cause)] }

def owedFor (s : Commands) (conn : ConnId) (c : Command) : Option Termination :=
  if c.phase = .oper ∧ c.declared.any CtlModel.isEnhanced = true then
    match s.conns.lookup conn, s.writes.lookup conn with
    | some _, some (write, operTimeout) =>
      some { conn := conn, write := write, ctx := c.ctx, operTimeout := operTimeout }
    | _, _ => none
  else none

def writeOf (domain item : String) (v : Value) : ControlWrite :=
  let ctlItem := ((splitControl item).map fun p => p.1 ++ "$" ++ p.2.name).getD item
  { domain := domain, ctlItem := ctlItem, oper := v }

def onControl (s : Commands) (x : ControlStep) : Commands :=
  let next := { s with controls := s.controls.step x }
  match x with
  | .write conn domain item v _ =>
    -- An association handles one request after the other.
    if (s.controls.commands.lookup conn).isSome ∨ (s.concluding.lookup conn).isSome then s
    else { next with writes := s.writes.insert conn (writeOf domain item v, 0) }
  | .readSbo conn _ _ => if (s.concluding.lookup conn).isSome then s else next
  | .inform conn =>
    match s.controls.atStage conn .arrived, s.writes.lookup conn with
    | some c, some (write, _) =>
      let operTimeout := cfMillis s.controls.model c.ctx.reference "operTimeout"
      { next with writes := s.writes.insert conn (write, operTimeout) }
    | _, _ => next
  | .check conn =>
    match s.controls.atStage conn .informed, (next.controls.atStage conn .checked).bind (s.owedFor conn) with
    | some _, some term =>
      { next with terms := s.terms ++ [term], owed := s.owed.insert conn s.terms.length }
    | _, _ => next
  | .application conn answer =>
    match s.controls.atStage conn .checked, s.owed.lookup conn with
    | some _, some t =>
      if answer.getD AddCause.none ≠ AddCause.none then
        { next with terms := s.terms.modify t Termination.discard, owed := s.owed.erase conn }
      else next
    | _, _ => next
  | .clear conn =>
    match s.controls.atStage conn .clearing, s.owed.lookup conn with
    | some _, some t =>
      { next with owed := s.owed.erase conn, concluding := s.concluding.insert conn (t, .ask) }
    | _, _ => next
  | .endAssociation conn => if (s.concluding.lookup conn).isSome then s else next
  | _ => next

/-- An accepted operate is concluded: the server ends the command, or a timer watches over the
application. -/
def conclude (s : Commands) (conn : ConnId) : Commands :=
  match s.concluding.lookup conn with
  | none => s
  | some (t, .ask) =>
    let stage := if (s.terms[t]?.map Termination.deferred).getD false then Conclusion.supervise else .finish
    { s with concluding := s.concluding.insert conn (t, stage) }
  | some (t, .finish) => { s.finish t AddCause.none with concluding := s.concluding.erase conn }
  | some (t, .supervise) =>
    { s with terms := s.terms.modify t Termination.supervise, concluding := s.concluding.erase conn }

def transmit (s : Commands) (i : ℕ) : Commands :=
  match s.finishing[i]? with
  | none => s
  | some (t, cause) =>
    let left := { s with finishing := s.finishing.eraseIdx i }
    match (s.terms[t]?).bind fun term => (s.conns.lookup term.conn).map fun sc => (term, sc) with
    | none => left
    | some (term, sc) =>
      let (sc, ok) := sc.sendUnconfirmed (term.report cause)
      { left with
        conns := s.conns.insert term.conn sc
        sent := if ok then s.sent ++ [(t, cause)] else s.sent }

def step (s : Commands) : CommandStep → Commands
  | .control x => s.onControl x
  | .connection conn sc => { s with conns := s.conns.insert conn sc }
  | .deferTermination t => { s with terms := s.terms.modify t fun term => { term with deferred := true } }
  | .complete t cause =>
    if (s.terms[t]?.map Termination.deferred).getD false then s.finish t cause else s
  | .timeout t =>
    if (s.terms[t]?.map Termination.supervised).getD false then s.finish t AddCause.timeLimitOver else s
  | .transmit i => s.transmit i
  | .conclude conn => s.conclude conn

def run (s : Commands) (steps : List CommandStep) : Commands := steps.foldl step s

end Commands

open Termination

namespace Commands
variable {s s' : Commands} {x : CommandStep} {t : ℕ} {term : Termination} {cause : AddCause}

def handed (s : Commands) (t : ℕ) : ℕ := ((s.finishing ++ s.sent).map Prod.fst).count t

lemma handed_eq (s : Commands) (t : ℕ) :
    s.handed t = (s.finishing.map Prod.fst).count t + (s.sent.map Prod.fst).count t := by
  rw [handed, map_append, count_append]

def refusal (s : Commands) : CommandStep → Option ℕ
  | .control (.application conn answer) =>
    if answer.getD AddCause.none ≠ AddCause.none ∧ (s.controls.atStage conn .checked).isSome = true then
      s.owed.lookup conn
    else none
  | _ => none

inductive Change (s : Commands) (x : CommandStep) (s' : Commands) : Prop where
  /-- Nothing, or a claimed termination leaves. -/
  | leave (terms : s'.terms = s.terms) (fewer : ∀ t, s'.handed t ≤ s.handed t)
  | owe (term : Termination) (fresh : term.done = false ∧ term.refused = false)
      (terms : s'.terms = s.terms ++ [term]) (handed : s'.handed = s.handed)
  | touch (t : ℕ) (f : Termination → Termination)
      (keeps : ∀ term, (f term).done = term.done ∧ (f term).refused = term.refused)
      (terms : s'.terms = s.terms.modify t f) (handed : s'.handed = s.handed)
  | discard (t : ℕ) (refuses : s.refusal x = some t) (terms : s'.terms = s.terms.modify t discard)
      (handed : s'.handed = s.handed)
  | claim (t : ℕ) (term : Termination) (known : s.terms[t]? = some term) (undone : term.done = false)
      (terms : s'.terms = s.terms.modify t claim)
      (handed : ∀ t', s'.handed t' = s.handed t' + if t = t' then 1 else 0)

lemma Change.still (hterms : s'.terms = s.terms) (hf : s'.finishing = s.finishing)
    (hsent : s'.sent = s.sent) : Change s x s' := by
  refine .leave hterms ?_
  intro t
  rw [handed, handed, hf, hsent]

lemma change_finish (s : Commands) (x : CommandStep) (t : ℕ) (cause : AddCause) : Change s x (s.finish t cause) := by
  unfold finish
  split
  · exact .still rfl rfl rfl
  next term htm =>
  split
  · exact .still rfl rfl rfl
  next hdone =>
  refine .claim t term htm (Bool.eq_false_iff.mpr hdone) rfl ?_
  intro t'
  simp only [handed_eq, map_append, count_append, map_cons, map_nil, count_singleton, beq_iff_eq]
  omega

lemma owedFor_fresh {conn : ConnId} {c : Command} (h : s.owedFor conn c = some term) :
    term.done = false ∧ term.refused = false := by
  unfold owedFor at h
  split at h
  · split at h
    · obtain rfl := some.inj h
      exact ⟨rfl, rfl⟩
    · cases h
  · cases h

lemma change_onControl (s : Commands) (y : ControlStep) : Change s (.control y) (s.onControl y) := by
  dsimp only [onControl]
  split
  case h_1 => split <;> exact .still rfl rfl rfl
  case h_2 => split <;> exact .still rfl rfl rfl
  case h_3 => split <;> exact .still rfl rfl rfl
  case h_4 =>
    split
    next hmade =>
      obtain ⟨c, -, htm⟩ := bind_eq_some_iff.mp hmade
      exact .owe _ (owedFor_fresh htm) rfl rfl
    · exact .still rfl rfl rfl
  case h_5 conn answer =>
    split
    next c t hst howed =>
      split
      next hno =>
        have hrefuses : s.refusal (.control (.application conn answer)) = some t := by
          rw [refusal, if_pos ⟨hno, by rw [hst]; rfl⟩, howed]
        exact .discard t hrefuses rfl rfl
      · exact .still rfl rfl rfl
    · exact .still rfl rfl rfl
  case h_6 => split <;> exact .still rfl rfl rfl
  case h_7 => split <;> exact .still rfl rfl rfl
  case h_8 => exact .still rfl rfl rfl

lemma change_conclude (s : Commands) (x : CommandStep) (conn : ConnId) : Change s x (s.conclude conn) := by
  unfold conclude
  split
  · exact .still rfl rfl rfl
  · exact .still rfl rfl rfl
  next t _ =>
    cases change_finish s x t AddCause.none with
    | leave terms fewer => exact .leave terms fewer
    | owe term fresh terms handed => exact .owe term fresh terms handed
    | touch t f keeps terms handed => exact .touch t f keeps terms handed
    | discard t refuses terms handed => exact .discard t refuses terms handed
    | claim t term known undone terms handed => exact .claim t term known undone terms handed
  next t _ =>
    refine .touch t supervise ?_ rfl rfl
    intro term
    unfold supervise
    split <;> exact ⟨rfl, rfl⟩

lemma change_transmit (s : Commands) (x : CommandStep) (i : ℕ) : Change s x (s.transmit i) := by
  have herase : ((s.finishing.eraseIdx i).map Prod.fst).Sublist (s.finishing.map Prod.fst) :=
    (s.finishing.eraseIdx_sublist i).map _
  have hfewer (t : ℕ) : ((s.finishing.eraseIdx i).map Prod.fst).count t ≤
      (s.finishing.map Prod.fst).count t := herase.count_le t
  unfold transmit
  split
  · exact .still rfl rfl rfl
  next t cause hget =>
  split
  · refine .leave rfl ?_
    intro t'
    have h := hfewer t'
    simp only [handed_eq]
    omega
  refine .leave rfl ?_
  intro t'
  -- What is erased is one claim of this termination.
  have hi : i < s.finishing.length := (List.getElem?_eq_some_iff.mp hget).1
  have hpm : ((t, cause) :: s.finishing.eraseIdx i).Perm s.finishing := by
    have hel : s.finishing[i] = (t, cause) := (List.getElem?_eq_some_iff.mp hget).2
    rw [← hel]
    exact List.getElem_cons_eraseIdx_perm hi
  have hcnt := (hpm.map Prod.fst).count_eq t'
  simp only [List.map_cons, List.count_cons] at hcnt
  simp only [handed_eq]
  split
  · simp only [List.map_append, List.count_append, List.map_cons, List.map_nil, List.count_cons,
      List.count_nil]
    omega
  · have h := hfewer t'
    omega

lemma change_step (s : Commands) (x : CommandStep) : Change s x (s.step x) := by
  cases x with
  | control y => exact change_onControl s y
  | connection conn sc => exact .still rfl rfl rfl
  | deferTermination t =>
    exact .touch t (fun term => { term with deferred := true }) (fun _ => ⟨rfl, rfl⟩) rfl rfl
  | complete t cause =>
    rw [step]
    split
    · exact change_finish s _ t cause
    · exact .still rfl rfl rfl
  | timeout t =>
    rw [step]
    split
    · exact change_finish s _ t AddCause.timeLimitOver
    · exact .still rfl rfl rfl
  | transmit i => exact change_transmit s _ i
  | conclude conn => exact change_conclude s _ conn

/-- A termination is claimed at most once, and not before it is done. -/
structure Once (s : Commands) : Prop where
  known : ∀ t, s.terms.length ≤ t → s.handed t = 0
  once : ∀ t term, s.terms[t]? = some term → s.handed t ≤ 1 ∧ (term.done = false → s.handed t = 0)

/-- The termination of a refused operate is over and was never claimed. -/
def Discarded (s : Commands) : Prop :=
  ∀ t term, s.terms[t]? = some term → term.refused = true → term.done = true ∧ s.handed t = 0

/-- The application does not complete a command that it refuses afterwards. -/
def Patient (s : Commands) (x : CommandStep) : Prop :=
  ∀ t ∈ s.refusal x, ∀ term ∈ s.terms[t]?, term.done = false
deriving Decidable

lemma Once.le_one (h : s.Once) (t : ℕ) : s.handed t ≤ 1 := by
  cases hget : s.terms[t]? with
  | none =>
    have hz := h.known t (getElem?_eq_none_iff.mp hget)
    omega
  | some term => exact (h.once t term hget).1

/-- Where a termination comes from after a step. -/
inductive Evolved (s : Commands) (x : CommandStep) (s' : Commands) (t : ℕ) (new : Termination) : Prop where
  | made (unknown : s.terms.length ≤ t) (fresh : new.done = false ∧ new.refused = false)
      (fewer : s'.handed t ≤ s.handed t)
  | kept (old : Termination) (known : s.terms[t]? = some old)
      (same : new.done = old.done ∧ new.refused = old.refused) (fewer : s'.handed t ≤ s.handed t)
  | discarded (old : Termination) (known : s.terms[t]? = some old) (refuses : s.refusal x = some t)
      (done : new.done = true) (fewer : s'.handed t ≤ s.handed t)
  | claimed (old : Termination) (known : s.terms[t]? = some old) (undone : old.done = false)
      (flags : new.done = true ∧ new.refused = old.refused) (more : s'.handed t = s.handed t + 1)

lemma getElem?_modify_cases {l : List Termination} {f : Termination → Termination} {i : ℕ}
    (h : (l.modify i f)[t]? = some term) :
    (i ≠ t ∧ l[t]? = some term) ∨ ∃ old, i = t ∧ l[t]? = some old ∧ term = f old := by
  rw [getElem?_modify] at h
  obtain ⟨old, hold, heq⟩ := map_eq_some_iff.mp h
  by_cases hit : i = t
  · rw [if_pos hit] at heq
    exact .inr ⟨old, hit, hold, heq.symm⟩
  · rw [if_neg hit] at heq
    exact .inl ⟨hit, heq ▸ hold⟩

lemma Change.evolved (hc : Change s x s') (h : s'.terms[t]? = some term) : Evolved s x s' t term := by
  cases hc with
  | leave terms fewer =>
    rw [terms] at h
    exact .kept term h ⟨rfl, rfl⟩ (fewer t)
  | owe new fresh terms handed =>
    have hle : s'.handed t ≤ s.handed t := Nat.le_of_eq (congrFun handed t)
    rw [terms] at h
    by_cases ht : t < s.terms.length
    · rw [getElem?_append_left ht] at h
      exact .kept term h ⟨rfl, rfl⟩ hle
    rw [getElem?_append_right (not_lt.mp ht)] at h
    obtain rfl : term = new := by simpa using mem_of_getElem? h
    exact .made (not_lt.mp ht) fresh hle
  | touch i f keeps terms handed =>
    have hle : s'.handed t ≤ s.handed t := Nat.le_of_eq (congrFun handed t)
    rw [terms] at h
    rcases getElem?_modify_cases h with ⟨-, hold⟩ | ⟨old, rfl, hold, rfl⟩
    · exact .kept term hold ⟨rfl, rfl⟩ hle
    · exact .kept old hold (keeps old) hle
  | discard i refuses terms handed =>
    have hle : s'.handed t ≤ s.handed t := Nat.le_of_eq (congrFun handed t)
    rw [terms] at h
    rcases getElem?_modify_cases h with ⟨-, hold⟩ | ⟨old, rfl, hold, rfl⟩
    · exact .kept term hold ⟨rfl, rfl⟩ hle
    · exact .discarded old hold refuses rfl hle
  | claim i first known undone terms handed =>
    have hmo := handed t
    rw [terms] at h
    rcases getElem?_modify_cases h with ⟨hne, hold⟩ | ⟨old, rfl, hold, rfl⟩
    · rw [if_neg hne] at hmo
      exact .kept term hold ⟨rfl, rfl⟩ (Nat.le_of_eq hmo)
    rw [if_pos rfl] at hmo
    obtain rfl := mem_unique hold known
    exact .claimed old hold undone ⟨rfl, rfl⟩ hmo

lemma Change.unknown (hc : Change s x s') (h : s'.terms.length ≤ t) :
    s.terms.length ≤ t ∧ s'.handed t ≤ s.handed t := by
  cases hc with
  | leave terms fewer => exact ⟨terms ▸ h, fewer t⟩
  | owe new fresh terms handed =>
    rw [terms, List.length_append] at h
    exact ⟨by omega, Nat.le_of_eq (congrFun handed t)⟩
  | touch _ _ _ terms handed | discard _ _ terms handed =>
    rw [terms, List.length_modify] at h
    exact ⟨h, Nat.le_of_eq (congrFun handed t)⟩
  | claim i old known undone terms handed =>
    rw [terms, List.length_modify] at h
    have hi : i < s.terms.length := (List.getElem?_eq_some_iff.mp known).1
    have hmo := handed t
    rw [if_neg (by omega : i ≠ t)] at hmo
    exact ⟨h, (Nat.le_of_eq hmo)⟩

lemma once_step (h : s.Once) : (s.step x).Once := by
  constructor
  · intro t ht
    obtain ⟨hunknown, hle⟩ := (change_step s x).unknown ht
    have hz := h.known t hunknown
    omega
  intro t new hnew
  cases (change_step s x).evolved hnew with
  | made unknown fresh fewer =>
    have hz := h.known t unknown
    exact ⟨by omega, fun _ => by omega⟩
  | kept old known same fewer =>
    obtain ⟨hone, hundone⟩ := h.once t old known
    refine ⟨by omega, ?_⟩
    intro hdone
    have hz := hundone (same.1 ▸ hdone)
    omega
  | discarded old known refuses done fewer =>
    obtain ⟨hone, -⟩ := h.once t old known
    refine ⟨by omega, ?_⟩
    intro hdone
    rw [done] at hdone
    cases hdone
  | claimed old known undone flags more =>
    -- Who claims a termination finds that nobody has done so.
    have hz := (h.once t old known).2 undone
    refine ⟨by omega, ?_⟩
    intro hdone
    rw [flags.1] at hdone
    cases hdone

lemma discarded_step (ho : s.Once) (h : s.Discarded) (hx : s.Patient x) : (s.step x).Discarded := by
  intro t new hnew href
  cases (change_step s x).evolved hnew with
  | made unknown fresh fewer =>
    rw [fresh.2] at href
    cases href
  | kept old known same fewer =>
    obtain ⟨hdone, hz⟩ := h t old known (same.2 ▸ href)
    exact ⟨same.1.trans hdone, by omega⟩
  | discarded old known refuses done fewer =>
    have hz := (ho.once t old known).2 (hx t refuses old known)
    exact ⟨done, by omega⟩
  | claimed old known undone flags more =>
    obtain ⟨hdone, -⟩ := h t old known (flags.2 ▸ href)
    rw [undone] at hdone
    cases hdone

lemma once_start (m : Model) (clock : Instant) : (start m clock).Once := by
  constructor
  · intro t _
    rfl
  · intro t term h
    cases h

lemma once_run (m : Model) (clock : Instant) (steps : List CommandStep) : ((start m clock).run steps).Once :=
  Runs.invariant Once (fun _ _ h => once_step h) (once_start m clock) steps

lemma discarded_run {m : Model} {clock : Instant} {steps : List CommandStep}
    (h : Runs.Admitted step Patient (start m clock) steps) : ((start m clock).run steps).Discarded := by
  refine (Runs.induction_admitted (fun s => s.Once ∧ s.Discarded) ?_ ⟨once_start m clock, ?_⟩ h).2
  · intro s x hs hx
    exact ⟨once_step hs.1, discarded_step hs.1 hs.2 hx⟩
  · intro t term htm
    cases htm

lemma sent_le_handed (s : Commands) (t : ℕ) : (s.sent.map Prod.fst).count t ≤ s.handed t := by
  rw [handed_eq]
  omega

/-- Of each termination at most one is sent, in every run; and none of a refused operate, if no command is
completed that the application refuses afterwards. -/
theorem terminated_at_most_once (m : Model) (clock : Instant) (steps : List CommandStep) :
    (∀ t, (((start m clock).run steps).sent.map Prod.fst).count t ≤ 1) ∧
    (Runs.Admitted step Patient (start m clock) steps →
      ∀ t term, ((start m clock).run steps).terms[t]? = some term → term.refused = true →
        ∀ cause, (t, cause) ∉ ((start m clock).run steps).sent) := by
  constructor
  · intro t
    have hle := sent_le_handed ((start m clock).run steps) t
    have hone := (once_run m clock steps).le_one t
    omega
  intro hpatient t term htm href cause hm
  have hz := (discarded_run hpatient t term htm href).2
  have hle := sent_le_handed ((start m clock).run steps) t
  have hpos : 0 < (((start m clock).run steps).sent.map Prod.fst).count t :=
    count_pos_iff.mpr (mem_map.mpr ⟨(t, cause), hm, rfl⟩)
  omega

def enhancedModel : Model :=
  { devices := [{ name := "LD", nodes := [{ name := "CSWI1", objects := [{
      name := "Pos"
      attributes :=
        [ { name := "ctlModel", fc := .cf, value := some (.integer 3) },
          { name := "stVal", fc := .st, kind := some .boolean, value := some (.boolean false) },
          { name := "Oper", fc := .co, kind := some .struct, children := [{ name := "ctlVal", fc := .co }] } ]
      }] }] }] }

def deferring : List CommandStep :=
  [.connection 1 {},
    .control (.write 1 "LD" "CSWI1$CO$Pos$Oper" (.struct [.boolean true, .struct [], .unsigned 1]) none),
    .control (.inform 1), .control (.check 1), .deferTermination 0]

def refusedThenCompleted : List CommandStep :=
  deferring ++ [.control (.application 1 (some AddCause.notSupported)), .complete 0 AddCause.none, .transmit 0]

def completedThenRefused : List CommandStep :=
  deferring ++ [.complete 0 AddCause.none, .control (.application 1 (some AddCause.notSupported)), .transmit 0]

/-- What is completed after the refusal is not sent. -/
theorem completed_late_not_terminated :
    ∃ term, ((start enhancedModel 0).run refusedThenCompleted).terms[0]? = some term ∧ term.refused = true ∧
      ∀ cause, (0, cause) ∉ ((start enhancedModel 0).run refusedThenCompleted).sent := by
  have htm : ∃ term ∈ ((start enhancedModel 0).run refusedThenCompleted).terms[0]?,
      term.refused = true := by decide +kernel
  obtain ⟨term, htm, href⟩ := htm
  refine ⟨term, htm, href, ?_⟩
  exact (terminated_at_most_once enhancedModel 0 refusedThenCompleted).2 (by decide +kernel) 0 term htm href

/-- What is completed before the refusal is sent, and the refused operate is terminated. -/
theorem refused_terminated :
    ∃ term, ((start enhancedModel 0).run completedThenRefused).terms[0]? = some term ∧ term.refused = true ∧
      (0, AddCause.none) ∈ ((start enhancedModel 0).run completedThenRefused).sent := by
  have htm : ∃ term ∈ ((start enhancedModel 0).run completedThenRefused).terms[0]?,
      term.refused = true := by decide +kernel
  obtain ⟨term, htm, href⟩ := htm
  exact ⟨term, htm, href, by decide +kernel⟩

end Commands

end Iec61850.Server

namespace Iec61850.Client
open Mms Server ControlReports Controlling List

/-- A select, an operate or a cancel that a client writes. -/
structure Commanded where
  domain : String
  base : String
  phase : Phase
  conn : ConnId
  peer : Option IpAddr
  ctlVal : Value
  cat : UInt8
  ident : List UInt8
  num : UInt8
  rest : List Value
  control : splitControl (base ++ "$" ++ phase.name) = some (base, phase)

namespace Commanded
variable (c : Commanded) (cause : AddCause)

def item : String := c.base ++ "$" ++ c.phase.name

def oper : Value :=
  .struct (c.ctlVal :: .struct [.int8 c.cat.toInt8, .octetString c.ident] :: .uint8 c.num :: c.rest)

def ctx : ControlCtx := decodeOper (controlRef c.domain c.base) c.oper.reread c.conn c.peer

def error : Value := lastApplErrorValue c.domain c.item c.ctx cause

/-- The reports of a refusal and of a negative termination, with the values as the client decodes them. -/
def reports : List InformationReport :=
  [{ varRefs := [{ item := "LastApplError" }], values := [(c.error cause).reread] },
   { varRefs := [{ item := "LastApplError" }, ⟨c.domain, c.item⟩]
     values := [(c.error cause).reread, c.oper.reread.reread] }]

/-- The diagnosis names the control object, the originator, the number and the cause. -/
def Tells (found : Option LastApplError) : Prop :=
  ∃ e ∈ found, e.cntrlObj = c.domain ++ "/" ++ c.item ∧ e.origin.code = c.cat ∧ e.orIdent = c.ident ∧
    e.ctlNum = c.num ∧ e.addCause = cause

end Commanded

lemma code_fromCode (n : UInt8) : (OrCat.fromCode n).code = n := by
  by_cases h : n.toNat < 9
  · have hknown : ∀ k < 9, (OrCat.fromCode (UInt8.ofNat k)).code = UInt8.ofNat k := by decide
    simpa using hknown n.toNat h
  · rw [OrCat.fromCode, getD_eq_default _ _ (not_lt.mp h)]
    rfl

variable {c : Commanded} {cause : AddCause} {r : Render} {st : ControlReports} {e : LastApplError}

lemma Commanded.parse_error : LastApplError.parse r (c.error cause).reread = some
    { cntrlObj := c.domain ++ "/" ++ c.item, error := 0, origin := OrCat.fromCode c.cat
      orIdent := Text.octets (Text.fromUtf8Lossy c.ident), ctlNum := c.num, addCause := cause } := by
  have hobj : (Value.visibleText (c.domain ++ "/" ++ c.item)).text r = c.domain ++ "/" ++ c.item :=
    Text.fromUtf8Lossy_octets _
  have horigin : c.ctx.origin = OrCat.fromCode (Value.int8 c.cat.toInt8).asI64.toInt8.toUInt8 := rfl
  have hnum : c.ctx.ctlNum = c.num := by
    apply UInt8.toBitVec_inj.mp
    simp [Commanded.ctx, Commanded.oper, decodeOper, Value.reread, Value.rereadAll, Value.uint8, Value.asI64,
      BitVec.signExtend_eq_setWidth_of_le]
  have hsm : (c.error cause).reread = c.error cause := rfl
  rw [hsm]
  unfold error lastApplErrorValue LastApplError.parse LastApplError.withOrigin
  dsimp only
  rw [hobj, horigin, hnum, asI64_int8, asI64_int8, asI64_int8, asU64_uint8, code_fromCode]
  rfl

variable {ir : InformationReport}

lemma latest_handle (hnmd : ir.isVmdNamed = false) (hrefs : ir.varRefs ≠ [])
    (hlen : ir.varRefs.length = ir.values.length) (hscan : (scan r ir).1 = some e) :
    (st.handle r ir).1.latest = some e := by
  unfold handle
  rw [if_neg (by simp [hnmd, hrefs, hlen])]
  dsimp only
  rw [hscan]
  split
  · rfl
  · unfold complete
    split <;> rfl

lemma Commanded.scan_reports (h : ir ∈ c.reports cause) :
    (scan r ir).1 = LastApplError.parse r (c.error cause).reread := by
  have hitem : c.item ≠ "LastApplError" := fun heq => by
    have hcontrol : splitControl c.item = _ := c.control
    rw [heq] at hcontrol
    exact absurd (hcontrol.symm.trans (by decide +kernel)) (Option.some_ne_none _)
  rcases mem_pair.mp h with rfl | rfl
  · rfl
  · simp only [scan, zip_cons_cons, zip_nil_left, foldl_cons, foldl_nil, hitem, and_false, and_self, if_true, if_false]
    split <;> rfl

/-- An operate of the position of a switch by the originator `ident`. -/
def sampleCommand (ident : List UInt8) : Commanded :=
  ⟨"LD0", "CSWI1$CO$Pos", .oper, 0, none, .boolean true, 2, ident, 7, [], by decide +kernel⟩

open Asn1 Option AList

def parseReadResponse (resp : List UInt8) : Except DecodeError (List Value) := do
  let (content, _) ← ((Decoder.new resp).expect (contextConstructed 4)).mapError .asn1
  let (_, d) ← ((Decoder.new content).optional (contextConstructed 0)).mapError .asn1
  let (results, _) ← (d.expect (contextConstructed 1)).mapError .asn1
  Decoder.readAll decodeAccessResult (results.length + 1) (Decoder.new results)

def answerOf (r : Render) (service : ControlService) (response : Option (List UInt8)) : ControlAnswer :=
  match response with
  | none => .failed
  | some resp =>
    match service with
    | .sbo => selectAnswer r ((parseReadResponse resp).mapError fun _ => ())
    | _ => writeAnswer ((parseWriteResponse resp).mapError fun _ => ())

def hear (r : Render) (heard : ControlReports × Option AddCause) (reports : List InformationReport) :
    ControlReports × Option AddCause :=
  reports.foldl (fun heard ir =>
    let handled := handle r ir heard.1
    (handled.1, heard.2.or (handled.2.map Prod.snd))) heard

/-- The variable of a control call, and its number. -/
structure ControlTarget where
  domain : String
  /-- `LN$CO$DO`. -/
  object : String
  num : UInt8

namespace ControlTarget

def item (t : ControlTarget) (service : ControlService) : String := t.object ++ "$" ++ service.name

def key (t : ControlTarget) (service : ControlService) : String × UInt8 :=
  (VarRef.text { domain := t.domain, item := t.item service }, t.num)

end ControlTarget

/-- What a server sends during a call: the response to its request, and the reports before and after it. -/
structure Exchange where
  response : Option (List UInt8)
  before : List InformationReport
  after : List InformationReport

def Exchange.reports (x : Exchange) : List InformationReport := x.before ++ x.after

def waits (service : ControlService) (enhanced : Bool) : Bool := service == .oper && enhanced

def startReports (last : Table String LastApplError) (key : String × UInt8) : (waiting : Bool) → ControlReports
  | true => { last := last, waiters := (∅ : Table (String × UInt8) ℕ).insert key 0 }
  | false => { last := last }

/-- The result of a control call with no other in progress; `last` are the diagnoses kept from before. -/
def controlCall (r : Render) (last : Table String LastApplError) (t : ControlTarget) (service : ControlService)
    (enhanced : Bool) (x : Exchange) : Except ControlError Unit :=
  let key := t.key service
  let heard := hear r (startReports last key (waits service enhanced), none) x.before
  match answerOf r service x.response with
  | .failed => .error ⟨service.stage, unknownCause⟩
  | .refused =>
    .error ⟨service.stage, if service = .sbo then selectFailed else heard.1.causeFor key.1 key.2⟩
  | .accepted =>
    if waits service enhanced then
      match (hear r heard x.after).2 with
      | some cause => if cause = AddCause.none then .ok () else .error ⟨.termination, cause⟩
      -- No termination comes in time.
      | none => .error ⟨.termination, unknownCause⟩
    else .ok ()

variable {r : Render} {ir : InformationReport} {reports : List InformationReport} {key : String × UInt8}
  {st : ControlReports} {heard : ControlReports × Option AddCause}

def terminates (r : Render) (ir : InformationReport) : Option (String × UInt8) :=
  if ir.isVmdNamed = true ∨ ir.varRefs = [] ∨ ir.varRefs.length ≠ ir.values.length then none
  else terminationKey (scan r ir).2

def causeIn (r : Render) (ir : InformationReport) : AddCause :=
  ((scan r ir).1.map LastApplError.addCause).getD AddCause.none

def ending (r : Render) (key : String × UInt8) (reports : List InformationReport) : Option InformationReport :=
  reports.find? fun ir => terminates r ir = some key

lemma handle_spec (r : Render) (ir : InformationReport) (st : ControlReports) : ∃ st' : ControlReports, st'.waiters = st.waiters ∧
    handle r ir st = (terminates r ir).elim (st', none) fun key => st'.complete key (causeIn r ir) := by
  unfold handle terminates
  split
  · exact ⟨st, rfl, rfl⟩
  refine ⟨st.note (scan r ir).1, ?_, ?_⟩
  · cases (scan r ir).1 with
    | none => rfl
    | some e => rfl
  dsimp only
  split
  · next hno => rw [hno]; rfl
  · next key hkey => rw [hkey]; rfl

/-- A client on which only one call waits, under one key, or none. -/
def Registers (st : ControlReports) (key : String × UInt8) (waiting : Bool) : Prop :=
  ∀ key', st.waiters.lookup key' = if waiting = true ∧ key' = key then some 0 else none

variable {waiting : Bool}

lemma handle_other (h : Registers st key waiting) (hne : ¬ (waiting ∧ terminates r ir = some key)) :
    (handle r ir st).2 = none ∧ Registers (handle r ir st).1 key waiting := by
  obtain ⟨st', hwts, hhandle⟩ := handle_spec r ir st
  have hst' : Registers st' key waiting := by
    intro key'
    rw [hwts]
    exact h key'
  rw [hhandle]
  rcases htm : terminates r ir with _ | key'
  · exact ⟨rfl, hst'⟩
  have hno : st'.waiters.lookup key' = none := by
    rw [hst' key', if_neg]
    rintro ⟨hwaiting, rfl⟩
    exact hne ⟨hwaiting, htm⟩
  rw [elim_some, complete, hno]
  exact ⟨rfl, hst'⟩

lemma handle_ending (h : Registers st key true) (htm : terminates r ir = some key) :
    (handle r ir st).2 = some (0, causeIn r ir) ∧ Registers (handle r ir st).1 key false := by
  obtain ⟨st', hwts, hhandle⟩ := handle_spec r ir st
  have hlk : st'.waiters.lookup key = some 0 := by
    rw [hwts, h key]
    exact if_pos ⟨rfl, rfl⟩
  rw [hhandle, htm, elim_some, complete, hlk]
  refine ⟨rfl, ?_⟩
  intro key'
  by_cases hkey : key' = key
  · subst hkey
    exact lookup_erase key' st'.waiters
  refine (lookup_erase_ne hkey).trans ?_
  rw [hwts, h key']
  exact if_neg fun hand => hkey hand.2

lemma hear_eq (h : Registers heard.1 key waiting) : (hear r heard reports).2 =
      heard.2.or (if waiting then (ending r key reports).map (causeIn r) else none) := by
  induction reports generalizing heard waiting with
  | nil =>
    cases waiting with
    | false | true => exact or_none.symm
  | cons ir reports ih =>
    have hcons : hear r heard (ir :: reports) =
        hear r ((handle r ir heard.1).1, heard.2.or ((handle r ir heard.1).2.map Prod.snd)) reports := rfl
    rw [hcons]
    by_cases hends : waiting ∧ terminates r ir = some key
    · obtain ⟨rfl, htm⟩ := hends
      obtain ⟨hdone, hnx⟩ := handle_ending h htm
      have hfst : ending r key (ir :: reports) = some ir := find?_cons_of_pos (decide_eq_true htm)
      rw [ih hnx, hdone, hfst]
      exact or_none
    obtain ⟨hdone, hnx⟩ := handle_other h hends
    rw [ih hnx, hdone, map_none, or_none]
    rcases waiting with _ | _
    · rfl
    have hnot : ¬ decide (terminates r ir = some key) := by
      intro htm
      exact hends ⟨rfl, of_decide_eq_true htm⟩
    have hfst : ending r key (ir :: reports) = ending r key reports := find?_cons_of_neg hnot
    rw [hfst]

def isText : Value → Bool
  | .visibleString _ | .mmsString _ | .generalizedTime _ => true
  | _ => false

def firstResult (x : Exchange) : Option Tag :=
  x.response.bind fun resp => (writeParts resp).toOption.bind fun parts => parts.head?.map Prod.fst

def firstValue (x : Exchange) : Option Value :=
  x.response.bind fun resp => (parseReadResponse resp).toOption.bind fun values => values.head?

/-- A report is a termination of the operate of a target, and has no diagnosis. -/
structure Concludes (r : Render) (t : ControlTarget) (ir : InformationReport) : Prop where
  operate : (scan r ir).2.map Prod.fst = some { domain := t.domain, item := t.item .oper }
  plain : ∀ ref ∈ ir.varRefs, ¬ (ref.domain = "" ∧ ref.item = "LastApplError")

variable (r : Render) (last : Table String LastApplError) (t : ControlTarget) (service : ControlService)
  (enhanced : Bool) (x : Exchange)

/-- A call that returns success has it from the server: a select reads a text, the result of a write is a
success, and an operate that waits was concluded. -/
structure Earned : Prop where
  selected : service = .sbo → controlCall r last t service enhanced x = .ok () →
    ∃ v, firstValue x = some v ∧ isText v = true ∧ v.text r ≠ ""
  written : service ≠ .sbo → controlCall r last t service enhanced x = .ok () →
    firstResult x = some (contextPrimitive 1)
  concluded : waits service enhanced = true → controlCall r last t service enhanced x = .ok () →
    ∃ ir, ending r (t.key service) x.reports = some ir ∧ Concludes r t ir

structure Honest : Prop where
  select : service = .sbo → ∀ v, firstValue x = some v → v.text r = "" ∨ isText v = true
  write : service ≠ .sbo →
    -- the response is refused or cannot be read,
    (∀ resp parts, x.response = some resp → writeParts resp = .ok parts →
      parts.head?.map Prod.fst = some (contextPrimitive 0)) ∨
    -- or the termination is missing or has a cause,
    (waits service enhanced = true ∧ ∀ ir, ending r (t.key service) x.reports = some ir → causeIn r ir ≠ AddCause.none) ∨
    -- or all is as it should be
    (firstResult x = some (contextPrimitive 1) ∧
      (waits service enhanced = true → ∀ ir, ending r (t.key service) x.reports = some ir → Concludes r t ir))

variable {r last t service enhanced x}

lemma accepted_select : answerOf r .sbo x.response = .accepted ↔ ∃ v, firstValue x = some v ∧ v.text r ≠ "" := by
  unfold answerOf firstValue
  rcases x.response with _ | resp
  · simp
  dsimp only [bind_some]
  rcases parseReadResponse resp with e | values
  · simp [selectAnswer, Except.mapError, Except.toOption]
  rcases values with _ | ⟨v, values⟩
  · simp [selectAnswer, Except.mapError, Except.toOption]
  by_cases htx : v.text r = ""
  · simp [selectAnswer, Except.mapError, Except.toOption, htx]
  · simp [selectAnswer, Except.mapError, Except.toOption, htx]

lemma accepted_write (hsvc : service ≠ .sbo) : answerOf r service x.response = .accepted ↔
    ∃ resp parts, x.response = some resp ∧ writeParts resp = .ok parts ∧
      parts.head?.map Prod.fst ≠ some (contextPrimitive 0) := by
  have hanswer : answerOf r service x.response = (x.response.elim .failed fun resp =>
      writeAnswer ((parseWriteResponse resp).mapError fun _ => ())) := by
    rcases x.response with _ | resp
    · rfl
    cases service with
    | sbo => exact absurd rfl hsvc
    | sbow | oper | cancel => rfl
  rw [hanswer]
  rcases x.response with _ | resp
  · simp
  unfold parseWriteResponse
  rcases hps : writeParts resp with e | parts
  · simp [writeAnswer, Except.mapError, Except.map, hps]
  rcases parts with _ | ⟨part, parts⟩
  · simp [writeAnswer, Except.mapError, Except.map, hps]
  obtain ⟨tag, content⟩ := part
  by_cases htag : tag = contextPrimitive 0
  · simp [writeAnswer, Except.mapError, Except.map, hps, writeResult, htag]
  · simp [writeAnswer, Except.mapError, Except.map, hps, writeResult, htag]

lemma registers_start (last : Table String LastApplError) (key : String × UInt8) (waiting : Bool) :
    Registers (startReports last key waiting) key waiting := by
  intro key'
  rcases waiting with _ | _
  · exact lookup_empty key'
  by_cases hkey : key' = key
  · rw [if_pos ⟨rfl, hkey⟩, hkey]
    exact lookup_insert _
  · rw [if_neg fun hand => hkey hand.2]
    exact (lookup_insert_ne hkey).trans (lookup_empty key')

lemma heard_eq (hwt : waits service enhanced) :
    (hear r (hear r (startReports last (t.key service) (waits service enhanced), none) x.before) x.after).2 =
      (ending r (t.key service) x.reports).map (causeIn r) := by
  have hsplit : hear r (hear r (startReports last (t.key service) (waits service enhanced), none) x.before) x.after =
      hear r (startReports last (t.key service) (waits service enhanced), none) x.reports := foldl_append.symm
  rw [hsplit, hear_eq (registers_start last (t.key service) (waits service enhanced)), if_pos hwt]
  rfl

lemma controlCall_ok_iff (last : Table String LastApplError) : controlCall r last t service enhanced x = .ok () ↔
    answerOf r service x.response = .accepted ∧ (waits service enhanced →
      ∃ ir, ending r (t.key service) x.reports = some ir ∧ causeIn r ir = AddCause.none) := by
  dsimp only [controlCall]
  cases answerOf r service x.response with
  | failed => simp
  | refused => simp
  | accepted =>
    by_cases hwt : waits service enhanced
    · rw [if_pos hwt, heard_eq hwt]
      rcases ending r (t.key service) x.reports with _ | ir
      · simp [hwt]
      by_cases hcau : causeIn r ir = AddCause.none
      · simp [hcau]
      · simp [hcau, hwt]
    · simp [hwt]

/-- A call returns success only with the server's word for it, exactly if the server sends what it has to. -/
theorem success_earned_iff : Earned r last t service enhanced x ↔ Honest r t service enhanced x := by
  constructor
  · intro h
    constructor
    · rintro rfl v hv
      by_cases htx : v.text r = ""
      · exact .inl htx
      right
      have hok : controlCall r last t .sbo enhanced x = .ok () :=
        (controlCall_ok_iff last).mpr ⟨accepted_select.mpr ⟨v, hv, htx⟩, nofun⟩
      obtain ⟨v', hv', hstring, -⟩ := h.selected rfl hok
      rw [hv] at hv'
      cases hv'
      exact hstring
    intro hsvc
    by_cases hacc : answerOf r service x.response = .accepted
    · by_cases hends : waits service enhanced = true →
          ∃ ir, ending r (t.key service) x.reports = some ir ∧ causeIn r ir = AddCause.none
      · have hok := (controlCall_ok_iff last).mpr ⟨hacc, hends⟩
        refine .inr (.inr ⟨h.written hsvc hok, ?_⟩)
        intro hwt ir hir
        obtain ⟨ir', hir', hconcludes⟩ := h.concluded hwt hok
        rw [hir] at hir'
        cases hir'
        exact hconcludes
      obtain ⟨hwt, hno⟩ := Classical.not_imp.mp hends
      refine .inr (.inl ⟨hwt, ?_⟩)
      intro ir hir hcau
      exact hno ⟨ir, hir, hcau⟩
    · left
      intro resp parts hresp hps
      by_contra htag
      exact hacc ((accepted_write hsvc).mpr ⟨resp, parts, hresp, hps, htag⟩)
  intro h
  -- of the three ways for a write only the last leaves a success
  have hls (hsvc : service ≠ .sbo) (hok : controlCall r last t service enhanced x = .ok ()) :
      firstResult x = some (contextPrimitive 1) ∧
        (waits service enhanced = true → ∀ ir, ending r (t.key service) x.reports = some ir → Concludes r t ir) := by
    obtain ⟨hacc, hends⟩ := (controlCall_ok_iff last).mp hok
    obtain href | ⟨hwt, hcaused⟩ | hreported := h.write hsvc
    · obtain ⟨resp, parts, hresp, hps, htag⟩ := (accepted_write hsvc).mp hacc
      exact absurd (href resp parts hresp hps) htag
    · obtain ⟨ir, hir, hcau⟩ := hends hwt
      exact absurd hcau (hcaused ir hir)
    · exact hreported
  constructor
  · rintro rfl hok
    obtain ⟨hacc, -⟩ := (controlCall_ok_iff last).mp hok
    obtain ⟨v, hv, htx⟩ := accepted_select.mp hacc
    exact ⟨v, hv, (h.select rfl v hv).resolve_left htx, htx⟩
  · intro hsvc hok
    exact (hls hsvc hok).1
  intro hwt hok
  have hsvc : service ≠ .sbo := by
    rintro rfl
    cases hwt
  obtain ⟨-, hends⟩ := (controlCall_ok_iff last).mp hok
  obtain ⟨ir, hir, -⟩ := hends hwt
  exact ⟨ir, hir, (hls hsvc hok).2 hwt ir hir⟩

def sampleTarget : ControlTarget := ⟨"LD0", "GGIO1$CO$SPCSO1", 1⟩

def deniedRead : Exchange := ⟨some [0xa4, 5, 0xa1, 3, 0x80, 1, 3], [], []⟩

def emptyWrite : Exchange := ⟨some [0xa5, 0], [], []⟩

def shortDiagnosis : Exchange :=
  ⟨some [0xa5, 2, 0x81, 0], [],
    [{ varRefs := [{ item := "LastApplError" }, { domain := "LD0", item := "GGIO1$CO$SPCSO1$Oper" }]
       values := [.struct [], .struct [.boolean true, .struct [], .uint8 1]] }]⟩

def noRender : Render := ⟨fun _ => "", fun _ => "", id⟩

/-- A select that was denied, a cancel without a result and an operate that failed all return success. -/
theorem success_invented : controlCall noRender ∅ sampleTarget .sbo false deniedRead = .ok () ∧
      ¬ Earned noRender ∅ sampleTarget .sbo false deniedRead ∧
      controlCall noRender ∅ sampleTarget .cancel false emptyWrite = .ok () ∧
      ¬ Earned noRender ∅ sampleTarget .cancel false emptyWrite ∧
      controlCall noRender ∅ sampleTarget .oper true shortDiagnosis = .ok () ∧
      ¬ Earned noRender ∅ sampleTarget .oper true shortDiagnosis := by
  have hsel : controlCall noRender ∅ sampleTarget .sbo false deniedRead = .ok () := by decide +kernel
  have hcancel : controlCall noRender ∅ sampleTarget .cancel false emptyWrite = .ok () := by decide +kernel
  have hoperate : controlCall noRender ∅ sampleTarget .oper true shortDiagnosis = .ok () := by decide +kernel
  refine ⟨hsel, fun h => ?_, hcancel, fun h => ?_, hoperate, fun h => ?_⟩
  · obtain ⟨v, hv, htx, -⟩ := h.selected rfl hsel
    cases hv
    cases htx
  · have hfst := h.written nofun hcancel
    exact absurd hfst (by decide +kernel)
  obtain ⟨ir, hir, hconcludes⟩ := h.concluded rfl hoperate
  have hm : ir ∈ shortDiagnosis.reports := mem_of_find?_eq_some hir
  obtain rfl := mem_singleton.mp hm
  exact hconcludes.plain { item := "LastApplError" } mem_cons_self ⟨rfl, rfl⟩

end Iec61850.Client
