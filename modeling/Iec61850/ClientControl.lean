import Iec61850.ModelNodes
import Iec61850.Runs

/-! Control at the client, and whose report a call is told of. -/
namespace Iec61850.Client
open Mms

def unknownCause : AddCause := ⟨0⟩
def selectFailed : AddCause := ⟨3⟩

/-- A variable of a domain, or of the whole device when the domain is empty. -/
structure VarRef where
  domain : String := ""
  item : String := ""

def VarRef.text (r : VarRef) : String := r.domain ++ "/" ++ r.item

/-- A report: the list it names or the variables it lists, and their values. -/
structure InformationReport where
  listName : String := ""
  varNames : List String := []
  values : List Value := []
  isVmdNamed : Bool := false
  listRef : VarRef := {}
  varRefs : List VarRef := []

/-- The diagnosis of a refused control. -/
structure LastApplError where
  /-- The control variable, `LD/LN$CO$DO$Oper`. -/
  cntrlObj : String
  error : Int64
  origin : OrCat := .notSupported
  orIdent : List UInt8 := []
  ctlNum : UInt8
  addCause : AddCause

def LastApplError.withOrigin (e : LastApplError) : Value → LastApplError
  | .struct (cat :: ident :: _) =>
    { e with origin := OrCat.fromCode cat.asI64.toInt8.toUInt8, orIdent := ident.bytes }
  | _ => e

def LastApplError.parse (r : Render) : Value → Option LastApplError
  | .struct (obj :: err :: origin :: num :: cause :: _) =>
    let e : LastApplError :=
      { cntrlObj := obj.text r
        error := err.asI64
        ctlNum := num.asU64.toUInt8
        addCause := ⟨cause.asI64.toInt8.toUInt8⟩ }
    some (e.withOrigin origin)
  | _ => none

/-- The control reports of one association. `waiters` are the calls that wait for a termination, by variable and
control number. -/
structure ControlReports where
  last : Table String LastApplError := ∅
  latest : Option LastApplError := none
  waiters : Table (String × UInt8) ℕ := ∅

namespace ControlReports

def scan (r : Render) (ir : InformationReport) : Option LastApplError × Option (VarRef × Value) :=
  (ir.varRefs.zip ir.values).foldl (fun found p =>
    if p.1.domain = "" ∧ p.1.item = "LastApplError" then (LastApplError.parse r p.2, found.2)
    else if p.1.domain ≠ "" ∧ Text.endsWith p.1.item "$Oper" = true then (found.1, some p)
    else found) (none, none)

def note (st : ControlReports) : Option LastApplError → ControlReports
  | some e => { st with last := st.last.insert e.cntrlObj e, latest := some e }
  | none => st

def terminationKey : Option (VarRef × Value) → Option (String × UInt8)
  | some (ref, .struct (_ :: _ :: num :: _)) => some (ref.text, num.asU64.toUInt8)
  | _ => none

def complete (st : ControlReports) (key : String × UInt8) (cause : AddCause) : ControlReports × Option (ℕ × AddCause) :=
  match st.waiters.lookup key with
  | none => (st, none)
  | some k => ({ st with waiters := st.waiters.erase key }, some (k, cause))

def handle (r : Render) (ir : InformationReport) (st : ControlReports) : ControlReports × Option (ℕ × AddCause) :=
  if ir.isVmdNamed = true ∨ ir.varRefs = [] ∨ ir.varRefs.length ≠ ir.values.length then (st, none)
  else
    let found := scan r ir
    let st := st.note found.1
    match terminationKey found.2 with
    | none => (st, none)
    | some key => st.complete key ((found.1.map LastApplError.addCause).getD AddCause.none)

def causeFor (st : ControlReports) (cntrlObj : String) (ctlNum : UInt8) : AddCause :=
  match st.last.lookup cntrlObj with
  | some e => if e.ctlNum = ctlNum then e.addCause else unknownCause
  | none => unknownCause

end ControlReports

/-- The variable of a control that a call reads or writes. -/
inductive ControlService where
  | sbo
  | sbow
  | oper
  | cancel
deriving DecidableEq

def ControlService.name : ControlService → String
  | sbo => "SBO"
  | sbow => "SBOw"
  | oper => "Oper"
  | cancel => "Cancel"

inductive ControlStage where
  | select
  | operate
  | termination
  | cancel
deriving DecidableEq

def ControlService.stage : ControlService → ControlStage
  | sbo | sbow => .select
  | oper => .operate
  | cancel => .cancel

structure ControlError where
  stage : ControlStage
  addCause : AddCause
deriving DecidableEq

/-- What an MMS request comes to, as far as a control is concerned. -/
inductive ControlAnswer where
  | failed
  | refused
  | accepted
deriving DecidableEq

def selectAnswer (r : Render) : Except Unit (List Value) → ControlAnswer
  | .error _ => .failed
  | .ok vals => if ((vals.head?.map (Value.text r)).getD "") = "" then .refused else .accepted

def writeAnswer : Except Unit (List (Except DataAccessError Unit)) → ControlAnswer
  | .error _ => .failed
  | .ok results =>
    match results.head? with
    | some (.error _) => .refused
    | _ => .accepted

structure Handle where
  domain : String
  /-- `LN$CO$DO`. -/
  object : String
  ctlNum : UInt8 := 0
  inSequence : Bool := false

namespace Handle

def nextNum (h : Handle) : UInt8 := if h.inSequence then h.ctlNum else h.ctlNum + 1

def beginSequence (h : Handle) : Handle := { h with ctlNum := h.nextNum, inSequence := true }

def endSequence (h : Handle) : Handle := { h with inSequence := false }

def target (h : Handle) (service : ControlService) : String := h.domain ++ "/" ++ h.object ++ "$" ++ service.name

end Handle

/-- The receiving end of the channel of an operate that waits for its termination. -/
inductive TermChannel where
  /-- No termination is waited for. -/
  | closed
  | empty
  | sent (cause : AddCause)
  | dropped
deriving DecidableEq

inductive CallStage where
  | sent
  /-- The answer is negative, and its cause is to be looked up. -/
  | refused
  | awaiting
  | returned (result : Except ControlError Unit)
  | abandoned
deriving DecidableEq

/-- What a server reports of a command: why it was refused, that it ended well, or why it did not. -/
inductive ServerReport where
  | refusal (cause : AddCause)
  | completed
  | failed (cause : AddCause)
deriving DecidableEq

namespace ServerReport

def diagnosis : ServerReport → Option AddCause
  | refusal cause | failed cause => some cause
  | completed => none

def termination : ServerReport → Option AddCause
  | refusal _ => none
  | completed => some AddCause.none
  | failed cause => some cause

end ServerReport

/-- A select, operate or cancel of a handle. `told`, kept for reasoning, are the reports that the server sent of
it before it returned. -/
structure ControlCall where
  handle : ℕ
  service : ControlService
  domain : String
  object : String
  num : UInt8
  stage : CallStage := .sent
  channel : TermChannel := .closed
  told : List ServerReport := []
deriving DecidableEq

namespace ControlCall

def base (c : ControlCall) : String := c.domain ++ "/" ++ c.object

def item (c : ControlCall) : String := c.object ++ "$" ++ c.service.name

def target (c : ControlCall) : String := c.base ++ "$" ++ c.service.name

def active (c : ControlCall) : Bool :=
  match c.stage with
  | .sent | .refused | .awaiting => true
  | _ => false

def diagnosis (c : ControlCall) : Option AddCause := (c.told.filterMap ServerReport.diagnosis).getLast?

def termination (c : ControlCall) : Option AddCause := (c.told.filterMap ServerReport.termination).head?

def tell (c : ControlCall) (r : ServerReport) : ControlCall :=
  if c.active then { c with told := c.told ++ [r] } else c

def drop (c : ControlCall) : ControlCall :=
  if c.channel = .empty then { c with channel := .dropped } else c

end ControlCall

/-- A client's handles, its calls in the order they were made, and the reports it keeps. -/
structure Controlling where
  handles : List Handle := []
  calls : List ControlCall := []
  reports : ControlReports := {}

/-- What is in a report besides the command it is of: the origin and what else an operate echoes. -/
structure ReportParts where
  error : Value
  origin : Value
  ctlVal : Value
  rest : List Value

def ReportParts.lastApplError (p : ReportParts) (c : ControlCall) (cause : AddCause) : Value :=
  .struct [.visibleText c.target, p.error, p.origin, .uint8 c.num, .int8 cause.code.toInt8]

def ReportParts.oper (p : ReportParts) (c : ControlCall) : Value :=
  .struct (p.ctlVal :: p.origin :: .uint8 c.num :: p.rest)

def ReportParts.report (p : ReportParts) (c : ControlCall) : ServerReport → InformationReport
  | .refusal cause => { varRefs := [{ item := "LastApplError" }], values := [p.lastApplError c cause] }
  | .completed => { varRefs := [{ domain := c.domain, item := c.item }], values := [p.oper c] }
  | .failed cause =>
    { varRefs := [{ item := "LastApplError" }, { domain := c.domain, item := c.item }]
      values := [p.lastApplError c cause, p.oper c] }

inductive ClientStep where
  | control (domain object : String)
  /-- A call is made; `enhanced` says that an operate is to wait for its termination. -/
  | call (h : ℕ) (service : ControlService) (enhanced : Bool)
  /-- A report of a command arrives; a termination is one of an operate. -/
  | report (k : ℕ) (r : ServerReport) (parts : ReportParts)
  | answer (k : ℕ) (a : ControlAnswer)
  | diagnose (k : ℕ)
  | receive (k : ℕ)
  | timeout (k : ℕ)
  | abandon (k : ℕ)

namespace Controlling

def dropSender (s : Controlling) (key : String × UInt8) : Controlling :=
  match s.reports.waiters.lookup key with
  | some k => { s with calls := s.calls.modify k ControlCall.drop }
  | none => s

def awaitTermination (s : Controlling) (key : String × UInt8) : Controlling :=
  let s := s.dropSender key
  { s with reports := { s.reports with waiters := s.reports.waiters.insert key s.calls.length } }

def release (s : Controlling) (c : ControlCall) : Controlling :=
  if c.channel = .closed then s
  else
    let s := s.dropSender (c.target, c.num)
    { s with reports := { s.reports with waiters := s.reports.waiters.erase (c.target, c.num) } }

def finish (s : Controlling) (k : ℕ) (c : ControlCall) (stage : CallStage) : Controlling :=
  let s := s.release c
  { s with calls := s.calls.modify k fun c => { c with stage := stage } }

def endSequence (s : Controlling) (h : ℕ) : Controlling := { s with handles := s.handles.modify h Handle.endSequence }

def begin (s : Controlling) (h : ℕ) (hd : Handle) (service : ControlService) (enhanced : Bool) : Controlling :=
  let waits := service == .oper && enhanced
  let c : ControlCall :=
    { handle := h, service := service, domain := hd.domain, object := hd.object, num := hd.nextNum
      channel := if waits then .empty else .closed }
  let s := if waits then s.awaitTermination (c.target, c.num) else s
  { s with
    handles := s.handles.modify h Handle.beginSequence
    calls := s.calls ++ [c] }

def fill (calls : List ControlCall) : Option (ℕ × AddCause) → List ControlCall
  | some (k, cause) => calls.modify k fun c => { c with channel := .sent cause }
  | none => calls

def deliver (r : Render) (s : Controlling) (k : ℕ) (c : ControlCall) (report : ServerReport) (parts : ReportParts) :
    Controlling :=
  let handled := ControlReports.handle r (parts.report c report) s.reports
  { s with
    calls := fill (s.calls.modify k fun c => c.tell report) handled.2
    reports := handled.1 }

/-- The request of a call is answered. A select keeps its sequence open for the operate that follows. -/
def answered (s : Controlling) (k : ℕ) (c : ControlCall) (a : ControlAnswer) : Controlling :=
  match c.service, a with
  | .sbo, .accepted | .sbow, .accepted => s.finish k c (.returned (.ok ()))
  | .sbo, .refused => (s.endSequence c.handle).finish k c (.returned (.error ⟨.select, selectFailed⟩))
  | _, .failed => (s.endSequence c.handle).finish k c (.returned (.error ⟨c.service.stage, unknownCause⟩))
  | _, .refused =>
    let s := s.endSequence c.handle
    { s with calls := s.calls.modify k fun c => { c with stage := .refused } }
  | _, .accepted =>
    let s := s.endSequence c.handle
    if c.channel = .closed then s.finish k c (.returned (.ok ()))
    else { s with calls := s.calls.modify k fun c => { c with stage := .awaiting } }

def terminated (cause : AddCause) : CallStage :=
  .returned (if cause = AddCause.none then .ok () else .error ⟨.termination, cause⟩)

def atStage (s : Controlling) (k : ℕ) (stage : CallStage) : Option ControlCall :=
  (s.calls[k]?).filter fun c => c.stage = stage

/-- One step. A step that the state does not allow changes nothing. -/
def step (r : Render) (s : Controlling) : ClientStep → Controlling
  | .control domain object => { s with handles := s.handles ++ [{ domain := domain, object := object }] }
  | .call h service enhanced =>
    match s.handles[h]? with
    | some hd => s.begin h hd service enhanced
    | none => s
  | .report k report parts =>
    match s.calls[k]? with
    | some c => if c.service = .oper ∨ report.termination = none then s.deliver r k c report parts else s
    | none => s
  | .answer k a =>
    match s.atStage k .sent with
    | some c => s.answered k c a
    | none => s
  | .diagnose k =>
    match s.atStage k .refused with
    | some c => s.finish k c (.returned (.error ⟨c.service.stage, s.reports.causeFor c.target c.num⟩))
    | none => s
  | .receive k =>
    match s.atStage k .awaiting with
    | some c =>
      match c.channel with
      | .sent cause => s.finish k c (terminated cause)
      | .dropped => s.finish k c (terminated unknownCause)
      | _ => s
    | none => s
  | .timeout k =>
    match s.atStage k .awaiting with
    | some c => if c.channel = .empty then s.finish k c (terminated unknownCause) else s
    | none => s
  | .abandon k =>
    match s.calls[k]? with
    | some c => if c.active then s.finish k c .abandoned else s
    | none => s

def run (r : Render) (s : Controlling) (steps : List ClientStep) : Controlling := steps.foldl (step r) s

end Controlling

open ControlCall ControlReports ListIndex ReportParts LastApplError AList Option

namespace ControlReports
variable {st : ControlReports} {e : LastApplError} {target : String} {num : UInt8}

lemma causeFor_congr {st' : ControlReports} (h : st'.last = st.last) :
    st'.causeFor target num = st.causeFor target num := by
  rw [causeFor, causeFor, h]

lemma causeFor_note_self :
    (st.note (some e)).causeFor e.cntrlObj num = if e.ctlNum = num then e.addCause else unknownCause := by
  rw [causeFor, note, lookup_insert]

lemma causeFor_note_of_ne (h : target ≠ e.cntrlObj) :
    (st.note (some e)).causeFor target num = st.causeFor target num := by
  rw [causeFor, note, lookup_insert_ne h]
  rfl

lemma waiters_note {found : Option LastApplError} : (st.note found).waiters = st.waiters := by
  cases found with
  | none => rfl
  | some e => rfl

end ControlReports

namespace ControlCall
variable {c : ControlCall} {r : ServerReport}

lemma text_item : VarRef.text { domain := c.domain, item := c.item } = c.target := by
  rw [VarRef.text, target, base, item]
  simp only [String.append_assoc]

lemma endsWith_item (h : c.service = .oper) : Text.endsWith c.item "$Oper" := by
  rw [Text.endsWith, item, h, List.isSuffixOf_iff_suffix]
  refine ⟨c.object.toList, ?_⟩
  simp [ControlService.name, String.toList_append]

lemma diagnosis_tell (h : c.active) : (c.tell r).diagnosis = r.diagnosis.or c.diagnosis := by
  rw [tell, if_pos h, diagnosis, diagnosis, List.filterMap_append]
  cases hr : r.diagnosis with
  | none => simp [hr]
  | some cause => simp [hr]

lemma termination_tell (h : c.active) : (c.tell r).termination = c.termination.or r.termination := by
  rw [tell, if_pos h, termination, termination, List.filterMap_append]
  cases hr : r.termination with
  | none => simp [hr]
  | some cause => simp [hr, List.head?_append]

lemma active_tell : (c.tell r).active = c.active := by
  unfold tell
  split
  · rfl
  · rfl

lemma channel_tell : (c.tell r).channel = c.channel := by
  unfold tell
  split
  · rfl
  · rfl

lemma key_tell : ((c.tell r).target, (c.tell r).num) = (c.target, c.num) := by
  unfold tell
  split
  · rfl
  · rfl

lemma tell_of_inactive (h : c.active = false) : c.tell r = c := by
  rw [tell, h]
  rfl

end ControlCall

variable {r : Render} {p : ReportParts} {c : ControlCall} {cause : AddCause}

lemma asU64_uint8 (n : UInt8) : (Value.uint8 n).asU64.toUInt8 = n := by
  simp [Value.uint8, Value.asU64]

lemma asI64_int8 (n : UInt8) : (Value.int8 n.toInt8).asI64.toInt8.toUInt8 = n := by
  simp [Value.int8, Value.asI64]

/-- What a client takes from a diagnosis is what the report says of the call. -/
def Explains (found : Option LastApplError) (c : ControlCall) (rep : ServerReport) : Prop :=
  found.map (fun e => (e.cntrlObj, e.ctlNum, e.addCause)) = rep.diagnosis.map fun cause => (c.target, c.num, cause)

lemma key_withOrigin (e : LastApplError) (v : Value) :
    ((e.withOrigin v).cntrlObj, (e.withOrigin v).ctlNum, (e.withOrigin v).addCause) =
      (e.cntrlObj, e.ctlNum, e.addCause) := by
  unfold withOrigin
  split
  · rfl
  · rfl

lemma parse_lastApplError : ∃ e, parse r (p.lastApplError c cause) = some e ∧
    (e.cntrlObj, e.ctlNum, e.addCause) = (c.target, c.num, cause) := by
  have hobj : (Value.visibleText c.target).text r = c.target := Text.fromUtf8Lossy_octets c.target
  refine ⟨_, rfl, ?_⟩
  rw [key_withOrigin, asU64_uint8, asI64_int8, hobj]

variable {rep : ServerReport}

lemma handle_report (st : ControlReports) (hd : c.domain ≠ "") (hs : c.service = .oper ∨ rep.termination = none) :
    ∃ found, Explains found c rep ∧ ControlReports.handle r (p.report c rep) st =
      rep.termination.elim (st.note found, none) ((st.note found).complete (c.target, c.num)) := by
  obtain ⟨e, he, hkey⟩ : ∃ e, parse r (p.lastApplError c (rep.diagnosis.getD AddCause.none)) = some e ∧ _ :=
    parse_lastApplError
  cases rep with
  | refusal cause =>
    refine ⟨some e, congrArg some hkey, ?_⟩
    have hprs : parse r (p.lastApplError c cause) = some e := he
    have hscan : ControlReports.scan r (p.report c (.refusal cause)) = (some e, none) := by
      simp [ControlReports.scan, report, hprs]
    rw [ControlReports.handle, hscan]
    rfl
  | completed =>
    have hoper : c.service = .oper := hs.resolve_right (by simp [ServerReport.termination])
    have hscan : ControlReports.scan r (p.report c .completed) =
        (none, some ({ domain := c.domain, item := c.item }, p.oper c)) := by
      simp [ControlReports.scan, report, hd, endsWith_item hoper]
    refine ⟨none, rfl, ?_⟩
    rw [ControlReports.handle, hscan]
    simp [report, oper, ControlReports.terminationKey, text_item, asU64_uint8, ServerReport.termination]
  | failed cause =>
    have hoper : c.service = .oper := hs.resolve_right (by simp [ServerReport.termination])
    have hprs : parse r (p.lastApplError c cause) = some e := he
    have hscan : ControlReports.scan r (p.report c (.failed cause)) =
        (some e, some ({ domain := c.domain, item := c.item }, p.oper c)) := by
      simp [ControlReports.scan, report, hd, endsWith_item hoper, hprs]
    have hcau : e.addCause = cause := congrArg (fun q => q.2.2) hkey
    refine ⟨some e, congrArg some hkey, ?_⟩
    rw [ControlReports.handle, hscan]
    simp [report, oper, ControlReports.terminationKey, text_item, asU64_uint8, ServerReport.termination, hcau]

lemma causeFor_note {st : ControlReports} {found : Option LastApplError} (h : Explains found c rep)
    (target : String) (num : UInt8) : (st.note found).causeFor target num =
      if target = c.target then rep.diagnosis.elim (st.causeFor target num)
        fun cause => if c.num = num then cause else unknownCause else st.causeFor target num := by
  rcases found with _ | e
  · have hno : rep.diagnosis = none := map_eq_none_iff.mp h.symm
    rw [hno]
    exact (ite_self _).symm
  obtain ⟨cause, hcau, hkey⟩ := map_eq_some_iff.mp h.symm
  obtain ⟨hobj, hnum, hcause'⟩ : c.target = e.cntrlObj ∧ c.num = e.ctlNum ∧ cause = e.addCause := by simpa using hkey
  rw [hcau, hobj, hnum, hcause']
  by_cases ht : target = e.cntrlObj
  · rw [if_pos ht, ht]
    exact causeFor_note_self
  · rw [if_neg ht]
    exact causeFor_note_of_ne ht

/-- What a call returned is what the server reported of it: success or failure of an operate that waits is its
first termination; a refusal has the last diagnosis, or an unknown cause where nothing was reported. The select
by a read has a cause of its own. -/
structure ControlCall.Attributed (c : ControlCall) : Prop where
  completed : c.stage = .returned (.ok ()) → c.channel ≠ .closed → c.termination = some AddCause.none
  terminated : ∀ cause, c.stage = .returned (.error ⟨.termination, cause⟩) → cause = c.termination.getD unknownCause
  refused : ∀ e, c.stage = .returned (.error e) → e.stage ≠ .termination → c.service ≠ .sbo →
    e.addCause = c.diagnosis.getD unknownCause
  selected : ∀ e, c.stage = .returned (.error e) → c.service = .sbo →
    e.addCause = selectFailed ∨ e.addCause = unknownCause

/-- What the channel of a call holds is what the server said of the call. -/
structure ControlCall.Heard (reports : ControlReports) (k : ℕ) (c : ControlCall) : Prop where
  registered : c.channel = .empty → c.termination = none ∧ reports.waiters.lookup (c.target, c.num) = some k
  concluded : ∀ cause, c.channel = .sent cause → c.termination = some cause
  whole : c.channel ≠ .dropped

structure ControlCall.Kept (reports : ControlReports) (k : ℕ) (c : ControlCall) : Prop where
  domain : c.domain ≠ ""
  operates : c.channel ≠ .closed → c.service = .oper
  awaited : c.stage = .awaiting → c.channel ≠ .closed
  refusal : c.stage = .refused → c.service ≠ .sbo
  diagnosed : c.active = true → reports.causeFor c.target c.num = c.diagnosis.getD unknownCause
  heard : c.active = true → c.Heard reports k
  attributed : c.Attributed

namespace Controlling
variable {s s' : Controlling} {j k : ℕ} {c' d : ControlCall} {stage : CallStage}

/-- No two calls in progress share a variable and a number, and every registration is that of such a call. -/
structure Matched (s : Controlling) : Prop where
  kept : ∀ k (c : ControlCall), s.calls[k]? = some c → c.Kept s.reports k
  alone : ∀ (j k : ℕ) (c d : ControlCall), s.calls[j]? = some c → s.calls[k]? = some d → c.active = true → d.active = true →
    c.target = d.target → c.num = d.num → j = k
  waiting : ∀ key k, s.reports.waiters.lookup key = some k →
    ∃ c, s.calls[k]? = some c ∧ c.active = true ∧ c.channel = .empty ∧ (c.target, c.num) = key

lemma Matched.own (h : s.Matched) (hc : s.calls[k]? = some c) (hact : c.active)
    (hw : s.reports.waiters.lookup (c.target, c.num) = some j) : j = k ∧ c.channel = .empty := by
  obtain ⟨d, hd, hdact, hchan, hkey⟩ := h.waiting _ _ hw
  obtain ⟨htgt, hnum⟩ := Prod.mk.injEq .. ▸ hkey
  have hjk : j = k := h.alone j k d c hd hc hdact hact htgt hnum
  subst hjk
  rw [hc] at hd
  cases hd
  exact ⟨rfl, hchan⟩

lemma Matched.key_ne (h : s.Matched) (hj : j ≠ k) (hd : s.calls[j]? = some d) (hc : s.calls[k]? = some c)
    (hdact : d.active) (hact : c.active) : (d.target, d.num) ≠ (c.target, c.num) := by
  intro heq
  obtain ⟨ht, hn⟩ := Prod.mk.injEq .. ▸ heq
  exact hj (h.alone j k d c hd hc hdact hact ht hn)

lemma Matched.update (h : s.Matched) (hc : s.calls[k]? = some c) (hc' : s'.calls[k]? = some c')
    (hoths : ∀ j, j ≠ k → s'.calls[j]? = s.calls[j]?) (hact : c'.active → c.active)
    (hkey : (c'.target, c'.num) = (c.target, c.num))
    (hwts : ∀ key j, s'.reports.waiters.lookup key = some j → s.reports.waiters.lookup key = some j ∧
      (j = k → c'.active ∧ c'.channel = .empty)) (hkp : c'.Kept s'.reports k)
    (hkepts : ∀ j (d : ControlCall), j ≠ k → s.calls[j]? = some d → d.Kept s.reports j → d.Kept s'.reports j) : s'.Matched := by
  obtain ⟨htgt, hnum⟩ := Prod.mk.injEq .. ▸ hkey
  -- a call of the new state is the changed one, or one of the old state
  have hcs : ∀ j d, s'.calls[j]? = some d → (j = k ∧ d = c') ∨ (j ≠ k ∧ s.calls[j]? = some d) := by
    intro j d hd
    by_cases hj : j = k
    · subst hj
      rw [hc'] at hd
      exact .inl ⟨rfl, (some.inj hd).symm⟩
    · rw [hoths j hj] at hd
      exact .inr ⟨hj, hd⟩
  constructor
  · intro j d hd
    obtain ⟨rfl, rfl⟩ | ⟨hj, hd⟩ := hcs j d hd
    · exact hkp
    · exact hkepts j d hj hd (h.kept j d hd)
  · intro i j d e hd he hdact heact ht hn
    obtain ⟨rfl, rfl⟩ | ⟨hi, hd⟩ := hcs i d hd
    · obtain ⟨rfl, rfl⟩ | ⟨hj, he⟩ := hcs j e he
      · rfl
      · exact h.alone _ _ _ _ hc he (hact hdact) heact (htgt ▸ ht) (hnum ▸ hn)
    obtain ⟨rfl, rfl⟩ | ⟨hj, he⟩ := hcs j e he
    · exact h.alone _ _ _ _ hd hc hdact (hact heact) (htgt ▸ ht) (hnum ▸ hn)
    · exact h.alone _ _ _ _ hd he hdact heact ht hn
  intro key j hw
  obtain ⟨hw, hself⟩ := hwts key j hw
  obtain ⟨d, hd, hdact, hchan, hdkey⟩ := h.waiting key j hw
  by_cases hj : j = k
  · subst hj
    rw [hc] at hd
    cases hd
    exact ⟨c', hc', (hself rfl).1, (hself rfl).2, hkey.trans hdkey⟩
  · exact ⟨d, (hoths j hj).trans hd, hdact, hchan, hdkey⟩

lemma kept_reports {reports reports' : ControlReports} (h : d.Kept reports j)
    (hcau : d.active → reports'.causeFor d.target d.num = d.diagnosis.getD unknownCause)
    (hlk : d.active → reports.waiters.lookup (d.target, d.num) = some j →
      reports'.waiters.lookup (d.target, d.num) = some j) : d.Kept reports' j := by
  refine { h with diagnosed := hcau, heard := ?_ }
  intro hact
  have hhrd := h.heard hact
  refine { hhrd with registered := ?_ }
  intro hemp
  exact ⟨(hhrd.registered hemp).1, hlk hact (hhrd.registered hemp).2⟩

lemma attributed_of_active (h : c.active) : c.Attributed := by
  have hnot : ∀ result, c.stage ≠ .returned result := by
    intro result hst
    rw [active, hst] at h
    cases h
  exact ⟨fun hs => absurd hs (hnot _), fun _ hs => absurd hs (hnot _), fun _ hs => absurd hs (hnot _),
    fun _ hs => absurd hs (hnot _)⟩

lemma Matched.goOn (h : s.Matched) (hc : s.calls[k]? = some c) (hact : c.active)
    (hst : (stage = .refused ∧ c.service ≠ .sbo) ∨ (stage = .awaiting ∧ c.channel ≠ .closed)) :
    Matched { s with calls := s.calls.modify k fun c => { c with stage := stage } } := by
  have hkp := h.kept k c hc
  have hhrd := hkp.heard hact
  have hnew : Kept s.reports k { c with stage := stage } := by
    obtain ⟨rfl, hsvc⟩ | ⟨rfl, hchan⟩ := hst
    · exact ⟨hkp.domain, hkp.operates, nofun, fun _ => hsvc, fun _ => hkp.diagnosed hact,
        fun _ => ⟨hhrd.registered, hhrd.concluded, hhrd.whole⟩, attributed_of_active rfl⟩
    · exact ⟨hkp.domain, hkp.operates, fun _ => hchan, nofun, fun _ => hkp.diagnosed hact,
        fun _ => ⟨hhrd.registered, hhrd.concluded, hhrd.whole⟩, attributed_of_active rfl⟩
  refine h.update hc (getElem?_modify_self hc) (fun j hj => getElem?_modify_of_ne hj)
    (fun _ => hact) rfl ?_ hnew fun _ _ _ _ hd => hd
  intro key j hw
  refine ⟨hw, fun hj => ?_⟩
  subst hj
  obtain ⟨d, hd, -, hchan, -⟩ := h.waiting key j hw
  rw [hc] at hd
  cases hd
  obtain ⟨rfl, -⟩ | ⟨rfl, -⟩ := hst
  · exact ⟨rfl, hchan⟩
  · exact ⟨rfl, hchan⟩

lemma Matched.handles (h : s.Matched) (handles : List Handle) : Matched { s with handles := handles } :=
  ⟨h.kept, h.alone, h.waiting⟩

lemma reports_dropSender {key : String × UInt8} : (s.dropSender key).reports = s.reports := by
  unfold dropSender
  split
  · rfl
  · rfl

lemma Matched.dropSender (h : s.Matched) (hc : s.calls[k]? = some c) (hact : c.active) :
    (∃ c', (c' = c ∨ c' = c.drop) ∧ (s.dropSender (c.target, c.num)).calls[k]? = some c') ∧
      ∀ j, j ≠ k → (s.dropSender (c.target, c.num)).calls[j]? = s.calls[j]? := by
  unfold Controlling.dropSender
  split
  case h_1 j hw =>
    obtain ⟨rfl, -⟩ := h.own hc hact hw
    exact ⟨⟨c.drop, .inr rfl, getElem?_modify_self hc⟩, fun i hi => getElem?_modify_of_ne hi⟩
  case h_2 => exact ⟨⟨c, .inl rfl, hc⟩, fun _ _ => rfl⟩

lemma Matched.release (h : s.Matched) (hc : s.calls[k]? = some c) (hact : c.active) :
    (∃ c', (c' = c ∨ c' = c.drop) ∧ (s.release c).calls[k]? = some c') ∧
      (∀ j, j ≠ k → (s.release c).calls[j]? = s.calls[j]?) ∧ (s.release c).reports.last = s.reports.last ∧
      (s.release c).reports.waiters.lookup (c.target, c.num) = none ∧ ∀ key, key ≠ (c.target, c.num) →
        (s.release c).reports.waiters.lookup key = s.reports.waiters.lookup key := by
  unfold Controlling.release
  split
  case isTrue hcl =>
    refine ⟨⟨c, .inl rfl, hc⟩, fun _ _ => rfl, rfl, ?_, fun _ _ => rfl⟩
    rcases hw : s.reports.waiters.lookup (c.target, c.num) with _ | j
    · rfl
    have hemp : c.channel = .empty := (h.own hc hact hw).2
    rw [hcl] at hemp
    cases hemp
  case isFalse =>
    obtain ⟨hself, hoths⟩ := h.dropSender hc hact
    have hreports : (s.dropSender (c.target, c.num)).reports = s.reports := reports_dropSender
    have hls : (s.dropSender (c.target, c.num)).reports.last = s.reports.last := congrArg _ hreports
    refine ⟨hself, hoths, hls, lookup_erase _ _, ?_⟩
    intro key hkey
    exact (lookup_erase_ne hkey).trans (by rw [hreports])

lemma attributed_drop (h : ControlCall.Attributed { c with stage := stage })
    (hc' : c' = c ∨ c' = c.drop) : ControlCall.Attributed { c' with stage := stage } := by
  obtain rfl | rfl := hc'
  · exact h
  unfold drop
  split
  case isTrue hemp =>
    have hop : c.channel ≠ .closed := by rw [hemp]; nofun
    exact ⟨fun hs _ => h.completed hs hop, h.terminated, h.refused, h.selected⟩
  case isFalse => exact h

lemma key_drop (hc' : c' = c ∨ c' = c.drop) :
    (c'.target, c'.num) = (c.target, c.num) ∧ c'.domain = c.domain ∧ c'.service = c.service ∧
      (c'.channel ≠ .closed → c.channel ≠ .closed) := by
  obtain rfl | rfl := hc'
  · exact ⟨rfl, rfl, rfl, id⟩
  unfold drop
  split
  case isTrue hemp => exact ⟨rfl, rfl, rfl, fun _ => by rw [hemp]; nofun⟩
  case isFalse => exact ⟨rfl, rfl, rfl, id⟩

lemma Matched.finish (h : s.Matched) (hc : s.calls[k]? = some c) (hact : c.active)
    (hst : active { c with stage := stage } = false)
    (hat : ControlCall.Attributed { c with stage := stage }) : (s.finish k c stage).Matched := by
  obtain ⟨⟨c', hcc', hc'⟩, hoths, hls, hno, hlk⟩ := h.release hc hact
  obtain ⟨hkey, hdom, hsvc, hop⟩ := key_drop hcc'
  have hinactive : active { c' with stage := stage } = false := hst
  have hnew : Kept (s.finish k c stage).reports k { c' with stage := stage } := by
    refine ⟨hdom ▸ (h.kept k c hc).domain, ?_, ?_, ?_, ?_, ?_, attributed_drop hat hcc'⟩
    · intro hchan
      exact hsvc.trans ((h.kept k c hc).operates (hop hchan))
    · rintro rfl
      cases hinactive
    · rintro rfl
      cases hinactive
    · rw [hinactive]
      nofun
    · rw [hinactive]
      nofun
  refine h.update hc (getElem?_modify_self hc')
    (fun j hj => (getElem?_modify_of_ne hj).trans (hoths j hj)) (fun _ => hact) hkey ?_ hnew ?_
  · intro key j hw
    have hne : key ≠ (c.target, c.num) := by
      rintro rfl
      exact some_ne_none j (hw.symm.trans hno)
    have hw' : s.reports.waiters.lookup key = some j := (hlk key hne).symm.trans hw
    refine ⟨hw', ?_⟩
    rintro rfl
    obtain ⟨d, hd, -, -, hdkey⟩ := h.waiting key j hw'
    rw [hc] at hd
    cases hd
    exact absurd hdkey.symm hne
  · intro j d hj hd hkp
    refine kept_reports hkp (fun hdact => ?_) fun hdact hw => ?_
    · exact (causeFor_congr hls).trans (hkp.diagnosed hdact)
    · have hne : (d.target, d.num) ≠ (c.target, c.num) := h.key_ne hj hd hc hdact hact
      exact (hlk _ hne).trans hw

/-- No other call in progress can take the report of a command for its own, or lose a diagnosis to it. -/
def Clear (s : Controlling) (k : ℕ) (c : ControlCall) (rep : ServerReport) : Prop :=
  ∀ j ∈ List.range s.calls.length, ∀ d ∈ s.calls[j]?, j ≠ k → d.active = true → d.target = c.target →
    d.num ≠ c.num ∧ (rep.diagnosis = none ∨ d.diagnosis = none)
deriving Decidable

lemma Clear.other (h : s.Clear k c rep) (hd : s.calls[j]? = some d) (hj : j ≠ k)
    (hact : d.active) (ht : d.target = c.target) :
    d.num ≠ c.num ∧ (rep.diagnosis = none ∨ d.diagnosis = none) := by
  have hlt : j < s.calls.length := (List.getElem?_eq_some_iff.mp hd).1
  exact h j (List.mem_range.mpr hlt) d hd hj hact ht

variable {found : Option LastApplError}

section
variable (h : s.Matched)
include h

lemma Matched.cause_other (hclear : s.Clear k c rep) (hfnd : Explains found c rep)
    (hj : j ≠ k) (hd : s.calls[j]? = some d) (hact : d.active) :
    (s.reports.note found).causeFor d.target d.num = d.diagnosis.getD unknownCause := by
  have hold := (h.kept j d hd).diagnosed hact
  rw [causeFor_note hfnd]
  by_cases ht : d.target = c.target
  · obtain ⟨hnum, hdiag⟩ := hclear.other hd hj hact ht
    rw [if_pos ht]
    rcases hr : rep.diagnosis with _ | cause
    · exact hold
    have hno : d.diagnosis = none := hdiag.resolve_left (by rw [hr]; nofun)
    rw [hno]
    exact if_neg (Ne.symm hnum)
  · rw [if_neg ht]
    exact hold

section
variable (hc : s.calls[k]? = some c)
include hc

lemma Matched.cause_own (hact : c.active) (hfnd : Explains found c rep) :
    (s.reports.note found).causeFor c.target c.num = (c.tell rep).diagnosis.getD unknownCause := by
  have hold := (h.kept k c hc).diagnosed hact
  rw [causeFor_note hfnd, if_pos rfl, diagnosis_tell hact]
  cases hr : rep.diagnosis with
  | none => exact hold
  | some cause => exact if_pos rfl

section
variable (hclear : s.Clear k c rep)
include hclear

lemma Matched.told (hfnd : Explains found c rep)
    (hno : rep.termination = none ∨ s.reports.waiters.lookup (c.target, c.num) = none) :
    Matched { s with calls := s.calls.modify k fun c => c.tell rep, reports := s.reports.note found } := by
  have hkp := h.kept k c hc
  have hwts : (s.reports.note found).waiters = s.reports.waiters := waiters_note
  have hoths : ∀ j (d : ControlCall), j ≠ k → s.calls[j]? = some d → d.Kept s.reports j →
      d.Kept (s.reports.note found) j := by
    intro j d hj hd hdkept
    refine kept_reports hdkept (fun hdact => h.cause_other hclear hfnd hj hd hdact) ?_
    intro _ hw
    rw [hwts, hw]
  have hnew : (c.tell rep).Kept (s.reports.note found) k := by
    cases hact : c.active with
    | false =>
      rw [tell_of_inactive hact]
      refine kept_reports hkp ?_ ?_
      · rw [hact]
        nofun
      · rw [hact]
        nofun
    | true =>
      have htold : c.tell rep = { c with told := c.told ++ [rep] } := if_pos hact
      have hcau := h.cause_own hc hact hfnd
      have htm : (c.tell rep).termination = c.termination.or rep.termination := termination_tell hact
      have hhrd := hkp.heard hact
      rw [htold] at hcau htm ⊢
      refine ⟨hkp.domain, hkp.operates, hkp.awaited, hkp.refusal, fun _ => hcau, fun _ => ?_, attributed_of_active hact⟩
      refine ⟨fun hemp => ?_, fun cause hsent => ?_, hhrd.whole⟩
      · -- the call is registered, so that the report is no termination
        obtain ⟨hfst, hw⟩ := hhrd.registered hemp
        have hrep : rep.termination = none := hno.resolve_right (by rw [hw]; nofun)
        exact ⟨by rw [htm, hfst, hrep]; rfl, by rw [hwts]; exact hw⟩
      · rw [htm, hhrd.concluded cause hsent]
        rfl
  refine h.update hc (getElem?_modify_self hc) (fun j hj => getElem?_modify_of_ne hj)
    (fun hact => active_tell ▸ hact) key_tell ?_ hnew hoths
  intro key j hw
  rw [hwts] at hw
  refine ⟨hw, ?_⟩
  rintro rfl
  obtain ⟨d, hd, hdact, hchan, -⟩ := h.waiting key j hw
  rw [hc] at hd
  cases hd
  exact ⟨active_tell.trans hdact, channel_tell.trans hchan⟩

lemma Matched.concluded (hfnd : Explains found c rep) (htm : rep.termination = some cause)
    (hw : s.reports.waiters.lookup (c.target, c.num) = some k) : Matched { s with
      calls := fill (s.calls.modify k fun c => c.tell rep) (some (k, cause))
      reports := { s.reports.note found with waiters := s.reports.waiters.erase (c.target, c.num) } } := by
  have hkp := h.kept k c hc
  obtain ⟨d, hd, hact, hemp, -⟩ := h.waiting _ _ hw
  rw [hc] at hd
  cases hd
  have hfst : c.termination = none := ((hkp.heard hact).registered hemp).1
  have hnew : Kept { s.reports.note found with waiters := s.reports.waiters.erase (c.target, c.num) } k
      { c.tell rep with channel := .sent cause } := by
    have htold : c.tell rep = { c with told := c.told ++ [rep] } := if_pos hact
    have hcau := h.cause_own hc hact hfnd
    have hls : (c.tell rep).termination = c.termination.or rep.termination := termination_tell hact
    rw [htold] at hcau hls ⊢
    have hoper : c.service = .oper := hkp.operates (by rw [hemp]; nofun)
    refine ⟨hkp.domain, fun _ => hoper, nofun, hkp.refusal, fun _ => hcau, fun _ => ⟨nofun, ?_, nofun⟩,
      attributed_of_active hact⟩
    intro cause' hsent
    cases hsent
    exact hls.trans (by rw [hfst, htm]; rfl)
  refine h.update hc (getElem?_modify_self (getElem?_modify_self hc)) (fun j hj => ?_)
    (fun _ => hact) key_tell ?_ hnew ?_
  · exact (getElem?_modify_of_ne hj).trans (getElem?_modify_of_ne hj)
  · intro key j hw'
    obtain ⟨hne, hold⟩ := Table.lookup_erase_eq_some.mp hw'
    refine ⟨hold, ?_⟩
    rintro rfl
    obtain ⟨d, hd, -, -, hkey⟩ := h.waiting key j hold
    rw [hc] at hd
    cases hd
    exact absurd hkey.symm hne
  intro j d hj hd hdkept
  refine kept_reports hdkept (fun hdact => h.cause_other hclear hfnd hj hd hdact) ?_
  intro hdact hw'
  have hne : (d.target, d.num) ≠ (c.target, c.num) := h.key_ne hj hd hc hdact hact
  exact (lookup_erase_ne hne).trans hw'

lemma Matched.deliver {parts : ReportParts}
    (hs : c.service = .oper ∨ rep.termination = none) : (s.deliver r k c rep parts).Matched := by
  obtain ⟨found, hfnd, hhandle⟩ := handle_report s.reports (h.kept k c hc).domain hs
  rw [Controlling.deliver, hhandle]
  rcases htm : rep.termination with _ | cause
  · exact h.told hc hclear hfnd (.inl htm)
  have hwts : (s.reports.note found).waiters = s.reports.waiters := waiters_note
  rw [elim_some, complete, hwts]
  rcases hw : s.reports.waiters.lookup (c.target, c.num) with _ | j
  · exact h.told hc hclear hfnd (.inr hw)
  -- the call that waits under the key is the one that the report is of
  obtain ⟨d, hd, hact, -, hkey⟩ := h.waiting _ _ hw
  obtain ⟨ht, hn⟩ := Prod.mk.injEq .. ▸ hkey
  have hjk : j = k := by
    by_contra hj
    exact (hclear.other hd hj hact ht).1 hn
  subst hjk
  exact h.concluded hc hclear hfnd htm hw

end

end

end

lemma Matched.add (h : s.Matched) (hcls : s'.calls = s.calls ++ [c]) (hls : s'.reports.last = s.reports.last)
    (hfree : ∀ d ∈ s.calls, d.active → (d.target, d.num) ≠ (c.target, c.num))
    (hlk : ∀ key, key ≠ (c.target, c.num) → s'.reports.waiters.lookup key = s.reports.waiters.lookup key)
    (hown : ∀ j, s'.reports.waiters.lookup (c.target, c.num) = some j → j = s.calls.length ∧ c.channel = .empty)
    (hact : c.active) (hkp : c.Kept s'.reports s.calls.length) : s'.Matched := by
  have hfree' : ∀ j (d : ControlCall), s.calls[j]? = some d → d.active → (d.target, d.num) ≠ (c.target, c.num) :=
    fun _ d hd => hfree d (List.mem_of_getElem? hd)
  constructor
  · intro j d hd
    rw [hcls] at hd
    obtain hd | ⟨rfl, rfl⟩ := append_cases hd
    · have hdkept := h.kept j d hd
      refine kept_reports hdkept (fun hdact => ?_) fun hdact hw => ?_
      · exact (causeFor_congr hls).trans (hdkept.diagnosed hdact)
      · exact (hlk _ (hfree' j d hd hdact)).trans hw
    · exact hkp
  · intro i j d e hd he hdact heact ht hn
    rw [hcls] at hd he
    obtain hold | ⟨rfl, rfl⟩ := append_cases hd
    · obtain hold' | ⟨rfl, rfl⟩ := append_cases he
      · exact h.alone i j d e hold hold' hdact heact ht hn
      · exact absurd (Prod.ext ht hn) (hfree' i d hold hdact)
    obtain hold' | ⟨rfl, rfl⟩ := append_cases he
    · exact absurd (Prod.ext ht.symm hn.symm) (hfree' j e hold' heact)
    · rfl
  · intro key j hw
    by_cases hkey : key = (c.target, c.num)
    · subst hkey
      obtain ⟨rfl, hemp⟩ := hown j hw
      exact ⟨c, by rw [hcls, List.getElem?_concat_length], hact, hemp, rfl⟩
    rw [hlk key hkey] at hw
    obtain ⟨d, hd, hdact, hemp, hdkey⟩ := h.waiting key j hw
    exact ⟨d, hcls ▸ getElem?_append_of_some hd, hdact, hemp, hdkey⟩

/-- A call with a domain, whose variable and number no call in progress has and no diagnosis is left of. -/
@[mk_iff]
structure Free (s : Controlling) (hd : Handle) (service : ControlService) : Prop where
  domain : hd.domain ≠ ""
  calls : ∀ d ∈ s.calls, d.active = true → (d.target, d.num) ≠ (hd.target service, hd.nextNum)
  cause : s.reports.causeFor (hd.target service) hd.nextNum = unknownCause

variable {hd : Handle} {service : ControlService}

lemma Free.unregistered (hfree : s.Free hd service) (h : s.Matched) :
    s.reports.waiters.lookup (hd.target service, hd.nextNum) = none := by
  cases hw : s.reports.waiters.lookup (hd.target service, hd.nextNum) with
  | none => rfl
  | some j =>
    obtain ⟨d, hd', hact, -, hkey⟩ := h.waiting _ _ hw
    exact absurd hkey (hfree.calls d (List.mem_of_getElem? hd') hact)

lemma Matched.begin {enhanced : Bool} {i : ℕ} (h : s.Matched)
    (hfree : s.Free hd service) : (s.begin i hd service enhanced).Matched := by
  have hno := hfree.unregistered h
  unfold Controlling.begin
  rcases hwt : (service == .oper && enhanced) with _ | _
  · refine h.add rfl rfl hfree.calls (fun _ _ => rfl) (fun j hw => ?_) rfl ?_
    · exact absurd (hno.symm.trans hw) nofun
    · exact ⟨hfree.domain, fun hop => absurd rfl hop, nofun, nofun, fun _ => hfree.cause,
        fun _ => ⟨nofun, nofun, nofun⟩, attributed_of_active rfl⟩
  -- nothing is registered under the key, so that no sender is dropped
  have hregister : s.awaitTermination (hd.target service, hd.nextNum) =
      { s with reports :=
        { s.reports with waiters := s.reports.waiters.insert (hd.target service, hd.nextNum) s.calls.length } } := by
    rw [Controlling.awaitTermination, Controlling.dropSender, hno]
  have htgt (channel : TermChannel) : ControlCall.target
      { handle := i, service := service, domain := hd.domain, object := hd.object, num := hd.nextNum
        channel := channel } = hd.target service := rfl
  simp only [if_true, htgt, hregister]
  refine h.add rfl rfl hfree.calls (fun _ hkey => lookup_insert_ne hkey) (fun j hw => ?_) rfl ?_
  · have hself := (lookup_insert s.reports.waiters).symm.trans hw
    exact ⟨(some.inj hself).symm, rfl⟩
  have hoper : service = .oper := eq_of_beq (Bool.and_eq_true_iff.mp hwt).1
  refine ⟨hfree.domain, fun _ => hoper, nofun, nofun, fun _ => hfree.cause,
    fun _ => ⟨fun _ => ⟨rfl, ?_⟩, nofun, nofun⟩, attributed_of_active rfl⟩
  exact lookup_insert s.reports.waiters

/-- A call starts under a key that no other holds, a report speaks of no other active call, and a write fails before
any diagnosis. -/
def Apart (s : Controlling) : ClientStep → Prop
  | .call h service _ => ∀ hd ∈ s.handles[h]?, s.Free hd service
  | .report k rep _ => ∀ c ∈ s.calls[k]?, s.Clear k c rep
  | .answer k .failed => ∀ c ∈ s.calls[k]?, c.diagnosis = none
  | _ => True

lemma atStage_eq_some (h : s.atStage k stage = some c) : s.calls[k]? = some c ∧ c.stage = stage := by
  obtain ⟨hc, hst⟩ := filter_eq_some_iff.mp h
  exact ⟨hc, of_decide_eq_true hst⟩

lemma active_of_stage (h : c.stage = .sent ∨ c.stage = .refused ∨ c.stage = .awaiting) : c.active := by
  obtain h | h | h := h
  · rw [active, h]
  · rw [active, h]
  · rw [active, h]

lemma attributed_ok (h : c.channel ≠ .closed → c.termination = some AddCause.none) :
    ControlCall.Attributed { c with stage := .returned (.ok ()) } :=
  ⟨fun _ => h, nofun, nofun, nofun⟩

lemma attributed_error (h : c.service ≠ .sbo → cause = c.diagnosis.getD unknownCause)
    (hsbo : c.service = .sbo → cause = selectFailed ∨ cause = unknownCause) :
    ControlCall.Attributed { c with stage := .returned (.error ⟨c.service.stage, cause⟩) } := by
  refine ⟨nofun, ?_, ?_, ?_⟩
  · intro cause' hst
    injection hst with hst
    injection hst with hst
    injection hst with hst
    cases hsvc : c.service with
    | sbo | sbow | oper | cancel => rw [hsvc] at hst; cases hst
  · intro e hst _ hsvc
    cases hst
    exact h hsvc
  · intro e hst hsvc
    cases hst
    exact hsbo hsvc

lemma attributed_terminated (hoper : c.service = .oper) (h : cause = c.termination.getD unknownCause)
    (hno : cause = AddCause.none → c.termination = some AddCause.none) :
    ControlCall.Attributed { c with stage := terminated cause } := by
  unfold terminated
  split
  case isTrue hcau => exact attributed_ok fun _ => hno hcau
  case isFalse =>
    refine ⟨nofun, ?_, ?_, ?_⟩
    · intro cause' hst
      cases hst
      exact h
    · intro e hst hne
      cases hst
      exact absurd rfl hne
    · intro e _ hsbo
      exact absurd (hoper.symm.trans hsbo) nofun

lemma active_terminated : active { c with stage := terminated cause } = false := by
  unfold terminated
  split
  · rfl
  · rfl

lemma Matched.answered {a : ControlAnswer} (h : s.Matched) (hc : s.calls[k]? = some c) (hst : c.stage = .sent)
    (hfailed : a = .failed → c.diagnosis = none) : (s.answered k c a).Matched := by
  have hact : c.active := active_of_stage (.inl hst)
  have hend : (s.endSequence c.handle).Matched := h.handles _
  have hcl : c.service ≠ .oper → c.channel = .closed :=
    fun hsvc => by_contra fun hop => hsvc ((h.kept k c hc).operates hop)
  unfold Controlling.answered
  split
  case h_1 hsvc | h_2 hsvc =>
    refine h.finish hc hact rfl (attributed_ok fun hop => ?_)
    exact absurd (hcl (by rw [hsvc]; nofun)) hop
  case h_3 hsvc =>
    have hsel : c.service.stage = .select := by rw [hsvc]; rfl
    refine hend.finish hc hact rfl ?_
    rw [← hsel]
    exact attributed_error (fun hne => absurd hsvc hne) fun _ => .inl rfl
  case h_4 =>
    refine hend.finish hc hact rfl (attributed_error (fun _ => ?_) fun _ => .inr rfl)
    rw [hfailed rfl]
    rfl
  case h_5 hne => exact hend.goOn hc hact (.inl ⟨rfl, hne⟩)
  case h_6 =>
    split
    case isTrue hchan => exact hend.finish hc hact rfl (attributed_ok fun hop => absurd hchan hop)
    case isFalse hchan => exact hend.goOn hc hact (.inr ⟨rfl, hchan⟩)

lemma Matched.terminated (h : s.Matched) (hc : s.calls[k]? = some c) (hst : c.stage = .awaiting)
    (hcau : cause = c.termination.getD unknownCause)
    (hno : cause = AddCause.none → c.termination = some AddCause.none) :
    (s.finish k c (terminated cause)).Matched := by
  have hkp := h.kept k c hc
  have hoper : c.service = .oper := hkp.operates (hkp.awaited hst)
  exact h.finish hc (active_of_stage (.inr (.inr hst))) active_terminated (attributed_terminated hoper hcau hno)

lemma Matched.step {x : ClientStep} (h : s.Matched) (hx : s.Apart x) : (s.step r x).Matched := by
  cases x with
  | control domain object => exact h.handles _
  | call i service enhanced =>
    simp only [Controlling.step]
    split
    case h_1 hd hhd => exact h.begin (hx hd hhd)
    case h_2 => exact h
  | report k rep parts =>
    simp only [Controlling.step]
    split
    case h_1 c hc =>
      split
      case isTrue hs => exact h.deliver hc (hx c hc) hs
      case isFalse => exact h
    case h_2 => exact h
  | answer k a =>
    simp only [Controlling.step]
    split
    case h_1 c hat =>
      obtain ⟨hc, hst⟩ := atStage_eq_some hat
      refine h.answered hc hst ?_
      rintro rfl
      exact hx c hc
    case h_2 => exact h
  | diagnose k =>
    simp only [Controlling.step]
    split
    case h_1 c hat =>
      obtain ⟨hc, hst⟩ := atStage_eq_some hat
      have hact : c.active := active_of_stage (.inr (.inl hst))
      have hkp := h.kept k c hc
      refine h.finish hc hact rfl (attributed_error (fun _ => hkp.diagnosed hact) fun hsbo => ?_)
      exact absurd hsbo (hkp.refusal hst)
    case h_2 => exact h
  | receive k =>
    simp only [Controlling.step]
    split
    case h_1 c hat =>
      obtain ⟨hc, hst⟩ := atStage_eq_some hat
      have hhrd := (h.kept k c hc).heard (active_of_stage (.inr (.inr hst)))
      split
      case h_1 cause hsent =>
        have htm : c.termination = some cause := hhrd.concluded cause hsent
        exact h.terminated hc hst (by rw [htm]; rfl) fun hno => hno ▸ htm
      case h_2 hdropped => exact absurd hdropped hhrd.whole
      case h_3 => exact h
    case h_2 => exact h
  | timeout k =>
    simp only [Controlling.step]
    split
    case h_1 c hat =>
      obtain ⟨hc, hst⟩ := atStage_eq_some hat
      have hhrd := (h.kept k c hc).heard (active_of_stage (.inr (.inr hst)))
      split
      case isTrue hemp =>
        have htm : c.termination = none := (hhrd.registered hemp).1
        exact h.terminated hc hst (by rw [htm]; rfl) nofun
      case isFalse => exact h
    case h_2 => exact h
  | abandon k =>
    simp only [Controlling.step]
    split
    case h_1 c hc =>
      split
      case isTrue hact => exact h.finish hc hact rfl ⟨nofun, nofun, nofun, nofun⟩
      case isFalse => exact h
    case h_2 => exact h

lemma matched_start : Matched {} := by
  constructor
  · intro k c hc
    simp at hc
  · intro j k c d hc
    simp at hc
  · intro key k hw
    simp at hw

instance (hd : Handle) (service : ControlService) : Decidable (s.Free hd service) :=
  decidable_of_iff' _ (free_iff s hd service)

instance (s : Controlling) (x : ClientStep) : Decidable (s.Apart x) := by
  unfold Apart
  split <;> infer_instance

/-- In a run that keeps calls apart every call returns what the server reported of it. -/
theorem outcomes_attributed (r : Render) (steps : List ClientStep)
    (h : Runs.Admitted (Controlling.step r) Apart {} steps) : ∀ c ∈ (run r {} steps).calls, c.Attributed := by
  have hmatched : (run r {} steps).Matched :=
    Runs.induction_admitted Matched (fun _ _ hs hx => hs.step hx) matched_start h
  intro c hc
  obtain ⟨k, hk⟩ := List.mem_iff_getElem?.mp hc
  exact (hmatched.kept k c hk).attributed

def plainRender : Render := ⟨fun _ => "", fun _ => "", id⟩

def plainParts : ReportParts := { error := .int8 0, origin := .struct [], ctlVal := .boolean true, rest := [] }

def threeOperates : List ClientStep :=
  [.control "LD0" "GGIO1$CO$SPCSO1", .control "LD0" "GGIO1$CO$SPCSO1", .control "LD0" "GGIO1$CO$SPCSO2",
    .call 0 .oper true, .call 2 .oper true, .answer 0 .accepted, .report 1 (.failed ⟨13⟩) plainParts,
    .answer 1 .accepted, .report 0 .completed plainParts, .receive 0, .receive 1,
    .call 1 .oper true, .report 2 (.refusal ⟨10⟩) plainParts, .answer 2 .refused, .diagnose 2]

theorem outcomes_attributed_three : (∀ c ∈ (run plainRender {} threeOperates).calls, c.Attributed) ∧
      (run plainRender {} threeOperates).calls.map ControlCall.stage =
        [.returned (.ok ()), .returned (.error ⟨.termination, ⟨13⟩⟩), .returned (.error ⟨.operate, ⟨10⟩⟩)] :=
  ⟨outcomes_attributed plainRender threeOperates (by decide +kernel), by decide +kernel⟩

def oneNumber : List ClientStep :=
  [.control "LD0" "GGIO1$CO$SPCSO1", .control "LD0" "GGIO1$CO$SPCSO1", .call 0 .oper false, .call 1 .oper false,
    .report 1 (.refusal ⟨10⟩) plainParts, .answer 0 .refused, .diagnose 0]

def misled : ControlCall :=
  { handle := 0, service := .oper, domain := "LD0", object := "GGIO1$CO$SPCSO1", num := 1
    stage := .returned (.error ⟨.operate, ⟨10⟩⟩) }

/-- The first operate fails with the cause of the second: both have the number 1. -/
theorem cause_misattributed : (run plainRender {} oneNumber).calls[0]? = some misled ∧ misled.told = [] ∧
      ¬ ∀ c ∈ (run plainRender {} oneNumber).calls, c.Attributed := by
  have hfst : (run plainRender {} oneNumber).calls[0]? = some misled := by decide +kernel
  refine ⟨hfst, rfl, ?_⟩
  intro h
  have hcau := (h misled (List.mem_of_getElem? hfst)).refused _ rfl nofun nofun
  exact absurd hcau (by decide)

end Controlling
end Iec61850.Client
