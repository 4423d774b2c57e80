import Iec61850.ModelViews
import Iec61850.MmsDecode

/-! Report control blocks, and the functions of the report engine for one block. -/
namespace Iec61850.Server
open Mms

/-- Where a captured value comes from: the data set it was captured under, and how often the block had been
purged before. Kept for reasoning. -/
structure Origin where
  datSet : String
  purges : ℕ

/-- One report's content: the included members in ascending order, with a value and a reason each. -/
structure ReportEntry where
  id : List UInt8 := []
  time : SystemTime := ⟨0, 0⟩
  members : List ℕ := []
  values : List Value := []
  reasons : List ReasonCode := []
  origins : List Origin := []

namespace ReportEntry

def partitionPoint (e : ReportEntry) (idx : ℕ) : ℕ := (e.members.takeWhile (· < idx)).length

def insert (e : ReportEntry) (idx : ℕ) (v : Value) (r : ReasonCode) : ReportEntry :=
  let at_ := e.partitionPoint idx
  { e with
    members := e.members.insertIdx at_ idx
    values := e.values.insertIdx at_ v
    reasons := e.reasons.insertIdx at_ r }

def merge (e other : ReportEntry) : ReportEntry :=
  let merged := ((other.members.zip other.values).zip other.reasons).foldl (fun e m => e.insert m.1.1 m.1.2 m.2) e
  { merged with origins := e.origins ++ other.origins }

def overlaps (e other : ReportEntry) : Bool := other.members.any fun m => e.members.contains m

end ReportEntry

structure RcbRuntime where
  enabled : Bool := false
  conn : Option ConnId := none
  owner : Option ConnId := none
  ownerIp : Option IpAddr := none
  resvIp : Option IpAddr := none
  resvCfg : Bool := false
  resvGen : ℕ := 0
  sqNum : ℕ := 0
  integrityGen : ℕ := 0
  pending : Option ReportEntry := none
  pendingGen : ℕ := 0
  buffer : List ReportEntry := []
  next : ℕ := 0
  resyncId : Option (List UInt8) := none
  bufOverflow : Bool := false

namespace RcbRuntime

def bufferIndex (st : RcbRuntime) (id : List UInt8) : Option ℕ :=
  st.buffer.findIdx? fun e => e.id == id

def purge (st : RcbRuntime) : RcbRuntime :=
  { st with buffer := [], next := 0, bufOverflow := false, resyncId := none }

def stopResvTimer (st : RcbRuntime) : RcbRuntime := { st with resvGen := st.resvGen + 1 }

def stopIntegrity (st : RcbRuntime) : RcbRuntime := { st with integrityGen := st.integrityGen + 1 }

def allowed (st : RcbRuntime) (conn : ConnId) (ip : Option IpAddr) : Bool :=
  match st.owner, st.resvIp with
  | some o, _ => o == conn
  | none, some r => ip == some r
  | none, none => true

end RcbRuntime

structure RcbState where
  domain : String
  item : String
  lnName : String
  objectName : String
  buffered : Bool
  maxBuffer : ℕ
deriving DecidableEq

def rcbStateKey (domain item : String) : String := domain ++ "\x00" ++ item

def RcbState.key (rs : RcbState) : String := rcbStateKey rs.domain rs.item

def defaultBufferedReports : ℕ := 256

def bufferDepth (rc : ReportControl) (serverDefault : ℕ) : ℕ :=
  if 0 < rc.maxQueueSize then rc.maxQueueSize
  else if 0 < serverDefault then serverDefault
  else defaultBufferedReports

def rcbInstanceNames (rc : ReportControl) : List String :=
  if rc.notIndexed then [rc.name]
  else (List.range (max rc.rptEnabled 1)).map fun i => rc.name ++ Text.padded 2 (i + 1)

def ipOctets : Option IpAddr → List UInt8
  | none => []
  | some (.v4 a b c d) => [a, b, c, d]
  | some (.v6 addr) =>
    if addr.octets.take 12 = [0, 0, 0, 0, 0, 0, 0, 0, 0, 0, 0xff, 0xff] then addr.octets.drop 12
    else addr.octets

def binaryTimeEpoch : SystemTime := TimeUtil.fromUnix (TimeUtil.binaryTimeEpochDays * 86400) 0

def makeEntryId (n : ℕ) : List UInt8 := Asn1.beOctets n 8

def rptIdOf (attr domain item : String) : String :=
  if attr = "" then domain ++ "/" ++ item else attr

def rcbKey (domain item : String) : Option (String × String) :=
  match Text.split '$' item with
  | ln :: fc :: name :: rest =>
    if fc = "RP" ∨ fc = "BR" then
      some (rcbStateKey domain (ln ++ "$" ++ fc ++ "$" ++ name), rest.headD "")
    else none
  | _ => none

def buildRcbObject (ldName lnName : String) (rc : ReportControl) (fc : Fc) (instName : String) :
    DataObject :=
  let dsRef := if rc.dataSet = "" then "" else ldName ++ "/" ++ lnName ++ "$" ++ rc.dataSet
  let optFlds := if rc.optFlds = 0 then OptFlds.default else rc.optFlds
  let trgOps :=
    if rc.trgOps = 0 then TrgOps.dataChange ||| TrgOps.qualityChange ||| TrgOps.gi else rc.trgOps
  let attr (name : String) (v : Value) : DataAttribute :=
    { name := name, fc := fc, kind := some v.typeOf, value := some v }
  let attributes :=
    if rc.buffered then
      -- A buffered report always carries its identifier and time.
      let optFlds := optFlds ||| OptFlds.entryId ||| OptFlds.timeOfEntry ||| OptFlds.bufOvfl
      [ attr "RptID" (.visibleText rc.rptId),
        attr "RptEna" (.boolean false),
        attr "DatSet" (.visibleText dsRef),
        attr "ConfRev" (.uint32 rc.confRev),
        attr "OptFlds" optFlds.value,
        attr "BufTm" (.uint32 rc.bufTime),
        attr "SqNum" (.uint16 0),
        attr "TrgOps" trgOps.value,
        attr "IntgPd" (.uint32 rc.intgPd),
        attr "GI" (.boolean false),
        attr "PurgeBuf" (.boolean false),
        attr "Owner" (.octetString []),
        attr "EntryID" (.octetString (List.replicate 8 0)),
        attr "TimeofEntry" (.binaryTimeOf binaryTimeEpoch),
        attr "ResvTms" (.int16 0) ]
    else
      [ attr "RptID" (.visibleText rc.rptId),
        attr "RptEna" (.boolean false),
        attr "Resv" (.boolean false),
        attr "DatSet" (.visibleText dsRef),
        attr "ConfRev" (.uint32 rc.confRev),
        attr "OptFlds" optFlds.value,
        attr "BufTm" (.uint32 rc.bufTime),
        attr "SqNum" (.uint8 0),
        attr "TrgOps" trgOps.value,
        attr "IntgPd" (.uint32 rc.intgPd),
        attr "GI" (.boolean false) ]
  { name := instName, attributes := attributes }

def reserveAttributes (ip : IpAddr) (o : DataObject) : DataObject :=
  let reserve (a : DataAttribute) : DataAttribute :=
    if a.name = "ResvTms" then { a with value := some (.int16 (-1)) }
    else if a.name = "Owner" then { a with value := some (.octetString (ipOctets (some ip))) }
    else if a.name = "Resv" then { a with value := some (.boolean true) }
    else a
  { o with attributes := o.attributes.map reserve }

/-- One instance of a block: its data object, its identity and its first runtime state. -/
def materialiseRcb (ldName lnName : String) (bufDefault : ℕ) (rc : ReportControl) (i : ℕ)
    (instName : String) : DataObject × RcbState × RcbRuntime :=
  let fc : Fc := if rc.buffered then .br else .rp
  let object := buildRcbObject ldName lnName rc fc instName
  let rs : RcbState :=
    { domain := ldName
      item := lnName ++ "$" ++ fc.asStr ++ "$" ++ instName
      lnName := lnName
      objectName := instName
      buffered := rc.buffered
      maxBuffer := bufferDepth rc bufDefault }
  match (rc.reservations.getD i none).bind ClientReservation.ip with
  | some ip => (reserveAttributes ip object, rs, { resvIp := some ip, resvCfg := true })
  | none => (object, rs, {})

def materialiseNode (ldName : String) (bufDefault : ℕ) (ln : LogicalNode) :
    List (DataObject × RcbState × RcbRuntime) :=
  ln.reportControls.flatMap fun rc =>
    (rcbInstanceNames rc).mapIdx fun i name => materialiseRcb ldName ln.name bufDefault rc i name

def materialiseModel (m : Model) (bufDefault : ℕ) : Model :=
  let node (ld : LogicalDevice) (ln : LogicalNode) : LogicalNode :=
    { ln with objects := ln.objects ++ (materialiseNode ld.name bufDefault ln).map Prod.fst }
  { m with devices := m.devices.map fun ld => { ld with nodes := ld.nodes.map (node ld) } }

def materialiseRegistry (m : Model) (bufDefault : ℕ) : Table String (RcbState × RcbRuntime) :=
  let all := m.devices.flatMap fun ld => ld.nodes.flatMap (materialiseNode ld.name bufDefault)
  all.foldl (fun t b => t.insert b.2.1.key b.2) ∅

open Asn1 OptFlds

structure DsMember where
  domain : String
  item : String

def supportedOptFlds : OptFlds :=
  seqNum ||| timeOfEntry ||| reasonCode ||| dataSetName ||| dataRef ||| bufOvfl ||| entryId ||| confRev

def rcbSettings : List String :=
  ["RptID", "DatSet", "OptFlds", "BufTm", "TrgOps", "IntgPd", "PurgeBuf", "EntryID", "ResvTms"]

def rcbReadOnly : List String := ["ConfRev", "SqNum", "TimeofEntry", "Owner"]

def changeTriggers : TrgOps := TrgOps.dataChange ||| TrgOps.qualityChange ||| TrgOps.dataUpdate

def effectiveOptFlds (opt : OptFlds) (buffered : Bool) : OptFlds :=
  let opt := opt &&& supportedOptFlds
  if buffered then opt else opt &&& ~~~(bufOvfl ||| entryId)

def memberReason (changes : ChangeSet) (member : DsMember) : TrgOps :=
  let (reference, fc) := ObjectReference.fromMms member.domain member.item
  changes.entries.foldl (fun r change =>
    let (changed, cfc) := change.1
    if cfc = fc ∧ (changed = reference ∨
        Text.startsWith changed.text (reference.text ++ ".") = true ∨
        Text.startsWith reference.text (changed.text ++ ".") = true)
    then r ||| change.2 else r) 0

def isZeroEntryId (id : List UInt8) : Bool := id.length == 8 && id.all (· == 0)

def attrValue (m : Model) (rs : RcbState) (name : String) : Option Value :=
  ((m.object rs.domain rs.lnName rs.objectName).bind fun o => o.attr name).bind DataAttribute.value

def attrText (render : Render) (m : Model) (rs : RcbState) (name : String) : String :=
  ((attrValue m rs name).map (Value.text render)).getD ""

def setObjectAttr (name : String) (v : Value) (o : DataObject) : DataObject :=
  let attributes := FirstMatch.update (fun a => a.name == name) (fun a => { a with value := some v }) o.attributes
  { o with attributes := attributes }

def setAttr (m : Model) (rs : RcbState) (name : String) (v : Value) : Model :=
  m.objectMut rs.domain rs.lnName rs.objectName (setObjectAttr name v)

def trgOpsOf (m : Model) (rs : RcbState) : TrgOps :=
  ((attrValue m rs "TrgOps").map TrgOps.fromValue).getD 0

def bufTmOf (m : Model) (rs : RcbState) : UInt64 := ((attrValue m rs "BufTm").map Value.asU64).getD 0

def datasetMembers (m : Model) (domain list : String) : List DsMember :=
  match Text.splitOnce '$' list with
  | none => []
  | some (ln, ds) =>
    match (m.node domain ln).bind fun n => n.dataSet ds with
    | none => []
    | some ds => ds.entries.map fun e => let (d, i) := e.reference.toMms e.fc; ⟨d, i⟩

def resolveDataSet (m : Model) (reference : String) : Option (List DsMember) :=
  (Text.splitOnce '/' reference).bind fun (domain, list) =>
    (Text.splitOnce '$' list).bind fun (ln, ds) =>
      ((m.node domain ln).bind fun n => n.dataSet ds).map fun _ => datasetMembers m domain list

def itemValue (m : Model) (domain item : String) : Option Value :=
  (m.node domain ((Text.split '$' item).headD "")).bind fun ln => Access.resolveRead ln item

/-- A report as it is handed to the association: an entry with what is added at transmission. -/
structure Report where
  entry : ReportEntry
  opt : OptFlds
  seq : ℕ
  bufOvfl : Bool
  datSet : String
  members : List DsMember

/-- The report carries a `BufOvfl` that is true. -/
def Report.tells (r : Report) : Bool := OptFlds.has r.opt OptFlds.bufOvfl && r.bufOvfl

/-- What a block does, in order. Kept for reasoning. -/
inductive Event where
  /-- A change of members is taken into the block. -/
  | captured (e : ReportEntry)
  /-- A report is committed, numbered when the block is buffered. -/
  | committed (e : ReportEntry)
  /-- The oldest entry leaves the full buffer before it was sent. -/
  | overflowed (e : ReportEntry)
  /-- A report is handed to the subscriber's association, which takes all of it or not. -/
  | sent (r : Report) (accepted : Bool)
  /-- The buffer is emptied of entries not yet sent. -/
  | purged (unsent : List ReportEntry)
  | enabled (conn : ConnId)
  | resync (id : List UInt8)

/-- A timer task: the block it belongs to and the generation it was started with. -/
inductive Task where
  | integrity (key : String) (generation : ℕ)
  | window (key : String) (generation : ℕ)
  | reservation (key : String) (generation : ℕ)
deriving DecidableEq

/-- What the engine is given: the rendering of values, the start time that seeds the entry identifiers, the time
of the call and whether its thread is on the runtime. -/
structure Ctx where
  render : Render
  entrySeed : UInt32
  now : SystemTime
  onRuntime : Bool

structure Engine where
  model : Model
  conns : Table ConnId ServerConn
  entryCounter : ℕ
  runtime : Bool
  tasks : List Task

/-- One block at work: the shared part and its own runtime state. -/
structure Work extends Engine where
  st : RcbRuntime
  trace : List Event

open Asn1 OptFlds

structure ReportFields where
  rptId : String
  datSet : String
  confRev : UInt32
  opt : OptFlds
  seq : ℕ
  bufOvfl : Bool
  buffered : Bool

/-- The report of the members `[lo, hi)` of an entry, as a segment if `segment` gives its number and whether
more follow. -/
def reportElement (f : ReportFields) (e : ReportEntry) (members : List DsMember) (lo hi : ℕ)
    (segment : Option (UInt16 × Bool)) : Element :=
  let opt := if segment.isSome then f.opt ||| segmentation else f.opt
  let included := (e.members.drop lo).take (hi - lo)
  let when_ (flag : OptFlds) (vs : List Value) : List Value := if has opt flag then vs else []
  let inclusion := included.foldl (fun v idx => v.setBit idx true) (Value.bitString (BitString.new members.length))
  let references := included.filterMap fun idx =>
    (members[idx]?).map fun m => Value.visibleText (m.domain ++ "/" ++ m.item)
  let fields : List Value :=
    [Value.visibleText f.rptId, value opt] ++
    when_ seqNum [if f.buffered then .uint16 (UInt16.ofNat f.seq) else .uint8 (UInt8.ofNat f.seq)] ++
    when_ timeOfEntry [.binaryTimeOf e.time] ++
    when_ dataSetName [.visibleText f.datSet] ++
    when_ bufOvfl [.boolean f.bufOvfl] ++
    when_ entryId [.octetString e.id] ++
    when_ confRev [.uint32 f.confRev] ++
    (match segment with
    | some (subSeq, more) => [.uint16 subSeq, .boolean more]
    | none => []) ++
    [inclusion] ++
    when_ dataRef references ++
    (e.values.drop lo).take (hi - lo) ++
    when_ reasonCode (((e.reasons.drop lo).take (hi - lo)).map ReasonCode.value)
  cons (contextConstructed 0)
    [cons (contextConstructed 1) [prim (contextPrimitive 0) (Text.octets "RPT")],
     cons (contextConstructed 0) (dataElements fields)]

def segmentEnd (fits : ℕ → Bool) (n : ℕ) : ℕ → ℕ → ℕ
  | 0, hi => hi
  | fuel + 1, hi => if hi < n && fits (hi + 1) then segmentEnd fits n fuel (hi + 1) else hi

def segments (build : ℕ → ℕ → Option (UInt16 × Bool) → Element) (fits : Element → Bool) (n : ℕ) :
    ℕ → ℕ → UInt16 → List Element
  | 0, _, _ => []
  | fuel + 1, lo, subSeq =>
    if lo < n then
      let hi := segmentEnd (fun hi => fits (build lo hi (some (subSeq, true)))) n n (lo + 1)
      build lo hi (some (subSeq, decide (hi < n))) :: segments build fits n fuel hi (subSeq + 1)
    else []

def optFldsOf (m : Model) (rs : RcbState) : OptFlds :=
  effectiveOptFlds (((attrValue m rs "OptFlds").map fromValue).getD 0) rs.buffered

/-- The reports for an entry: one when it fits in `maxPdu` octets, else its segments. -/
def reportPdus (c : Ctx) (m : Model) (rs : RcbState) (r : Report) (maxPdu : ℕ) : List Element :=
  let fixed : ReportFields :=
    { rptId := rptIdOf (attrText c.render m rs "RptID") rs.domain rs.item
      datSet := r.datSet
      confRev := ((attrValue m rs "ConfRev").map Value.asU32).getD 0
      opt := r.opt
      seq := r.seq
      bufOvfl := r.bufOvfl
      buffered := rs.buffered }
  let build (lo hi : ℕ) (segment : Option (UInt16 × Bool)) : Element :=
    reportElement fixed r.entry r.members lo hi segment
  -- The unconfirmed PDU adds its own tag and length to the report.
  let fits (el : Element) : Bool := maxPdu == 0 || decide (el.size + 4 ≤ maxPdu)
  let n := r.entry.members.length
  let whole := build 0 n none
  if fits whole then [whole] else segments build fits n n 0 0

def sqNumWidth (rs : RcbState) : ℕ := if rs.buffered then 16 else 8

def sqNumValue (rs : RcbState) (n : ℕ) : Value :=
  if rs.buffered then .uint16 (UInt16.ofNat n) else .uint8 (UInt8.ofNat n)

def setSqNum (rs : RcbState) (n : ℕ) (w : Work) : Work :=
  let n := n % 2 ^ sqNumWidth rs
  { w with
    st := { w.st with sqNum := n }
    model := setAttr w.model rs "SqNum" (sqNumValue rs n) }

def reportOf (c : Ctx) (m : Model) (rs : RcbState) (seq : ℕ) (bufOvfl : Bool) (e : ReportEntry) :
    Report :=
  let datSet := attrText c.render m rs "DatSet"
  { entry := e
    opt := optFldsOf m rs
    seq := seq
    bufOvfl := bufOvfl
    datSet := datSet
    members := (resolveDataSet m datSet).getD [] }

/-- Hands a report to an association, with the next sequence number. A refusal of the queue is an
overflow that a buffered block remembers. -/
def transmitTo (c : Ctx) (rs : RcbState) (e : ReportEntry) (conn : ConnId) (sc : ServerConn) (w : Work) : Work :=
  let seq := w.st.sqNum
  let w := setSqNum rs (seq + 1) w
  let report := reportOf c w.model rs seq w.st.bufOverflow e
  let sent := sc.sendAll (reportPdus c w.model rs report sc.maxPdu)
  { w with
    conns := w.conns.insert conn sent.1
    st := { w.st with bufOverflow := !sent.2 && rs.buffered }
    trace := w.trace ++ [.sent report sent.2] }

def transmit (c : Ctx) (rs : RcbState) (e : ReportEntry) (w : Work) : Work :=
  match w.st.conn with
  | none => w
  | some conn =>
    match w.conns.lookup conn with
    | none => w
    | some sc => transmitTo c rs e conn sc w

def advance (w : Work) : Work := { w with st := { w.st with next := w.st.next + 1 } }

def transmitFrom (c : Ctx) (rs : RcbState) : ℕ → Work → Work
  | 0, w => w
  | fuel + 1, w =>
    match w.st.buffer[w.st.next]? with
    | none => w
    | some e => transmitFrom c rs fuel (advance (transmit c rs e w))

def transmitBuffered (c : Ctx) (rs : RcbState) (w : Work) : Work :=
  transmitFrom c rs (w.st.buffer.length - w.st.next) w

def note (ev : Event) (w : Work) : Work := { w with trace := w.trace ++ [ev] }

def purgeCount (trace : List Event) : ℕ :=
  trace.countP fun
    | .purged _ => true
    | _ => false

def nextEntryId (c : Ctx) (w : Work) : List UInt8 × Work :=
  let n := w.entryCounter + 1
  (makeEntryId (c.entrySeed.toNat * 2 ^ 32 + n % 2 ^ 32), { w with entryCounter := n })

def discardOne (w : Work) : Work :=
  match w.st.buffer with
  | [] => w
  | oldest :: buffer =>
    if 0 < w.st.next then { w with st := { w.st with buffer := buffer, next := w.st.next - 1 } }
    else note (.overflowed oldest) { w with st := { w.st with buffer := buffer, bufOverflow := true } }

def discardOldest (rs : RcbState) : ℕ → Work → Work
  | 0, w => w
  | fuel + 1, w =>
    if rs.maxBuffer < w.st.buffer.length then discardOldest rs fuel (discardOne w) else w

def keep (c : Ctx) (rs : RcbState) (e : ReportEntry) (w : Work) : Work :=
  let (id, w) := nextEntryId c w
  let e := { e with id := id }
  let model := setAttr w.model rs "EntryID" (.octetString id)
  let model := setAttr model rs "TimeofEntry" (.binaryTimeOf e.time)
  note (.committed e) { w with model := model, st := { w.st with buffer := w.st.buffer ++ [e] } }

/-- Commits a report: a buffered block numbers and keeps it, and any block sends it if enabled. -/
def emit (c : Ctx) (rs : RcbState) (e : ReportEntry) (w : Work) : Work :=
  let e := { e with time := c.now }
  if !rs.buffered then
    let w := note (.committed e) w
    if w.st.enabled then transmit c rs e w else w
  else
    let w := keep c rs e w
    let w := discardOldest rs w.st.buffer.length w
    if w.st.enabled then transmitBuffered c rs w else w

def closeWindow (w : Work) : Work :=
  { w with st := { w.st with pending := none, pendingGen := w.st.pendingGen + 1 } }

def flushPending (c : Ctx) (rs : RcbState) (w : Work) : Work :=
  match w.st.pending with
  | none => w
  | some p => if p.members.isEmpty then closeWindow w else emit c rs p (closeWindow w)

def spawn (c : Ctx) (task : Task) (w : Work) : Option Work :=
  if c.onRuntime || w.runtime then some { w with runtime := true, tasks := w.tasks ++ [task] }
  else none

def withPending (p : ReportEntry) (w : Work) : Work := { w with st := { w.st with pending := some p } }

def hold (c : Ctx) (rs : RcbState) (e : ReportEntry) (w : Work) : Work :=
  match w.st.pending with
  | some p => withPending (p.merge e) w
  | none =>
    match spawn c (.window rs.key w.st.pendingGen) w with
    -- No runtime to close the window on: report at once.
    | none => emit c rs e w
    | some w => withPending (({} : ReportEntry).merge e) w

def event (c : Ctx) (rs : RcbState) (e : ReportEntry) (w : Work) : Work :=
  if bufTmOf w.model rs = 0 then emit c rs e w
  -- A member that changes again closes the window first, so that its earlier value is reported.
  else if (w.st.pending.map fun p => p.overlaps e).getD false then
    hold c rs e (flushPending c rs w)
  else hold c rs e w

/-- The entry of the members for which `reason` gives a reason and that have a value. -/
def collect (m : Model) (members : List DsMember) (reason : DsMember → Option ReasonCode)
    (origin : Origin) : ReportEntry :=
  let found := members.mapIdx fun i d =>
    (reason d).bind fun r => (itemValue m d.domain d.item).map fun v => (i, v, r)
  let kept := found.filterMap id
  { members := kept.map fun k => k.1
    values := kept.map fun k => k.2.1
    reasons := kept.map fun k => k.2.2
    origins := [origin] }

def originOf (c : Ctx) (rs : RcbState) (w : Work) : Origin :=
  { datSet := attrText c.render w.model rs "DatSet", purges := purgeCount w.trace }

def wantedReason (changes : ChangeSet) (want : TrgOps) (d : DsMember) : Option ReasonCode :=
  let r := memberReason changes d &&& (want &&& changeTriggers)
  if r = 0 then none else some r

def onUpdateBlock (c : Ctx) (changes : ChangeSet) (rs : RcbState) (w : Work) : Work :=
  -- An unbuffered block reports only while enabled; a buffered block captures for a later enable.
  if !rs.buffered && !w.st.enabled then w
  else
    match resolveDataSet w.model (attrText c.render w.model rs "DatSet") with
    | none => w
    | some members =>
      let e := collect w.model members (wantedReason changes (trgOpsOf w.model rs)) (originOf c rs w)
      if e.members.isEmpty then w else event c rs e (note (.captured e) w)

def everyMember (c : Ctx) (rs : RcbState) (reason : ReasonCode) (w : Work) : ReportEntry :=
  collect w.model ((resolveDataSet w.model (attrText c.render w.model rs "DatSet")).getD [])
    (fun _ => some reason) (originOf c rs w)

def reportAll (c : Ctx) (rs : RcbState) (reason : ReasonCode) (w : Work) : Work :=
  let w := flushPending c rs w
  let e := everyMember c rs reason w
  if e.members.isEmpty then w else emit c rs e w

def syncResv (rs : RcbState) (w : Work) : Work :=
  let held := w.st.owner.isSome || w.st.resvIp.isSome
  if rs.buffered then
    let ip := if w.st.owner.isSome then w.st.ownerIp else w.st.resvIp
    { w with model := setAttr w.model rs "Owner" (.octetString (ipOctets ip)) }
  else { w with model := setAttr w.model rs "Resv" (.boolean held) }

def take (rs : RcbState) (conn : ConnId) (ip : Option IpAddr) (w : Work) : Work :=
  let st := ({ w.st with owner := some conn, ownerIp := ip } : RcbRuntime).stopResvTimer
  let st := if st.resvCfg then st else { st with resvIp := none }
  syncResv rs { w with st := st }

def holdFor (c : Ctx) (rs : RcbState) (ip : IpAddr) (w : Work) : Work :=
  let w := { w with st := { w.st with resvIp := some ip } }
  (spawn c (.reservation rs.key w.st.resvGen) w).getD w

/-- Ends the holder's claim on the block. With a `ResvTms` a buffered block stays reserved for the holder's
address; a configured reservation stays. -/
def release (c : Ctx) (rs : RcbState) (w : Work) : Work :=
  let prevIp := w.st.ownerIp
  let hadOwner := w.st.owner.isSome
  let w := { w with st := { w.st with ownerIp := none, owner := none } }
  if w.st.resvCfg then syncResv rs w
  else
    let w := { w with st := { w.st.stopResvTimer with resvIp := none } }
    let tms := ((attrValue w.model rs "ResvTms").map Value.asI64).getD 0
    if rs.buffered ∧ 0 < tms ∧ hadOwner = true then
      match prevIp with
      | none => syncResv rs w
      | some ip => syncResv rs (holdFor c rs ip w)
    else syncResv rs w

/-- Where delivery resumes: after the resync point, from the oldest entry for all zeros, else where it left
off. A resync point that is gone is an overflow. -/
def resume (st : RcbRuntime) : RcbRuntime :=
  match st.resyncId with
  | none => st
  | some id =>
    let st := { st with resyncId := none }
    if isZeroEntryId id then { st with next := 0 }
    else
      match st.bufferIndex id with
      | some i => { st with next := i + 1 }
      | none => { st with next := 0, bufOverflow := true }

def subscribe (conn : ConnId) (w : Work) : Work :=
  note (.enabled conn) { w with st := { w.st with enabled := true, conn := some conn } }

def unsubscribe (w : Work) : Work :=
  { w with st := ({ w.st with enabled := false, conn := none } : RcbRuntime).stopIntegrity }

def deliver (c : Ctx) (rs : RcbState) (w : Work) : Work :=
  if rs.buffered then transmitBuffered c rs { w with st := resume w.st } else w

def startIntegrity (c : Ctx) (rs : RcbState) (w : Work) : Work :=
  let period := ((attrValue w.model rs "IntgPd").map Value.asU64).getD 0
  if period ≠ 0 ∧ TrgOps.has (trgOpsOf w.model rs) TrgOps.integrity = true then
    (spawn c (.integrity rs.key w.st.integrityGen) w).getD w
  else w

def enable (c : Ctx) (rs : RcbState) (conn : ConnId) (ip : Option IpAddr) (w : Work) : Work :=
  let w := subscribe conn w
  let w := if w.st.owner ≠ some conn then take rs conn ip w else w
  let w := setSqNum rs 0 w
  startIntegrity c rs (deliver c rs { w with st := w.st.stopIntegrity })

def disable (c : Ctx) (rs : RcbState) (w : Work) : Work :=
  let w := unsubscribe (flushPending c rs w)
  if rs.buffered then release c rs w else w

def disableConnBlock (c : Ctx) (conn : ConnId) (rs : RcbState) (w : Work) : Work :=
  let w := if w.st.conn = some conn then disable c rs w else w
  if w.st.owner = some conn then release c rs w else w

def purgeBlock (w : Work) : Work :=
  note (.purged (w.st.buffer.drop w.st.next)) { w with st := w.st.purge }

def checkRcbWrite (c : Ctx) (m : Model) (rs : RcbState) (st : RcbRuntime) (attr : String) (v : Value)
    (conn : ConnId) (ip : Option IpAddr) : Except DataAccessError Unit :=
  if !st.allowed conn ip then .error .temporarilyUnavailable
  else if attr ∈ rcbReadOnly then .error .objectAccessDenied
  else if attr = "RptEna" ∧ v.asBool = true then
    if st.enabled then .error .temporarilyUnavailable
    else if (resolveDataSet m (attrText c.render m rs "DatSet")).isNone then
      .error .temporarilyUnavailable
    else .ok ()
  else if attr = "GI" ∧ v.asBool = true ∧ st.enabled = false then .error .temporarilyUnavailable
  else if attr = "Resv" ∧ v.asBool = false ∧ st.resvCfg = true then .error .objectAccessDenied
  else if attr = "Resv" ∧ v.asBool = false ∧ st.enabled = true then .error .temporarilyUnavailable
  else if attr = "ResvTms" ∧ st.resvCfg = true then .error .objectAccessDenied
  else if attr = "ResvTms" ∧ v.asI64 < 0 then .error .objectValueInvalid
  else if attr ∈ rcbSettings then
    if st.enabled then .error .temporarilyUnavailable
    else if attr = "DatSet" then
      let r := v.text c.render
      if r ≠ "" ∧ (resolveDataSet m r).isNone = true then .error .objectValueInvalid else .ok ()
    else if attr = "EntryID" then
      let id := v.bytes
      -- Resynchronisation needs an entry the buffer still holds; all zeros asks for everything.
      if id.length ≠ 8 ∨ (isZeroEntryId id = false ∧ st.bufferIndex id = none) then
        .error .objectValueInvalid
      else .ok ()
    else .ok ()
  else .ok ()

def interrogate (c : Ctx) (rs : RcbState) (on : Bool) (w : Work) : Work :=
  let w :=
    if on = true ∧ TrgOps.has (trgOpsOf w.model rs) TrgOps.gi = true then
      reportAll c rs ReasonCode.gi w
    else w
  { w with model := setAttr w.model rs "GI" (.boolean false) }

def changeDataSet (rs : RcbState) (w : Work) : Work :=
  let rev := ((attrValue w.model rs "ConfRev").map Value.asU32).getD 0
  purgeBlock { w with model := setAttr w.model rs "ConfRev" (.uint32 (rev + 1)) }

def applyWrite (c : Ctx) (attr : String) (v : Value) (conn : ConnId) (ip : Option IpAddr)
    (rs : RcbState) (w : Work) : Work :=
  if attr = "ResvTms" then
    -- A zero gives up a reservation that outlives the association.
    if v.asI64 = 0 then { w with st := w.st.stopResvTimer } else w
  else if attr = "RptEna" then
    if v.asBool then enable c rs conn ip w else disable c rs w
  else if attr = "GI" then interrogate c rs v.asBool w
  else if attr = "PurgeBuf" then
    let w := if v.asBool then purgeBlock w else w
    { w with model := setAttr w.model rs "PurgeBuf" (.boolean false) }
  else if attr = "EntryID" then
    note (.resync v.bytes) { w with st := { w.st with resyncId := some v.bytes } }
  else if attr = "DatSet" then changeDataSet rs w
  else w

def onRcbWrite (c : Ctx) (attr : String) (v : Value) (conn : ConnId) (ip : Option IpAddr)
    (rs : RcbState) (w : Work) : Work :=
  let w := { w with runtime := true }
  if attr = "Resv" then
    if v.asBool then take rs conn ip w else release c rs w
  else
    -- Writing a block reserves it for the writer.
    let w := if w.st.owner = none then take rs conn ip w else w
    applyWrite c attr v conn ip rs w

def windowTask (c : Ctx) (generation : ℕ) (rs : RcbState) (w : Work) : Work :=
  if w.st.pendingGen = generation then flushPending c rs w else w

def integrityTask (c : Ctx) (generation : ℕ) (rs : RcbState) (w : Work) : Work :=
  if w.st.integrityGen ≠ generation ∨ w.st.enabled = false then w
  else reportAll c rs ReasonCode.integrity w

def reservationTask (generation : ℕ) (rs : RcbState) (w : Work) : Work :=
  if w.st.resvGen = generation ∧ w.st.owner = none then
    syncResv rs { w with st := { w.st with resvIp := none } }
  else w

end Iec61850.Server
