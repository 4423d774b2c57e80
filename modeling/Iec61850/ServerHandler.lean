import Iec61850.ServerState
import Iec61850.Runs
import Mathlib.Data.List.Sort

/-! The server as a write sees it: its control blocks, its logs, and the objects of a tracking node in which the last
write of each kind of block is recorded. -/
namespace Iec61850.Server
open Mms

def cbAttr (fc : Fc) (name : String) (v : Value) : DataAttribute :=
  { name := name, fc := fc, kind := some v.typeOf, value := some v }

def cbDataSetRef (ld ln name : String) : String :=
  if name = "" then "" else ld ++ "/" ++ ln ++ "$" ++ name

def dstAddress (fc : Fc) (mac : List UInt8) (pri : UInt8) (vid appId : UInt16) : DataAttribute :=
  { name := "DstAddress"
    fc := fc
    kind := some .struct
    children :=
      [ cbAttr fc "Addr" (.octetString mac),
        cbAttr fc "PRIORITY" (.uint8 pri),
        cbAttr fc "VID" (.uint16 vid),
        cbAttr fc "APPID" (.uint16 appId) ] }

/-- A GoCB under GO, or a GsCB under GS. -/
def buildGocbObject (ld ln : String) (gc : GseControl) : DataObject :=
  match gc.kind with
  | .gsse =>
    { name := gc.name
      cdc := "GSCB"
      attributes := [cbAttr .gs "GsEna" (.boolean false), cbAttr .gs "GsID" (.visibleText gc.goId)] }
  | .goose =>
    { name := gc.name
      cdc := "GOCB"
      attributes :=
        [ cbAttr .go "GoEna" (.boolean false),
          cbAttr .go "GoID" (.visibleText gc.goId),
          cbAttr .go "DatSet" (.visibleText (cbDataSetRef ld ln gc.dataSet)),
          cbAttr .go "ConfRev" (.uint32 gc.confRev),
          cbAttr .go "NdsCom" (.boolean false),
          dstAddress .go gc.dstMac gc.vlanPri gc.vlanId gc.appId,
          cbAttr .go "MinTime" (.uint32 gc.minTime),
          cbAttr .go "MaxTime" (.uint32 gc.maxTime),
          cbAttr .go "FixedOffs" (.boolean gc.fixedOffs) ] }

def isUnicast (sc : SvControl) : Bool := !sc.multicast || sc.protocol == "R-SV"

def svOptFlds (o : SvOpts) : Value :=
  ([o.refreshTime, o.sampleSynchronized, o.sampleRate, o.dataSet, o.security, o.timestamp,
    o.synchSourceId].zipIdx).foldl (fun v (on, i) => v.setBit i on) (.bitString (.new 10))

/-- An MSVCB under MS, or a USVCB under US, which alone can be reserved. -/
def buildSvcbObject (ld ln : String) (sc : SvControl) : DataObject :=
  let unicast := isUnicast sc
  let fc : Fc := if unicast then .us else .ms
  { name := sc.name
    cdc := if unicast then "USVCB" else "MSVCB"
    attributes :=
      cbAttr fc "SvEna" (.boolean false) ::
      (if unicast then [cbAttr fc "Resv" (.boolean false)] else []) ++
      [ cbAttr fc (if unicast then "UsvID" else "MsvID") (.visibleText sc.svId),
        cbAttr fc "DatSet" (.visibleText (cbDataSetRef ld ln sc.dataSet)),
        cbAttr fc "ConfRev" (.uint32 sc.confRev),
        cbAttr fc "SmpRate" (.uint16 sc.smpRate.toUInt16),
        cbAttr fc "OptFlds" (svOptFlds sc.opts),
        cbAttr fc "SmpMod" (.integer sc.smpMod.code.toInt8.toInt64),
        dstAddress fc sc.dstMac sc.vlanPri sc.vlanId sc.appId,
        cbAttr fc "noASDU" (.uint16 sc.noAsdu.toUInt16) ] }

def logTarget (ldName ldInst : String) (lc : LogControl) : Option (String × String) :=
  if lc.logName = "" then none
  else
    let domain :=
      if lc.logLdInst = "" then ldName else (Text.stripSuffix ldName ldInst).getD ldName ++ lc.logLdInst
    let ln := if lc.logLn = "" then "LLN0" else lc.logLn
    some (domain, ln ++ "$" ++ lc.logName)

/-- An LCB under LG. While its log is empty the entry range reads as zeros. -/
def buildLcbObject (ld ldInst ln : String) (lc : LogControl) : DataObject :=
  let trgOps := if lc.trgOps = 0 then TrgOps.dataChange ||| TrgOps.gi else lc.trgOps
  let logRef := ((logTarget ld ldInst lc).map fun (domain, name) => domain ++ "/" ++ name).getD ""
  { name := lc.name
    cdc := "LCB"
    attributes :=
      [ cbAttr .lg "LogEna" (.boolean lc.logEna),
        cbAttr .lg "LogRef" (.visibleText logRef),
        cbAttr .lg "DatSet" (.visibleText (cbDataSetRef ld ln lc.dataSet)),
        cbAttr .lg "OldEntrTm" (.binaryTimeOf binaryTimeEpoch),
        cbAttr .lg "NewEntrTm" (.binaryTimeOf binaryTimeEpoch),
        cbAttr .lg "OldEnt" (.octetString (List.replicate 8 0)),
        cbAttr .lg "NewEnt" (.octetString (List.replicate 8 0)),
        cbAttr .lg "TrgOps" trgOps.value,
        cbAttr .lg "IntgPd" (.uint32 lc.intgPd) ] }

def controlBlockObjects (ldName ldInst : String) (ln : LogicalNode) : List DataObject :=
  ln.gseControls.map (buildGocbObject ldName ln.name) ++
    ln.svControls.map (buildSvcbObject ldName ln.name) ++
    ln.logControls.map (buildLcbObject ldName ldInst ln.name)

def materialiseControlBlocks (m : Model) : Model :=
  let node (ld : LogicalDevice) (ln : LogicalNode) : LogicalNode :=
    { ln with objects := ln.objects ++ controlBlockObjects ld.name ld.inst ln }
  { m with devices := m.devices.map fun ld => { ld with nodes := ld.nodes.map (node ld) } }

def cbObject (ld : LogicalDevice) (ln fc name : String) : Option DataObject :=
  (ld.node ln).bind fun n => n.objects.find? fun o =>
    o.name == name && ((o.attributes.head?).map fun a => a.fc.asStr == fc).getD false

/-- The runtime state of a log control block; `intg`: an integrity task was started, and `intgGen` is the one
that counts. -/
structure LcbState where
  domain : String
  ln : String
  name : String
  journal : Option (String × String)
  intg : Bool := false
  intgGen : ℕ := 0
  reasonCode : Bool := false

def lcbKeyOf (domain item : String) : String := domain ++ "\x00" ++ item

def logManager (m : Model) : Table String LcbState :=
  m.devices.foldl (fun t ld => ld.nodes.foldl (fun t ln => ln.logControls.foldl (fun t lc =>
    if (cbObject ld ln.name "LG" lc.name).isNone then t
    else
      t.insert (lcbKeyOf ld.name (ln.name ++ "$LG$" ++ lc.name))
        { domain := ld.name, ln := ln.name, name := lc.name
          journal := logTarget ld.name ld.inst lc, reasonCode := lc.reasonCode }) t) t) ∅

def lcbAttr (m : Model) (lcb : LcbState) (name : String) : Option Value :=
  ((m.object lcb.domain lcb.ln lcb.name).bind fun o =>
    o.attributes.find? fun a => a.name == name && a.fc == .lg).bind DataAttribute.value

def lcbEnabled (m : Model) (lcb : LcbState) : Bool := ((lcbAttr m lcb "LogEna").map Value.asBool).getD false

def lcbTrgOps (m : Model) (lcb : LcbState) : TrgOps :=
  ((lcbAttr m lcb "TrgOps").map TrgOps.fromValue).getD 0

def lcbDatSet (render : Render) (m : Model) (lcb : LcbState) : String :=
  ((lcbAttr m lcb "DatSet").map (Value.text render)).getD ""

def lcbKey (lcbs : Table String LcbState) (domain item : String) : Option (String × String) :=
  match Text.split '$' item with
  | ln :: fc :: name :: rest =>
    if fc = "LG" then
      let key := lcbKeyOf domain (ln ++ "$LG$" ++ name)
      if (lcbs.lookup key).isSome then some (key, rest.headD "") else none
    else none
  | _ => none

/-- Decides whether a client may write an attribute: the flag when there is something to log, and the
configuration while logging is off. -/
def checkLcbWrite (render : Render) (m : Model) (lcbs : Table String LcbState) (key attr : String)
    (v : Value) : Except DataAccessError Unit :=
  match lcbs.lookup key with
  | none => .error .objectNonExistent
  | some lcb =>
    if attr = "LogEna" then
      if v.asBool &&
          (lcb.journal.isNone || (resolveDataSet m (lcbDatSet render m lcb)).isNone) then
        .error .temporarilyUnavailable
      else .ok ()
    else if attr = "DatSet" ∨ attr = "TrgOps" ∨ attr = "IntgPd" then
      if lcbEnabled m lcb then .error .temporarilyUnavailable
      else if attr = "DatSet" ∧ v.text render ≠ "" ∧ (resolveDataSet m (v.text render)).isNone then
        .error .objectValueInvalid
      else .ok ()
    else .error .objectAccessDenied

def LcbState.stopIntegrity (lcb : LcbState) : LcbState :=
  { lcb with intg := false, intgGen := lcb.intgGen + 1 }

def LcbState.startIntegrity (m : Model) (onRuntime : Bool) (lcb : LcbState) : LcbState :=
  let stopped := lcb.stopIntegrity
  let pd := ((lcbAttr m lcb "IntgPd").map Value.asU64).getD 0
  if pd = 0 ∨ !(lcbTrgOps m lcb).has TrgOps.integrity ∨ lcb.journal.isNone ∨ !onRuntime then stopped
  else { stopped with intg := true }

def onLcbWrite (m : Model) (onRuntime : Bool) (key attr : String) (lcbs : Table String LcbState) :
    Table String LcbState :=
  if attr ≠ "LogEna" then lcbs
  else
    match lcbs.lookup key with
    | none => lcbs
    | some lcb =>
      lcbs.insert key (if lcbEnabled m lcb then lcb.startIntegrity m onRuntime else lcb.stopIntegrity)

def lcbsUseDataSet (render : Render) (m : Model) (lcbs : Table String LcbState) (reference : String) :
    Bool :=
  lcbs.entries.any fun e => lcbDatSet render m e.2 == reference

/-- A change of a block made by a client or by the end of its association. -/
structure SvControlEvent where
  device : String
  node : String
  block : SvControl
  unicast : Bool
  enabled : Bool
  reserved : Bool
  conn : Option ConnId

structure SvcbState where
  device : String
  node : String
  block : SvControl
  unicast : Bool
  owner : Option ConnId := none

def svcbKeyOf (domain base : String) : String := domain ++ "\x00" ++ base

/-- The blocks the materialisation put into the model. -/
def svcbRegistry (m : Model) : Table String SvcbState :=
  m.devices.foldl (fun t ld => ld.nodes.foldl (fun t ln => ln.svControls.foldl (fun t sc =>
    match ln.objects.find? fun o => o.name == sc.name && (o.cdc == "MSVCB" || o.cdc == "USVCB") with
    | none => t
    | some o =>
      let unicast := o.cdc == "USVCB"
      let fc := if unicast then "US" else "MS"
      t.insert (svcbKeyOf ld.name (ln.name ++ "$" ++ fc ++ "$" ++ sc.name))
        { device := ld.name, node := ln.name, block := sc, unicast := unicast }) t) t) ∅

namespace SvcbState

def fc (st : SvcbState) : Fc := if st.unicast then .us else .ms

def flag (m : Model) (st : SvcbState) (name : String) : Bool :=
  ((((m.object st.device st.node st.block.name).bind fun o =>
    o.attributes.find? fun a => a.name == name && a.fc == st.fc).bind DataAttribute.value).map
      Value.asBool).getD false

def event (m : Model) (st : SvcbState) : SvControlEvent :=
  { device := st.device, node := st.node, block := st.block, unicast := st.unicast
    enabled := st.flag m "SvEna", reserved := st.unicast && st.flag m "Resv", conn := st.owner }

end SvcbState

def svcbKey (blocks : Table String SvcbState) (domain item : String) : Option (String × String) :=
  match Text.split '$' item with
  | ln :: fc :: name :: rest =>
    if fc = "MS" ∨ fc = "US" then
      let key := svcbKeyOf domain (ln ++ "$" ++ fc ++ "$" ++ name)
      if (blocks.lookup key).isSome then some (key, rest.headD "") else none
    else none
  | _ => none

def checkSvcbWrite (m : Model) (blocks : Table String SvcbState) (key attr : String) (v : Value)
    (conn : ConnId) : Except DataAccessError Unit :=
  match blocks.lookup key with
  | none => .error .objectNonExistent
  | some st =>
    if (st.owner.map fun o => o != conn).getD false then .error .temporarilyUnavailable
    else if attr = "SvEna" ∨ (attr = "Resv" ∧ st.unicast = true) then
      if v.typeOf ≠ .boolean then .error .typeInconsistent else .ok ()
    else if st.flag m "SvEna" then .error .temporarilyUnavailable
    else .error .objectAccessDenied

def svcbBefore (m : Model) (blocks : Table String SvcbState) (key attr : String) : Bool :=
  ((blocks.lookup key).map fun st => st.flag m attr).getD false

def onSvcbWrite (m : Model) (key attr : String) (old : Bool) (conn : ConnId)
    (blocks : Table String SvcbState) : Table String SvcbState × Option SvControlEvent :=
  match blocks.lookup key with
  | none => (blocks, none)
  | some st =>
    if attr = "SvEna" then
      (blocks, if st.flag m "SvEna" ≠ old then some (st.event m) else none)
    else if attr = "Resv" then
      let now := st.flag m "Resv"
      let st := { st with owner := if now then some conn else none }
      (blocks.insert key st, if now ≠ old then some (st.event m) else none)
    else (blocks, none)

def trackingKinds : List String :=
  ["SpcTrk", "DpcTrk", "IncTrk", "EncTrk", "ApcFTrk", "ApcIntTrk", "BscTrk", "IscTrk", "BacTrk",
    "BrcbTrk", "UrcbTrk", "LocbTrk", "GocbTrk", "MsvcbTrk", "UsvcbTrk", "SgcbTrk"]

def commonTracking : List String :=
  ["objRef", "serviceType", "errorCode", "originatorID", "t", "certIssuer", "d"]

structure TrkObj where
  ld : String
  ln : String
  object : String

def TrkObj.reference (o : TrkObj) : ObjectReference := ⟨o.ld ++ "/" ++ o.ln ++ "." ++ o.object⟩

/-- The tracking objects of a model, by device and kind, and the first of each kind. -/
structure Tracker where
  byLd : Table (String × String) TrkObj
  first : Table String TrkObj

namespace Tracker

def note (t : Tracker) (kind : String) (o : TrkObj) : Tracker :=
  { byLd := if (t.byLd.lookup (o.ld, kind)).isSome then t.byLd else t.byLd.insert (o.ld, kind) o
    first := if (t.first.lookup kind).isSome then t.first else t.first.insert kind o }

def isTrackingNode (ln : LogicalNode) : Bool :=
  ln.lnClass == "LTRK" || (ln.lnClass == "" && Text.startsWith ln.name "LTRK")

def build (m : Model) : Tracker :=
  m.devices.foldl (fun t ld => ld.nodes.foldl (fun t ln =>
    if isTrackingNode ln then
      ln.objects.foldl (fun t o =>
        let kind := Text.trimEndDigits o.name
        if trackingKinds.contains kind then t.note kind ⟨ld.name, ln.name, o.name⟩ else t) t
    else t) t) ⟨∅, ∅⟩

def lookup (t : Tracker) (ld kind : String) : Option TrkObj :=
  (t.byLd.lookup (ld, kind)).or (t.first.lookup kind)

end Tracker

structure ServiceType where
  code : Int32

structure ServiceErrorCode where
  code : Int32

/-- How a write ended, as a tracking object records it. -/
def serviceErrorOf : Except DataAccessError Unit → ServiceErrorCode
  | .ok () => ⟨0⟩
  | .error .temporarilyUnavailable => ⟨8⟩
  | .error .objectAccessDenied => ⟨3⟩
  | .error .objectValueInvalid => ⟨5⟩
  | .error .typeInconsistent => ⟨6⟩
  | .error .objectAttributeInconsistent => ⟨6⟩
  | .error .objectNonExistent => ⟨1⟩
  | .error _ => ⟨12⟩

/-- A tracked write: the device and kind of the block, its reference and state after the write, and the
attribute with the value asked for. -/
structure TrackRecord where
  ld : String
  kind : String
  objRef : String
  svc : ServiceType
  err : ServiceErrorCode
  src : DataObject
  requested : Option (String × Value)

def attributeFold (attrs : List DataAttribute) (name : String) : Option DataAttribute :=
  attrs.find? fun a => Text.eqIgnoreAsciiCase a.name name

def setTracked (r : ObjectReference) (v : Value) (cs : ChangeSet) (da : DataAttribute) : ChangeSet × DataAttribute :=
  if !da.children.isEmpty || !valueFits da v then (cs, da)
  else (record cs r da.fc da.trgOps da.value v, { da with value := some v })

def trackedValue (render : Render) (name : String) (v : Value) : Value :=
  if Text.eqIgnoreAsciiCase name "datSet" || Text.eqIgnoreAsciiCase name "logRef" then
    .visibleText (Text.replace '$' '.' (v.text render))
  else v

mutual
/-- Copies a block's attribute into the tracking attribute of the same name. -/
def copyTracked (render : Render) (r : ObjectReference) (src : DataAttribute) (cs : ChangeSet) :
    DataAttribute → ChangeSet × DataAttribute
  | ⟨name, fc, kind, btype, count, children, value, trgOps, fcName⟩ =>
    if children.isEmpty then
      match src.value with
      | none => (cs, ⟨name, fc, kind, btype, count, children, value, trgOps, fcName⟩)
      | some v =>
        setTracked r (trackedValue render name v) cs ⟨name, fc, kind, btype, count, children, value, trgOps, fcName⟩
    else
      let copied := copyTrackedAll render r src cs children
      (copied.1, ⟨name, fc, kind, btype, count, copied.2, value, trgOps, fcName⟩)

def copyTrackedAll (render : Render) (r : ObjectReference) (src : DataAttribute) (cs : ChangeSet) :
    List DataAttribute → ChangeSet × List DataAttribute
  | [] => (cs, [])
  | c :: children =>
    let copied := match attributeFold src.children c.name with
      | some sc => copyTracked render (r.child c.name) sc cs c
      | none => (cs, c)
    let rest := copyTrackedAll render r src copied.1 children
    (rest.1, copied.2 :: rest.2)
end

def onFirstAttr (p : DataAttribute → Bool)
    (f : ChangeSet → DataAttribute → ChangeSet × DataAttribute) (cs : ChangeSet) (o : DataObject) :
    ChangeSet × DataObject :=
  match o.attributes.find? p with
  | none => (cs, o)
  | some a =>
    let done := f cs a
    (done.1, { o with attributes := FirstMatch.update p (fun _ => done.2) o.attributes })

def copyState (render : Render) (base : ObjectReference) (src : DataObject) :
    ChangeSet → List DataAttribute → ChangeSet × List DataAttribute
  | cs, [] => (cs, [])
  | cs, a :: as =>
    let copied :=
      if commonTracking.contains a.name then (cs, a)
      else
        match attributeFold src.attributes a.name with
        | some s => copyTracked render (base.child a.name) s cs a
        | none => (cs, a)
    let rest := copyState render base src copied.1 as
    (rest.1, copied.2 :: rest.2)

def trackObject (render : Render) (base : ObjectReference) (rec : TrackRecord) (now : Value)
    (cs : ChangeSet) (o : DataObject) : ChangeSet × DataObject :=
  let state := copyState render base rec.src cs o.attributes
  let o := { o with attributes := state.2 }
  let asked := match rec.requested with
    | none => (state.1, o)
    | some (name, v) =>
      onFirstAttr (fun a => Text.eqIgnoreAsciiCase a.name name) (fun cs a =>
        if commonTracking.contains a.name then (cs, a)
        else copyTracked render (base.child a.name) { name := name, value := some v } cs a) state.1 o
  let set (name : String) (v : Value) (s : ChangeSet × DataObject) : ChangeSet × DataObject :=
    onFirstAttr (fun a => a.name == name) (setTracked (base.child name) v) s.1 s.2
  set "objRef" (.visibleText rec.objRef) (set "t" now
    (set "errorCode" (.integer rec.err.code.toInt64) (set "serviceType" (.integer rec.svc.code.toInt64) asked)))

def Tracker.track (t : Tracker) (render : Render) (rec : TrackRecord) (now : Value)
    (s : Model × ChangeSet) : Model × ChangeSet :=
  match t.lookup rec.ld rec.kind with
  | none => s
  | some o =>
    match s.1.object o.ld o.ln o.object with
    | none => s
    | some object =>
      let done := trackObject render o.reference rec now s.2 object
      (s.1.objectMut o.ld o.ln o.object fun _ => done.2, done.1)

/-- The tracking object and the service of a written item: the block's Set service, or for the
setting groups the one of the attribute. -/
def trackedService (parts : List String) : Option (String × ServiceType) :=
  match parts with
  | ln :: fc :: name :: rest =>
    if fc = "BR" then some ("BrcbTrk", ⟨24⟩)
    else if fc = "RP" then some ("UrcbTrk", ⟨26⟩)
    else if fc = "LG" then some ("LocbTrk", ⟨28⟩)
    else if fc = "GO" then some ("GocbTrk", ⟨34⟩)
    else if fc = "MS" then some ("MsvcbTrk", ⟨39⟩)
    else if fc = "US" then some ("UsvcbTrk", ⟨42⟩)
    else if fc = "SP" ∧ ln = "LLN0" ∧ name = sgcbName then
      match rest with
      | [attr] =>
        if attr = "ActSG" then some ("SgcbTrk", ⟨16⟩)
        else if attr = "EditSG" then some ("SgcbTrk", ⟨17⟩)
        else if attr = "CnfEdit" then some ("SgcbTrk", ⟨19⟩)
        else none
      | _ => none
    else none
  | _ => none

/-- Tracks a write of a control block attribute, answered with `res`. That of a report control block is
recorded with the value the client asked for. -/
def Tracker.trackCbWrite (t : Tracker) (render : Render) (domain item : String) (v : Value)
    (res : Except DataAccessError Unit) (now : Value) (s : Model × ChangeSet) : Model × ChangeSet :=
  let parts := Text.split '$' item
  match parts, trackedService parts with
  | ln :: fc :: name :: rest, some (kind, svc) =>
    if (t.lookup domain kind).isNone then s
    else
      match (s.1.device domain).bind fun ld => cbObject ld ln fc name with
      | none => s
      | some src =>
        let requested := match rest with
          | [attr] => if fc = "BR" ∨ fc = "RP" then some (attr, v) else none
          | _ => none
        t.track render
          { ld := domain, kind := kind, objRef := domain ++ "/" ++ ln ++ "." ++ name, svc := svc
            err := serviceErrorOf res, src := src, requested := requested } now s
  | _, _ => s

structure Inner extends State where
  settingGroups : Table String SettingGroupManager
  lcbs : Table String LcbState
  svcbs : Table String SvcbState
  selections : Selections := ∅
  tracker : Tracker

/-- What an item addresses by the spelling of its components: an attribute of a control block, or anything else.
-/
inductive CbTarget where
  | report (key attr : String)
  | setting (attr : String)
  | log (key attr : String)
  | sampled (key attr : String)
  | plain
deriving DecidableEq

def CbTarget.controlBlock : CbTarget → Bool
  | plain => false
  | _ => true

/-- What one write is given besides the item and the value: the association and its address, the answer of the
write hook and the time of the server's clock. -/
structure WriteCtx where
  ctx : Ctx
  conn : ConnId
  refusal : Option DataAccessError
  stamp : Value

namespace Inner

def target (s : Inner) (domain item : String) : CbTarget :=
  match rcbKey domain item with
  | some (key, attr) => .report key attr
  | none =>
    match (isSgcbWrite item).filter fun _ => (s.settingGroups.lookup domain).isSome with
    | some attr => .setting attr
    | none =>
      match lcbKey s.lcbs domain item with
      | some (key, attr) => .log key attr
      | none =>
        match svcbKey s.svcbs domain item with
        | some (key, attr) => .sampled key attr
        | none => .plain

def peer (s : Inner) (conn : ConnId) : Option IpAddr :=
  peerIp ((s.conns.lookup conn).bind ServerConn.peer)

def written (s : Inner) (conn : ConnId) : ChangeSet := (s.changes.lookup conn).getD ∅

def check (w : WriteCtx) (domain : String) (v : Value) (s : Inner) : CbTarget → Except DataAccessError Unit
  | .report key attr =>
    match s.block key with
    | none => .error .objectNonExistent
    | some b => checkRcbWrite w.ctx s.model b.rs b.st attr v w.conn (s.peer w.conn)
  | .setting attr =>
    match s.settingGroups.lookup domain with
    | none => .ok ()
    | some mgr => mgr.checkWrite attr v
  | .log key attr => checkLcbWrite w.ctx.render s.model s.lcbs key attr v
  | .sampled key attr => checkSvcbWrite s.model s.svcbs key attr v w.conn
  | .plain => .ok ()

def writePermitted (cfg : Config) (domain : String) (s : Inner) (fc : Fc) : Except DataAccessError Unit :=
  if fc ∉ writableFcs cfg.writable then .error .objectAccessDenied
  else if fc = .se then
    if ((s.settingGroups.lookup domain).map fun mgr => decide (1 ≤ mgr.editSg)).getD false then .ok ()
    else .error .temporarilyUnavailable
  else .ok ()

def store (cfg : Config) (w : WriteCtx) (domain item : String) (v : Value) (controlBlock : Bool)
    (s : Inner) : Except DataAccessError Inner :=
  (storeItem (s.writePermitted cfg domain) s.model (s.written w.conn) domain item v controlBlock
      w.refusal).map fun done =>
    { s with
      model := done.1
      changes := if controlBlock then s.changes else s.changes.insert w.conn done.2 }

/-- The effect of a stored write of a control block. `old` is the server before it was stored. -/
def effect (w : WriteCtx) (domain : String) (v : Value) (old s : Inner) : CbTarget → Inner × Option SvControlEvent
  | .report key attr =>
    let done := s.toState.onBlock key (onRcbWrite w.ctx attr v w.conn (s.peer w.conn))
    ({ s with toState := done }, none)
  | .setting attr =>
    match s.settingGroups.lookup domain with
    | none => (s, none)
    | some mgr =>
      let done := mgr.onSgcbWrite w.stamp s.model attr v
      ({ s with model := done.2, settingGroups := s.settingGroups.insert domain done.1 }, none)
  | .log key attr =>
    ({ s with lcbs := onLcbWrite s.model w.ctx.onRuntime key attr s.lcbs }, none)
  | .sampled key attr =>
    let before := svcbBefore old.model old.svcbs key attr
    let done := onSvcbWrite s.model key attr before w.conn s.svcbs
    ({ s with svcbs := done.1 }, done.2)
  | .plain => (s, none)

def track (w : WriteCtx) (domain item : String) (v : Value) (controlBlock : Bool)
    (res : Except DataAccessError Unit) (s : Inner) : Inner :=
  if controlBlock = true ∨ (Text.split '$' item)[1]? = some "GO" then
    let done := s.tracker.trackCbWrite w.ctx.render domain item v res w.stamp (s.model, s.written w.conn)
    { s with model := done.1, changes := s.changes.insert w.conn done.2 }
  else s

/-- Applies one write: the control block's own rules, then the store, then the effect, and the
tracking of it all. -/
def writeOne (cfg : Config) (w : WriteCtx) (domain item : String) (v : Value) (s : Inner) :
    Inner × Except DataAccessError Unit × Option SvControlEvent :=
  let target := s.target domain item
  let stored := (s.check w domain v target).bind fun _ =>
    s.store cfg w domain item v target.controlBlock
  match stored with
  | .error e => (s.track w domain item v target.controlBlock (.error e), .error e, none)
  | .ok s' =>
    let done := effect w domain v s s' target
    (done.1.track w domain item v target.controlBlock (.ok ()), .ok (), done.2)

end Inner

/-- The options that the model of a server depends on: the number of setting groups and the depth of a report
buffer where none is given, the time of the start, and whether that is inside a runtime. -/
structure Options where
  settingGroups : UInt8 := 0
  reportBufferSize : ℕ := 0
  stamp : Value := .none
  runtime : Bool := true

def blocksModel (opts : Options) (m : Model) : Model :=
  materialiseControlBlocks (materialiseSgcbs m opts.settingGroups opts.stamp).1

def servedModel (opts : Options) (m : Model) : Model :=
  materialiseModel (blocksModel opts m) opts.reportBufferSize

def startedLogs (runtime : Bool) (m : Model) : Table String LcbState :=
  (logManager m).entries.foldl (fun t e =>
    t.insert e.1 (if lcbEnabled m e.2 then e.2.startIntegrity m runtime else e.2)) ∅

def Inner.new (opts : Options) (m : Model) : Inner :=
  let served := servedModel opts m
  { start (blocksModel opts m) opts.reportBufferSize opts.runtime with
    settingGroups := (materialiseSgcbs m opts.settingGroups opts.stamp).2
    lcbs := startedLogs opts.runtime served
    svcbs := svcbRegistry served
    tracker := Tracker.build served }

def SvcbState.setFlag (m : Model) (st : SvcbState) (name : String) (on : Bool) : Model :=
  m.objectMut st.device st.node st.block.name fun o =>
    { o with
      attributes := FirstMatch.update (fun a => a.name == name && a.fc == st.fc)
        (fun a => { a with value := some (.boolean on) }) o.attributes }

def SvcbState.releaseConn (conn : ConnId) (done : Model × Table String SvcbState)
    (key : String) (st : SvcbState) : Model × Table String SvcbState :=
  if st.owner ≠ some conn then done
  else
    let st := { st with owner := none }
    (st.setFlag (st.setFlag done.1 "Resv" false) "SvEna" false, done.2.insert key st)

/-- The source keeps the blocks in a map that is ordered by its keys. -/
def inKeyOrder (blocks : Table String SvcbState) : List (Sigma fun _ : String => SvcbState) :=
  blocks.entries.insertionSort fun a b => a.1 ≤ b.1

lemma mem_inKeyOrder {blocks : Table String SvcbState} {e : Sigma fun _ : String => SvcbState} :
    e ∈ inKeyOrder blocks ↔ e ∈ blocks.entries := List.mem_insertionSort _

def releaseSvcbs (conn : ConnId) (m : Model) (blocks : Table String SvcbState) : Model × Table String SvcbState :=
  (inKeyOrder blocks).foldl (fun done e => SvcbState.releaseConn conn done e.1 e.2) (m, blocks)

def Step.background : Step → Bool
  | .write .. | .operate .. | .update .. | .defineDataSet .. | .deleteDataSet .. => false
  | .endAssociation .. => false
  | _ => true

inductive Service where
  | write (w : WriteCtx) (domain item : String) (v : Value)
  | operate (conn : ConnId) (reference : ObjectReference) (ctlVal : Value)
  | defineDataSet (domain list : String) (items : List (String × String))
  | deleteDataSet (domain list : String)
  | endAssociation (conn : ConnId) (now : SystemTime)
  | engine (x : Step)

namespace Inner

def dataSetInUse (render : Render) (s : Inner) (domain ln ds : String) : Bool :=
  Server.dataSetInUse render s.model s.blocks domain ln ds ||
    lcbsUseDataSet render s.model s.lcbs (domain ++ "/" ++ ln ++ "$" ++ ds)

def deleteDataset (render : Render) (domain list : String) (s : Inner) : Inner :=
  match Text.splitOnce '$' list with
  | none => s
  | some (ln, ds) =>
    match (s.model.node domain ln).bind fun n => n.dataSet ds with
    | none => s
    | some dataSet =>
      if !dataSet.deletable || s.dataSetInUse render domain ln ds then s
      else
        let others (n : LogicalNode) : LogicalNode :=
          { n with dataSets := n.dataSets.filter fun d => d.name != ds }
        { s with model := s.model.nodeMut domain ln others }

lemma deleteDataset_cases (render : Render) (domain list : String) (s : Inner) :
    s.deleteDataset render domain list = s ∨ ∃ ln ds x,
      (s.model.node domain ln).bind (fun n => n.dataSet ds) = some x ∧ x.deletable ∧
      s.dataSetInUse render domain ln ds = false ∧ s.deleteDataset render domain list =
        { s with model := s.model.nodeMut domain ln fun n =>
          { n with dataSets := n.dataSets.filter fun d => d.name != ds } } := by
  unfold deleteDataset
  split
  · exact .inl rfl
  next ln ds _ =>
  split
  · exact .inl rfl
  next x hx =>
  split
  · exact .inl rfl
  next hno =>
    rw [Bool.or_eq_true, not_or] at hno
    exact .inr ⟨ln, ds, x, hx, by simpa using hno.1, by simpa using hno.2, rfl⟩

/-- The end of an association: its subscriptions, blocks and reservations go with it. -/
def endAssociation (cfg : Config) (conn : ConnId) (now : SystemTime) (s : Inner) : Inner :=
  match s.conns.lookup conn with
  | none => s
  | some sc =>
    if sc.inRequest then s
    else
      let ended := step cfg s.toState (.endAssociation conn now)
      let released := releaseSvcbs conn ended.model s.svcbs
      { s with
        toState := { ended with model := released.1 }
        svcbs := released.2
        selections := s.selections.releaseConn conn }

def serve (cfg : Config) (s : Inner) : Service → Inner
  | .write w domain item v => (s.writeOne cfg w domain item v).1
  | .operate conn reference ctlVal =>
    let tx := applyControl { model := s.model, changed := s.written conn } reference ctlVal
    { s with model := tx.model, changes := s.changes.insert conn tx.changed }
  | .defineDataSet domain list items => { s with model := defineNvl s.model domain list items }
  | .deleteDataSet domain list => s.deleteDataset cfg.render domain list
  | .endAssociation conn now => s.endAssociation cfg conn now
  | .engine x => if x.background then { s with toState := step cfg s.toState x } else s

lemma serve_operate_model (cfg : Config) (s : Inner) (conn : ConnId) (reference : ObjectReference)
    (ctlVal : Value) : (s.serve cfg (.operate conn reference ctlVal)).model = s.model ∨ ∃ status,
      (s.serve cfg (.operate conn reference ctlVal)).model =
        s.model.setAttribute (reference.child "stVal") .st status := by
  dsimp only [serve, applyControl]
  split
  · exact .inl rfl
  split
  · exact .inl rfl
  split
  · exact .inl rfl
  · exact .inr ⟨_, rfl⟩

def run (cfg : Config) (s : Inner) (services : List Service) : Inner := services.foldl (serve cfg) s

end Inner

def defaultLogCapacity : ℕ := 1024

def reasonCodeTag : String := "ReasonCode"

/-- The members that were logged together; the time is at millisecond precision. -/
structure LogEntry where
  id : List UInt8
  time : SystemTime
  vars : List (String × Value)

/-- The options of a server that concern its logs; a capacity of zero stands for the default one. -/
structure LogOptions where
  capacity : ℕ := 0
  deletable : Bool := false

def LogOptions.limit (o : LogOptions) : ℕ := if o.capacity = 0 then defaultLogCapacity else o.capacity

/-- A log is known by its domain and its name. -/
abbrev JournalName := String × String

def journalNames (m : Model) : List JournalName :=
  (m.devices.flatMap fun ld => ld.nodes.flatMap fun ln =>
    ln.logs.map fun name => (ld.name, ln.name ++ "$" ++ name)) ++
  (m.devices.flatMap fun ld => ld.nodes.flatMap fun ln => ln.logControls.filterMap fun lc =>
    if (cbObject ld ln.name "LG" lc.name).isNone then none else logTarget ld.name ld.inst lc)

/-- A server with its logs; `appended` keeps every entry ever logged, which no function reads. -/
structure Logging where
  inner : Inner
  journals : Table JournalName (List LogEntry)
  appended : List (JournalName × LogEntry) := []

def setLcbAttr (m : Model) (lcb : LcbState) (name : String) (v : Value) : Model :=
  m.objectMut lcb.domain lcb.ln lcb.name fun o =>
    { o with
      attributes := FirstMatch.update (fun a => a.name == name) (fun a => { a with value := some v }) o.attributes }

def appendMember (m : Model) (lcb : LcbState) (reason : ReasonCode) (vars : List (String × Value))
    (member : DsMember) : List (String × Value) :=
  match itemValue m member.domain member.item with
  | none => vars
  | some v =>
    vars ++ [(member.domain ++ "/" ++ member.item, v)] ++
      if lcb.reasonCode then [(reasonCodeTag, reason.value)] else []

def deleteCount (limit : SystemTime) (limitEntry : Option (List UInt8)) : List LogEntry → ℕ
  | [] => 0
  | e :: es =>
    if limit < e.time then 0
    else if limitEntry = some e.id then 1
    else 1 + deleteCount limit limitEntry es

def deleted (limit : Option SystemTime) (limitEntry : Option (List UInt8)) (entries : List LogEntry) : ℕ :=
  match limit with
  | none => entries.length
  | some t => deleteCount t limitEntry entries

namespace Logging

def range (oldest newest : LogEntry) : List (String × Value) :=
  [ ("OldEntrTm", .binaryTimeOf oldest.time),
    ("NewEntrTm", .binaryTimeOf newest.time),
    ("OldEnt", .octetString oldest.id),
    ("NewEnt", .octetString newest.id) ]

def setRange (m : Model) (lcb : LcbState) (oldest newest : LogEntry) : Model :=
  (range oldest newest).foldl (fun m a => setLcbAttr m lcb a.1 a.2) m

def sync (j : JournalName) (s : Logging) : Logging :=
  match s.journals.lookup j with
  | none | some [] => s
  | some (oldest :: rest) =>
    let newest := (oldest :: rest).getLast (List.cons_ne_nil oldest rest)
    let model := s.inner.lcbs.entries.foldl (fun m e =>
      if e.2.journal = some j then setRange m e.2 oldest newest else m) s.inner.model
    { s with inner := { s.inner with model := model } }

/-- Adds an entry to a log, discards the oldest past its capacity, and updates the control blocks that describe
it. -/
def append (cfg : Config) (o : LogOptions) (now : SystemTime) (j : JournalName)
    (vars : List (String × Value)) (s : Logging) : Logging :=
  if vars.isEmpty then s
  else
    match s.journals.lookup j with
    | none => s
    | some entries =>
      let n := s.inner.entryCounter + 1
      let entry : LogEntry :=
        { id := makeEntryId (cfg.entrySeed.toNat * 2 ^ 32 + n % 2 ^ 32)
          time := TimeUtil.toMillis now
          vars := vars }
      let entries := entries ++ [entry]
      sync j
        { s with
          inner := { s.inner with entryCounter := n }
          journals := s.journals.insert j (entries.drop (entries.length - o.limit))
          appended := s.appended ++ [(j, entry)] }

def lcbsInOrder (lcbs : Table String LcbState) : List LcbState :=
  (lcbs.entries.insertionSort fun a b => a.1 ≤ b.1).map fun e => e.2

/-- What a change makes a block log, and where: the members whose changes its triggers ask for. -/
def logged (render : Render) (m : Model) (changes : ChangeSet) (lcb : LcbState) :
    Option (JournalName × List (String × Value)) :=
  match lcb.journal with
  | none => none
  | some j =>
    if !lcbEnabled m lcb then none
    else
      let want := lcbTrgOps m lcb &&& (TrgOps.dataChange ||| TrgOps.qualityChange ||| TrgOps.dataUpdate)
      match resolveDataSet m (lcbDatSet render m lcb) with
      | none => none
      | some members =>
        let vars := members.foldl (fun vars member =>
          let r := memberReason changes member &&& want
          if r ≠ 0 then appendMember m lcb r vars member else vars) []
        if vars.isEmpty then none else some (j, vars)

def onUpdate (cfg : Config) (o : LogOptions) (now : SystemTime) (changes : ChangeSet) (s : Logging) : Logging :=
  if changes.entries.isEmpty then s
  else
    let writes := (lcbsInOrder s.inner.lcbs).filterMap (logged cfg.render s.inner.model changes)
    writes.foldl (fun s write => s.append cfg o now write.1 write.2) s

def logAll (cfg : Config) (o : LogOptions) (now : SystemTime) (key : String) (generation : ℕ) (s : Logging) : Logging :=
  match s.inner.lcbs.lookup key with
  | none => s
  | some lcb =>
    if lcb.intgGen ≠ generation then s
    else
      match lcb.journal with
      | none => s
      | some j =>
        let members := (resolveDataSet s.inner.model (lcbDatSet cfg.render s.inner.model lcb)).getD []
        s.append cfg o now j (members.foldl (appendMember s.inner.model lcb ReasonCode.integrity) [])

/-- Deletes log entries: all of them, or those up to the limiting time. -/
def initializeJournal (o : LogOptions) (j : JournalName) (limit : Option SystemTime)
    (limitEntry : Option (List UInt8)) (s : Logging) : Logging × Except DataAccessError ℕ :=
  match s.journals.lookup j with
  | none => (s, .error .objectNonExistent)
  | some entries =>
    if !o.deletable then (s, .error .objectAccessDenied)
    else
      let n := deleted limit limitEntry entries
      (sync j { s with journals := s.journals.insert j (entries.drop n) }, .ok n)

end Logging

inductive LogStep where
  | update (changes : ChangeSet) (now : SystemTime)
  | integrity (key : String) (generation : ℕ) (now : SystemTime)
  | delete (j : JournalName) (limit : Option SystemTime) (limitEntry : Option (List UInt8))
  /-- A client writes; a write that the server takes for one of a report, setting group or sampled-value control
  block reaches no log control block and is no step here. -/
  | write (w : WriteCtx) (domain item : String) (v : Value)

namespace Logging

def forLogs : CbTarget → Bool
  | .log .. | .plain => true
  | _ => false

def step (cfg : Config) (o : LogOptions) (s : Logging) : LogStep → Logging
  | .update changes now => s.onUpdate cfg o now changes
  | .integrity key generation now => s.logAll cfg o now key generation
  | .delete j limit limitEntry => (s.initializeJournal o j limit limitEntry).1
  | .write w domain item v =>
    if forLogs (s.inner.target domain item) then
      let w := { w with ctx := cfg.ctx w.ctx.now w.ctx.onRuntime }
      { s with inner := (s.inner.writeOne cfg w domain item v).1 }
    else s

def run (cfg : Config) (o : LogOptions) (s : Logging) (steps : List LogStep) : Logging := steps.foldl (step cfg o) s

def new (opts : Options) (m : Model) : Logging :=
  { inner := Inner.new opts m
    journals := (journalNames (servedModel opts m)).foldl (fun t j => t.insert j []) ∅ }

end Logging
end Iec61850.Server
