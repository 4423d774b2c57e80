import Iec61850.ServerEngine

/-! The server: the model, the associations, the report control blocks, setting groups and controls, and everything
that can happen to them. -/
namespace Iec61850.Server
open Mms

structure Config where
  render : Render
  entrySeed : UInt32
  writable : List Fc := [.sp, .sv, .se]

def writableFcs (fcs : List Fc) : List Fc := fcs.filter fun fc => fc ∉ [Fc.st, .mx, .or, .ex, .sg]

def Config.ctx (cfg : Config) (now : SystemTime) (onRuntime : Bool) : Ctx :=
  { render := cfg.render, entrySeed := cfg.entrySeed, now := now, onRuntime := onRuntime }

structure Block where
  rs : RcbState
  st : RcbRuntime
  trace : List Event := []

/-- The server. `changes` holds what each association's request in progress has written; `dropped`, kept for
reasoning, the reports accepted and never queued. -/
structure State extends Engine where
  blocks : List Block
  changes : Table ConnId ChangeSet := ∅
  nextConn : ConnId := 0
  dropped : List (ConnId × List UInt8) := []

def Block.work (b : Block) (g : Engine) : Work := { g with st := b.st, trace := b.trace }

def Block.after (b : Block) (w : Work) : Block := { b with st := w.st, trace := w.trace }

def runBlocks (f : RcbState → Work → Work) : List Block → Engine → Engine × List Block
  | [], g => (g, [])
  | b :: bs, g =>
    let w := f b.rs (b.work g)
    let rest := runBlocks f bs w.toEngine
    (rest.1, b.after w :: rest.2)

def State.onBlocks (s : State) (f : RcbState → Work → Work) : State :=
  let r := runBlocks f s.blocks s.toEngine
  { s with toEngine := r.1, blocks := r.2 }

def State.onBlock (s : State) (key : String) (f : RcbState → Work → Work) : State :=
  s.onBlocks fun rs w => if rs.key = key then f rs w else w

def State.block (s : State) (key : String) : Option Block := s.blocks.find? fun b => b.rs.key == key

def intRange (btype : String) : Option (ℤ × ℤ) :=
  if btype = "INT8" then some (-2 ^ 7, 2 ^ 7 - 1)
  else if btype = "INT16" then some (-2 ^ 15, 2 ^ 15 - 1)
  else if btype = "INT32" then some (-2 ^ 31, 2 ^ 31 - 1)
  else if btype = "INT8U" then some (0, 2 ^ 8 - 1)
  else if btype = "INT16U" then some (0, 2 ^ 16 - 1)
  else if btype = "INT32U" then some (0, 2 ^ 32 - 1)
  else none

/-- Whether a value has the type, range and length of what an attribute holds. -/
def valueFits (da : DataAttribute) (v : Value) : Bool :=
  match (da.value.map Value.typeOf).or da.kind with
  | none => true
  | some .none => true
  | some want =>
    if v.typeOf ≠ want then false
    else
      match want with
      | .bitString => (da.value.map fun cur => v.bitLen == cur.bitLen).getD true
      | .integer => ((intRange da.btype).map fun (lo, hi) =>
          decide (lo ≤ v.asI64.toInt ∧ v.asI64.toInt ≤ hi)).getD true
      | .unsigned => ((intRange da.btype).map fun (_, hi) => decide ((v.asU64.toNat : ℤ) ≤ hi)).getD true
      | _ => true

def writePermitted (cfg : Config) (fc : Fc) : Except DataAccessError Unit :=
  if fc ∉ writableFcs cfg.writable then .error .objectAccessDenied
  else if fc = .se then .error .temporarilyUnavailable
  else .ok ()

def putItem (m : Model) (domain item : String) (v : Value) : Model :=
  match Access.writePath item with
  | none => m
  | some (object, fc, path) =>
    m.objectMut domain ((Text.split '$' item).headD "") object
      (Access.writeBelowMut fc (fun da => { da with value := some v }) path)

/-- Stores a write in the model, if the write policy, the type check and the write hook admit it; `refusal` is
the hook's answer. A control block attribute has been admitted by its own rules. -/
def storeItem (permitted : Fc → Except DataAccessError Unit) (m : Model) (changes : ChangeSet)
    (domain item : String) (v : Value) (controlBlock : Bool) (refusal : Option DataAccessError) :
    Except DataAccessError (Model × ChangeSet) :=
  match m.node domain ((Text.split '$' item).headD "") with
  | none => .error .objectNonExistent
  | some ln =>
    match Access.resolveWrite ln item with
    | none => .error .objectAccessUnsupported
    | some da => do
      if controlBlock then pure () else permitted da.fc
      if valueFits da v then pure () else .error .typeInconsistent
      match refusal with
      | some e => .error e
      | none => pure ()
      pure (putItem m domain item v,
        if controlBlock then changes
        else record changes (ObjectReference.fromMms domain item).1 da.fc da.trgOps da.value v)

def store (cfg : Config) (m : Model) (changes : ChangeSet) (domain item : String) (v : Value)
    (controlBlock : Bool) (refusal : Option DataAccessError) :
    Except DataAccessError (Model × ChangeSet) :=
  storeItem (writePermitted cfg) m changes domain item v controlBlock refusal

def peerIp : Option IpAddr → Option IpAddr
  | some (.v6 addr) =>
    match ipOctets (some (.v6 addr)) with
    | [a, b, c, d] => some (.v4 a b c d)
    | _ => some (.v6 addr)
  | ip => ip

/-- Applies one write of a request: a write to a report control block through the block's own rules,
any other through the write policy. -/
def writeOne (cfg : Config) (c : Ctx) (conn : ConnId) (domain item : String) (v : Value)
    (refusal : Option DataAccessError) (s : State) : State × Except DataAccessError Unit :=
  let ip := peerIp ((s.conns.lookup conn).bind ServerConn.peer)
  let changes := (s.changes.lookup conn).getD ∅
  match rcbKey domain item with
  | some (key, attr) =>
    match s.block key with
    | none => (s, .error .objectNonExistent)
    | some b =>
      match checkRcbWrite c s.model b.rs b.st attr v conn ip with
      | .error e => (s, .error e)
      | .ok () =>
        match store cfg s.model changes domain item v true refusal with
        | .error e => (s, .error e)
        | .ok (m, _) =>
          (({ s with model := m } : State).onBlock key (onRcbWrite c attr v conn ip), .ok ())
  | none =>
    match store cfg s.model changes domain item v false refusal with
    | .error e => (s, .error e)
    | .ok (m, changes) => ({ s with model := m, changes := s.changes.insert conn changes }, .ok ())

def defineNvl (m : Model) (domain list : String) (items : List (String × String)) : Model :=
  match Text.splitOnce '$' list with
  | none => m
  | some (ln, ds) =>
    match m.node domain ln with
    | none => m
    | some n =>
      if (n.dataSet ds).isSome then m
      else
        let entries := items.map fun (d, i) =>
          let (reference, fc) := ObjectReference.fromMms d i
          { reference := reference, fc := fc : Fcda }
        let dataSet : DataSet := { name := ds, entries := entries, deletable := true }
        m.nodeMut domain ln fun n => { n with dataSets := n.dataSets ++ [dataSet] }

def dataSetInUse (render : Render) (m : Model) (blocks : List Block) (domain ln ds : String) : Bool :=
  let reference := domain ++ "/" ++ ln ++ "$" ++ ds
  blocks.any (fun b => attrText render m b.rs "DatSet" == reference) ||
    ((m.node domain ln).map fun n =>
      n.gseControls.any (fun g => g.dataSet == ds) || n.svControls.any fun sv => sv.dataSet == ds).getD false

def deleteDataset (render : Render) (m : Model) (blocks : List Block) (domain list : String) : Model :=
  match Text.splitOnce '$' list with
  | none => m
  | some (ln, ds) =>
    match (m.node domain ln).bind fun n => n.dataSet ds with
    | none => m
    | some dataSet =>
      if !dataSet.deletable || dataSetInUse render m blocks domain ln ds then m
      else
        m.nodeMut domain ln fun n =>
          { n with dataSets := n.dataSets.filter fun d => d.name != ds }

/-- The assignments of an update: reference, constraint and value each. -/
abbrev Assignments := List (ObjectReference × Fc × Value)

inductive Step where
  | connect (peer : Option IpAddr) (maxPdu : ℕ)
  | beginRequest (conn : ConnId)
  /-- A Write request writes one of its items; `refusal` is what the write hook answers. -/
  | write (conn : ConnId) (domain item : String) (v : Value) (refusal : Option DataAccessError)
      (now : SystemTime)
  /-- A Write request operates a control, which changes status attributes. -/
  | operate (conn : ConnId) (sets : Assignments)
  /-- A Write request has written its items, and what they changed is reported. -/
  | reportWritten (conn : ConnId) (now : SystemTime)
  /-- The request is answered, or the answer could not be sent. -/
  | endRequest (conn : ConnId) (answered : Bool)
  | drain (conn : ConnId) (n : ℕ)
  /-- The transport is gone, and nothing drains the queue any more. -/
  | stall (conn : ConnId)
  /-- The application updates the model, from a thread of the runtime or not. -/
  | update (sets : Assignments) (now : SystemTime) (onRuntime : Bool)
  | defineDataSet (domain list : String) (items : List (String × String))
  | deleteDataSet (domain list : String)
  /-- Logs draw entry identifiers. -/
  | journal (n : ℕ)
  /-- A timer task acts, also one that was to be aborted and had already woken. -/
  | fire (task : Task) (now : SystemTime)
  | endAssociation (conn : ConnId) (now : SystemTime)

def reportChanges (c : Ctx) (changes : ChangeSet) (s : State) : State :=
  if changes.entries.isEmpty then s else s.onBlocks (onUpdateBlock c changes)

def queueHeld (conn : ConnId) : List (List UInt8) → State → ServerConn → State × ServerConn
  | [], s, sc => (s, sc)
  | pdu :: rest, s, sc =>
    let (sc, queued) := sc.trySend pdu
    let s := if queued then s else { s with dropped := s.dropped ++ [(conn, pdu)] }
    queueHeld conn rest s sc

def endRequest (conn : ConnId) (answered : Bool) (s : State) (sc : ServerConn) : State :=
  let held := sc.after
  let sc := { sc with inRequest := false, after := [] }
  let (s, sc) :=
    if answered then queueHeld conn held s sc
    else ({ s with dropped := s.dropped ++ held.map fun pdu => (conn, pdu) }, sc)
  { s with conns := s.conns.insert conn sc }

def fire (cfg : Config) (task : Task) (now : SystemTime) (s : State) : State :=
  let c := cfg.ctx now true
  match task with
  | .window key generation =>
    ({ s with tasks := s.tasks.erase task } : State).onBlock key (windowTask c generation)
  | .reservation key generation =>
    ({ s with tasks := s.tasks.erase task } : State).onBlock key (reservationTask generation)
  | .integrity key generation => s.onBlock key (integrityTask c generation)

def step (cfg : Config) (s : State) : Step → State
  | .connect peer maxPdu =>
    { s with
      conns := s.conns.insert s.nextConn { peer := peer, maxPdu := maxPdu }
      nextConn := s.nextConn + 1 }
  | .beginRequest conn =>
    match s.conns.lookup conn with
    | none => s
    | some sc => { s with conns := s.conns.insert conn { sc with inRequest := true } }
  | .write conn domain item v refusal now =>
    match s.conns.lookup conn with
    | none => s
    | some sc =>
      if sc.inRequest then (writeOne cfg (cfg.ctx now true) conn domain item v refusal s).1 else s
  | .operate conn sets =>
    match s.conns.lookup conn with
    | none => s
    | some _ =>
      let tx := Tx.setAll { model := s.model, changed := (s.changes.lookup conn).getD ∅ } sets
      { s with model := tx.model, changes := s.changes.insert conn tx.changed }
  | .reportWritten conn now =>
    match s.changes.lookup conn with
    | none => s
    | some changes =>
      reportChanges (cfg.ctx now true) changes { s with changes := s.changes.erase conn }
  | .endRequest conn answered =>
    match s.conns.lookup conn with
    | none => s
    | some sc => endRequest conn answered s sc
  | .drain conn n =>
    match s.conns.lookup conn with
    | none => s
    | some sc => { s with conns := s.conns.insert conn { sc with queue := sc.queue.drop n } }
  | .stall conn =>
    match s.conns.lookup conn with
    | none => s
    | some sc => { s with conns := s.conns.insert conn { sc with closed := true } }
  | .update sets now onRuntime =>
    let tx := Tx.setAll { model := s.model } sets
    reportChanges (cfg.ctx now onRuntime) tx.changed { s with model := tx.model }
  | .defineDataSet domain list items => { s with model := defineNvl s.model domain list items }
  | .deleteDataSet domain list =>
    { s with model := deleteDataset cfg.render s.model s.blocks domain list }
  | .journal n => { s with entryCounter := s.entryCounter + n }
  | .fire task now => if task ∈ s.tasks then fire cfg task now s else s
  | .endAssociation conn now =>
    match s.conns.lookup conn with
    | none => s
    | some sc =>
      if sc.inRequest then s
      else
        -- The association leaves the table before its blocks are disabled.
        let s := { s with conns := s.conns.erase conn, changes := s.changes.erase conn }
        s.onBlocks (disableConnBlock (cfg.ctx now true) conn)

def start (m : Model) (bufDefault : ℕ) (runtime : Bool) : State :=
  { model := materialiseModel m bufDefault
    conns := ∅
    entryCounter := 0
    runtime := runtime
    tasks := []
    blocks := (materialiseRegistry m bufDefault).entries.map fun b => { rs := b.2.1, st := b.2.2 }
    nextConn := 1 }

/-- A server just started: the registry holds its blocks in some order. -/
def Started (m : Model) (bufDefault : ℕ) (runtime : Bool) (s : State) : Prop :=
  ∃ blocks, blocks.Perm (start m bufDefault runtime).blocks ∧ s = { start m bufDefault runtime with blocks := blocks }

def run (cfg : Config) (s : State) (steps : List Step) : State := steps.foldl (step cfg) s

def sgcbName : String := "SGCB"

/-- One setting: its active and, when the model has one, its edited attribute, and a value for each
group. -/
structure Setting where
  sg : ObjectReference
  se : Option ObjectReference
  groups : List Value

/-- The setting groups of one logical device; no group is edited while `editSg` is zero. -/
structure SettingGroupManager where
  domain : String
  numOfSg : UInt8
  actSg : UInt8
  editSg : UInt8
  settings : List Setting

mutual
def collectSettingAttr (fc : Fc) (path : ObjectReference) : DataAttribute → List String
  | ⟨_, fc', _, _, _, children, _, _, _⟩ =>
    if children.isEmpty then (if fc' = fc then [path.text] else [])
    else collectSettingAttrList fc path children

def collectSettingAttrList (fc : Fc) (path : ObjectReference) : List DataAttribute → List String
  | [] => []
  | c :: cs => collectSettingAttr fc (path.child c.name) c ++ collectSettingAttrList fc path cs
end

mutual
def collectSettingAttrs (fc : Fc) (base : ObjectReference) : DataObject → List String
  | ⟨_, objects, attributes, _⟩ =>
    collectSettingAttrList fc base attributes ++ collectSettingAttrsList fc base objects

def collectSettingAttrsList (fc : Fc) (base : ObjectReference) : List DataObject → List String
  | [] => []
  | s :: ss => collectSettingAttrs fc (base.child s.name) s ++ collectSettingAttrsList fc base ss
end

def settingPaths (fc : Fc) (ld : LogicalDevice) : List String :=
  (ld.nodes.flatMap fun ln => ln.objects.flatMap fun o =>
    collectSettingAttrs fc ⟨ld.name ++ "/" ++ ln.name ++ "." ++ o.name⟩ o).dedup.insertionSort (· ≤ ·)

def lookupValue (ld : LogicalDevice) (r : ObjectReference) (fc : Fc) : Option Value :=
  match r.path with
  | ln :: object :: rest =>
    (((ld.node ln).bind fun n => n.object object).bind fun o => o.attributeAt fc rest).bind DataAttribute.value
  | _ => none

/-- The control block, with a reservation time when the configuration declares one. -/
def buildSgcb (numOfSg : UInt8) (resvTms : UInt32) (lActTm : Value) : DataObject :=
  let attr (name : String) (v : Value) : DataAttribute :=
    { name := name, fc := .sp, kind := some v.typeOf, value := some v }
  { name := sgcbName
    attributes :=
      [ attr "NumOfSG" (.uint8 numOfSg),
        attr "ActSG" (.uint8 1),
        attr "EditSG" (.uint8 0),
        attr "CnfEdit" (.boolean false),
        attr "LActTm" lActTm ] ++
      if 0 < resvTms then [attr "ResvTms" (.uint32 resvTms)] else [] }

def declaredSettingGroups (ld : LogicalDevice) : Option SettingControl :=
  ld.nodes.findSome? fun ln => ln.settingControl.filter fun sc => 0 < sc.numOfSgs

/-- Pairs the settings of a device and puts its control block into `LLN0`, unless it has no setting and
declares no groups, or has no `LLN0`. -/
def buildManager (ld : LogicalDevice) (numOfSg : UInt8) (resvTms : UInt32) (now : Value)
    (declared : Bool) : Option (LogicalDevice × SettingGroupManager) :=
  let sgPaths := settingPaths .sg ld
  let sePaths := settingPaths .se ld
  if sgPaths.isEmpty && !declared then none
  else
    let setting (path : String) : Setting :=
      { sg := ⟨path⟩
        se := if sePaths.contains path then some ⟨path⟩ else none
        groups := List.replicate numOfSg.toNat ((lookupValue ld ⟨path⟩ .sg).getD .none) }
    (ld.node "LLN0").map fun _ =>
      let addSgcb (ln : LogicalNode) : LogicalNode :=
        { ln with objects := ln.objects ++ [buildSgcb numOfSg resvTms now] }
      ({ ld with nodes := FirstMatch.update (fun n => n.name == "LLN0") addSgcb ld.nodes },
        { domain := ld.name, numOfSg := numOfSg, actSg := 1, editSg := 0
          settings := sgPaths.map setting })

def seedGroups (groups : List SettingGroup) (mgr : SettingGroupManager) : SettingGroupManager :=
  let seed (settings : List Setting) (g : SettingGroup) : List Setting :=
    if g.ld ≠ mgr.domain ∨ g.number = 0 ∨ mgr.numOfSg.toNat < g.number then settings
    else settings.map fun s =>
      match g.values.lookup s.sg.text with
      | some v => { s with groups := s.groups.set (g.number - 1) v }
      | none => s
  { mgr with settings := groups.foldl seed mgr.settings }

/-- The device with its control block, and its manager when it has one. -/
def materialiseSgcb (seeds : List SettingGroup) (numOfSg : UInt8) (now : Value) (ld : LogicalDevice) :
    LogicalDevice × Option SettingGroupManager :=
  let declared := declaredSettingGroups ld
  let n := (declared.map SettingControl.numOfSgs).getD numOfSg
  let resvTms := (declared.map SettingControl.resvTms).getD 0
  if n = 0 then (ld, none)
  else
    match buildManager ld n resvTms now declared.isSome with
    | none => (ld, none)
    | some (ld, mgr) =>
      let mgr := seedGroups seeds mgr
      match (declared.map SettingControl.actSg).filter fun a => 1 ≤ a && a ≤ n with
      | none => (ld, some mgr)
      | some act =>
        let setAct (ln : LogicalNode) : LogicalNode :=
          let objects := FirstMatch.update (fun o => o.name == sgcbName)
            (setObjectAttr "ActSG" (.uint8 act)) ln.objects
          { ln with objects := objects }
        ({ ld with nodes := FirstMatch.update (fun n => n.name == "LLN0") setAct ld.nodes },
          some { mgr with actSg := act })

def materialiseSgcbs (m : Model) (numOfSg : UInt8) (now : Value) : Model × Table String SettingGroupManager :=
  let devices := m.devices.map (materialiseSgcb m.settingGroups numOfSg now)
  ({ m with devices := devices.map Prod.fst },
    devices.foldl (fun t d =>
      match d.2 with
      | some mgr => t.insert d.1.name mgr
      | none => t) ∅)

def isSgcbWrite (item : String) : Option String :=
  match Text.split '$' item with
  | [ln, fc, object, attr] =>
    if ln = "LLN0" ∧ fc = "SP" ∧ object = sgcbName then some attr else none
  | _ => none

namespace Setting

def value (s : Setting) (g : UInt8) : Value := s.groups.getD (g.toNat - 1) .none

def edited (m : Model) (s : Setting) : Option (ObjectReference × Value) :=
  (s.se.bind fun se => (m.attribute se .se).bind DataAttribute.value).map fun v => (s.sg, v)

def confirm (m : Model) (g : UInt8) (s : Setting) : Setting :=
  match s.edited m with
  | some (_, v) => { s with groups := s.groups.set (g.toNat - 1) v }
  | none => s

end Setting

namespace SettingGroupManager

/-- Decides a write of the control block: a group number must be one of the groups, zero ends editing, and an
edit is confirmed only while one is open. -/
def checkWrite (mgr : SettingGroupManager) (attr : String) (v : Value) : Except DataAccessError Unit :=
  let g := v.asI64.toInt
  let n : ℤ := mgr.numOfSg.toNat
  if attr = "ActSG" then
    if 1 ≤ g ∧ g ≤ n then .ok () else .error .objectValueInvalid
  else if attr = "EditSG" then
    if 0 ≤ g ∧ g ≤ n then .ok () else .error .objectValueInvalid
  else if attr = "CnfEdit" then
    if v.asBool && !(1 ≤ mgr.editSg && mgr.editSg ≤ mgr.numOfSg) then .error .temporarilyUnavailable
    else .ok ()
  else .error .objectAccessDenied

def setSgcb (mgr : SettingGroupManager) (m : Model) (attr : String) (v : Value) : Model :=
  m.objectMut mgr.domain "LLN0" sgcbName (setObjectAttr attr v)

def writeAttrs (fc : Fc) (m : Model) (updates : List (ObjectReference × Value)) : Model :=
  updates.foldl (fun m u => m.setAttribute u.1 fc u.2) m

/-- Applies a write that the check admitted and the model holds. The time `now` is put into the block
when the active group changes. -/
def onSgcbWrite (mgr : SettingGroupManager) (now : Value) (m : Model) (attr : String) (v : Value) :
    SettingGroupManager × Model :=
  let g := v.asI64.toUInt64.toUInt8
  if attr = "ActSG" then
    if g < 1 ∨ mgr.numOfSg < g then (mgr, m)
    else
      let m := mgr.setSgcb (mgr.setSgcb m "ActSG" (.uint8 g)) "LActTm" now
      ({ mgr with actSg := g }, writeAttrs .sg m (mgr.settings.map fun s => (s.sg, s.value g)))
  else if attr = "EditSG" then
    let m := mgr.setSgcb m "EditSG" (.uint8 g)
    ({ mgr with editSg := g },
      if 1 ≤ g ∧ g ≤ mgr.numOfSg then
        writeAttrs .se m (mgr.settings.filterMap fun s => s.se.map fun se => (se, s.value g))
      else m)
  else if attr = "CnfEdit" then
    if !v.asBool ∨ mgr.editSg < 1 ∨ mgr.numOfSg < mgr.editSg then (mgr, m)
    else
      let settings := mgr.settings.map (Setting.confirm m mgr.editSg)
      -- The edited values become the ones in effect when the edited group is the active one.
      let live := if mgr.editSg = mgr.actSg then mgr.settings.filterMap (Setting.edited m) else []
      let m := writeAttrs .sg m live
      ({ mgr with editSg := 0, settings := settings },
        mgr.setSgcb (mgr.setSgcb m "EditSG" (.uint8 0)) "CnfEdit" (.boolean false))
  else (mgr, m)

end SettingGroupManager

/-- A point in time of a clock that never goes back, in nanoseconds. -/
abbrev Instant := ℕ

def selectTimeout : ℕ := 30 * 1000000000

/-- A reservation. A select by reading carries no control number. `serial` is kept for reasoning. -/
structure Selection where
  conn : ConnId
  expiry : Instant
  ctlNum : Option UInt8
  serial : ℕ

/-- The table of reservations, those that have expired included. -/
abbrev Selections := Table ObjectReference Selection

namespace Selections

def reserve (sels : Selections) (reference : ObjectReference) (conn : ConnId) (ctlNum : Option UInt8)
    (timeout : ℕ) (now : Instant) (serial : ℕ) : Option Selections :=
  let insert := sels.insert reference
    { conn := conn, expiry := now + timeout, ctlNum := ctlNum, serial := serial }
  match sels.lookup reference with
  | some sel => if sel.conn ≠ conn ∧ now < sel.expiry then none else some insert
  | none => some insert

def checkNumber (sel : Selection) (ctlNum : UInt8) : AddCause :=
  match sel.ctlNum with
  | some n => if n ≠ ctlNum then AddCause.inconsistentParameters else AddCause.none
  | none => AddCause.none

def checkOperate (sels : Selections) (reference : ObjectReference) (conn : ConnId) (ctlNum : UInt8)
    (now : Instant) : AddCause :=
  match sels.lookup reference with
  | none => AddCause.objectNotSelected
  | some sel =>
    if sel.conn ≠ conn ∨ sel.expiry ≤ now then AddCause.objectNotSelected
    else checkNumber sel ctlNum

def checkCancel (sels : Selections) (reference : ObjectReference) (conn : ConnId) (ctlNum : UInt8)
    (now : Instant) : AddCause :=
  match sels.lookup reference with
  | none => AddCause.none
  | some sel =>
    if sel.expiry ≤ now then AddCause.none
    else if sel.conn ≠ conn then AddCause.objectNotSelected
    else checkNumber sel ctlNum

def clear (sels : Selections) (reference : ObjectReference) : Selections := sels.erase reference

def releaseConn (sels : Selections) (conn : ConnId) : Selections :=
  sels.retain fun _ sel => sel.conn != conn

variable {sels sels' : Selections} {reference : ObjectReference} {conn : ConnId} {ctlNum : Option UInt8}
  {timeout serial : ℕ} {now : Instant} {sel : Selection}

lemma reserve_eq_some (h : sels.reserve reference conn ctlNum timeout now serial = some sels') :
    sels' = sels.insert reference
      { conn := conn, expiry := now + timeout, ctlNum := ctlNum, serial := serial } ∧
    ∀ sel, sels.lookup reference = some sel → sel.conn = conn ∨ sel.expiry ≤ now := by
  unfold reserve at h
  split at h
  next sel hsel =>
    split at h
    · cases h
    next hfree =>
    refine ⟨(Option.some.inj h).symm, ?_⟩
    intro sel' hsel'
    obtain rfl := Option.mem_unique hsel hsel'
    by_cases hconn : sel.conn = conn
    · exact .inl hconn
    · exact .inr (not_lt.mp fun hlv => hfree ⟨hconn, hlv⟩)
  next hno =>
    refine ⟨(Option.some.inj h).symm, ?_⟩
    intro sel hsel
    rw [hno] at hsel
    cases hsel

variable {n : UInt8}

lemma checkNumber_eq_none (h : checkNumber sel n = AddCause.none) : ∀ m, sel.ctlNum = some m → m = n := by
  intro m hm
  unfold checkNumber at h
  rw [hm] at h
  dsimp only at h
  by_contra hne
  rw [if_pos hne] at h
  cases h

lemma checkOperate_eq_none (h : sels.checkOperate reference conn n now = AddCause.none) :
    ∃ sel, sels.lookup reference = some sel ∧ sel.conn = conn ∧ now < sel.expiry ∧
      ∀ m, sel.ctlNum = some m → m = n := by
  unfold checkOperate at h
  split at h
  · cases h
  next sel hsel =>
  split at h
  · cases h
  next hheld =>
    obtain ⟨hconn, hlv⟩ := not_or.mp hheld
    exact ⟨sel, hsel, not_not.mp hconn, not_le.mp hlv, checkNumber_eq_none h⟩

lemma checkCancel_eq_none (h : sels.checkCancel reference conn n now = AddCause.none)
    (hsel : sels.lookup reference = some sel) : sel.conn = conn ∨ sel.expiry ≤ now := by
  unfold checkCancel at h
  rw [hsel] at h
  dsimp only at h
  split at h
  · next hexp => exact .inr hexp
  split at h
  · cases h
  · next hconn => exact .inl (not_not.mp hconn)

lemma lookup_releaseConn {r : ObjectReference} :
    (sels.releaseConn conn).lookup r = some sel ↔ sels.lookup r = some sel ∧ sel.conn ≠ conn := by
  rw [releaseConn, Table.lookup_retain_eq_some]
  simp

end Selections

/-- Which control attribute an item addresses. -/
inductive Phase where
  /-- The select with a value. -/
  | sbow
  | oper
  | cancel
  /-- The select of normal security, which is a read. -/
  | sbo
deriving DecidableEq

namespace Phase

def name : Phase → String
  | sbow => "SBOw"
  | oper => "Oper"
  | cancel => "Cancel"
  | sbo => "SBO"

def fromName (s : String) : Option Phase := [sbow, oper, cancel, sbo].find? fun p => p.name == s

end Phase

structure ControlCtx where
  reference : ObjectReference
  value : Value := .none
  origin : OrCat := .notSupported
  orIdent : String := ""
  ctlNum : UInt8 := 0
  test : Bool := false
  interlockCheck : Bool := false
  synchroCheck : Bool := false
  select : Bool := false
  t : Option SystemTime := none
  tQuality : UInt8 := 0
  orIdentLen : ℕ := 0
  conn : ConnId
  peer : Option IpAddr

def maxOrIdentLen : ℕ := 64

def splitControl (item : String) : Option (String × Phase) :=
  let parts := Text.split '$' item
  if parts.length < 4 ∨ parts.getD 1 "" ≠ "CO" then none
  else
    (List.range' 3 (parts.length - 3)).reverse.findSome? fun i =>
      (Phase.fromName (parts.getD i "")).map fun phase => (Text.join '$' (parts.take i), phase)

def controlRef (domain base : String) : ObjectReference :=
  let parts := Text.split '$' base
  ⟨domain ++ "/" ++ Text.join '.' (parts.headD "" :: parts.drop 2)⟩

/-- The fields of an operate: the value, the originator, the number, the time, the test flag and the
checks. -/
def decodeOper (reference : ObjectReference) (v : Value) (conn : ConnId) (peer : Option IpAddr) :
    ControlCtx :=
  let ctx : ControlCtx := { reference := reference, conn := conn, peer := peer }
  match v with
  | .struct members =>
    let origin := match members[1]? with
      | some (.struct o) => o
      | _ => []
    { ctx with
      value := (members[0]?).getD .none
      origin := ((origin[0]?).map fun cat => OrCat.fromCode cat.asI64.toInt8.toUInt8).getD .notSupported
      orIdent := ((origin[1]?).map fun ident => Text.fromUtf8Lossy ident.bytes).getD ""
      orIdentLen := ((origin[1]?).map fun ident => ident.bytes.length).getD 0
      ctlNum := ((members[2]?).map fun n => n.asI64.toInt8.toUInt8).getD 0
      t := (members[3]?).bind Value.time
      tQuality := ((members[3]?).map Value.timeQuality).getD 0
      test := ((members[4]?).map Value.asBool).getD false
      synchroCheck := ((members[5]?).map fun check => check.bit 0).getD false
      interlockCheck := ((members[5]?).map fun check => check.bit 1).getD false }
  | _ => ctx

def declaredCtlModel (m : Model) (reference : ObjectReference) : Option CtlModel :=
  ((m.attribute (reference.child "ctlModel") .cf).bind DataAttribute.value).map fun v =>
    CtlModel.fromCode v.asI64.toInt8.toUInt8

def cfMillis (m : Model) (reference : ObjectReference) (name : String) : ℕ :=
  (((m.attribute (reference.child name) .cf).bind DataAttribute.value).map fun v =>
    v.asU64.toNat * 1000000).getD 0

def dbposValue (bits : ℕ) : Value :=
  ((Value.bitString (BitString.new 2)).setBit 0 (bits.testBit 1)).setBit 1 (bits.testBit 0)

/-- The `stVal` a control value stands for, if any: a flag is on or off for a double point, any other value
has to be of the type of the status. -/
def statusValue (da : DataAttribute) (ctlVal : Value) : Option Value :=
  let dbpos : Bool := Text.toAsciiUppercase da.btype == "DBPOS" ||
    (da.kind == some .bitString && (da.value.map fun v => v.bitLen == 2).getD false)
  let kind := ctlVal.typeOf
  let sameType : Bool := (da.kind.map fun k => k == kind).getD true &&
    (da.value.map fun v => v.typeOf == kind).getD true
  match ctlVal with
  | .none => none
  | .boolean on => if dbpos then some (dbposValue (if on then 2 else 1)) else
      if sameType then some ctlVal else none
  | _ => if sameType then some ctlVal else none

def applyControl (tx : Tx) (reference : ObjectReference) (ctlVal : Value) : Tx :=
  let stRef := reference.child "stVal"
  match tx.model.attributeMut stRef .st with
  | none => tx
  | some da =>
    if !da.children.isEmpty then tx
    else
      match statusValue da ctlVal with
      | none => tx
      | some status =>
        { model := tx.model.setAttribute stRef .st status
          changed := record tx.changed stRef .st da.trgOps da.value status }

end Iec61850.Server
