import Iec61850.ServerEngine

/-! The attributes of a control block as the engine reads and sets them, what its operations leave alone, and what
they do to the runtime state of a block. -/
namespace Iec61850.Server
open Mms FirstMatch

def RcbState.path (rs : RcbState) : String × String × String := (rs.domain, rs.lnName, rs.objectName)

def RcbState.fc (rs : RcbState) : Fc := if rs.buffered then .br else .rp

def rcbAttributes (buffered : Bool) : List String :=
  if buffered then
    ["RptID", "RptEna", "DatSet", "ConfRev", "OptFlds", "BufTm", "SqNum", "TrgOps", "IntgPd", "GI",
      "PurgeBuf", "Owner", "EntryID", "TimeofEntry", "ResvTms"]
  else
    ["RptID", "RptEna", "Resv", "DatSet", "ConfRev", "OptFlds", "BufTm", "SqNum", "TrgOps", "IntgPd", "GI"]

/-- A data object has the form of a block: the block's attributes, each with a value, and nothing
below them. -/
structure RcbObject (rs : RcbState) (o : DataObject) : Prop where
  objects : o.objects = []
  names : o.attributes.map DataAttribute.name = rcbAttributes rs.buffered
  attributes : ∀ a ∈ o.attributes, a.fc = rs.fc ∧ a.children = [] ∧ a.value.isSome = true

/-- What the model holds for the block has the form of a block. -/
def Shaped (m : Model) (rs : RcbState) : Prop :=
  ∃ o, m.object rs.domain rs.lnName rs.objectName = some o ∧ RcbObject rs o

variable {rs : RcbState} {name other : String}

lemma RcbObject.onAttribute {o : DataObject} (h : RcbObject rs o) (test : DataAttribute → Bool) (v : Value) :
    RcbObject rs { o with attributes := update test (fun a => { a with value := some v }) o.attributes } := by
  refine ⟨h.objects, ?_, ?_⟩
  · rw [← h.names]
    apply map_update
    intro a
    rfl
  intro a ha
  rcases mem_update ha with ha | ⟨a', ha', rfl⟩
  · exact h.attributes a ha
  · exact ⟨(h.attributes a' ha').1, (h.attributes a' ha').2.1, rfl⟩

def HasAttr (m : Model) (rs : RcbState) (name : String) : Prop :=
  ((m.object rs.domain rs.lnName rs.objectName).bind fun o => o.attr name).isSome = true

lemma Shaped.hasAttr {m : Model} (h : Shaped m rs) (hn : name ∈ rcbAttributes rs.buffered) : HasAttr m rs name := by
  obtain ⟨o, ho, hobj⟩ := h
  rw [← hobj.names] at hn
  obtain ⟨a, ha, rfl⟩ := List.mem_map.mp hn
  rw [HasAttr, ho, Option.bind_some, DataObject.attr, List.find?_isSome]
  exact ⟨a, ha, by simp⟩

lemma attr_setObjectAttr_same (name : String) (v : Value) (o : DataObject) :
    (setObjectAttr name v o).attr name = (o.attr name).map fun a => { a with value := some v } := by
  apply find_update_same
  intro a h
  exact h

lemma attr_setObjectAttr_other (h : other ≠ name) (v : Value)
    (o : DataObject) : (setObjectAttr name v o).attr other = o.attr other := by
  apply find_update_other
  intro a ha
  have hn : a.name = name := by simpa using ha
  simp [hn, Ne.symm h]

variable (m : Model) (rs : RcbState) (v : Value) {rs' : RcbState}

lemma object_setAttr_same : (setAttr m rs name v).object rs.domain rs.lnName rs.objectName =
    (m.object rs.domain rs.lnName rs.objectName).map (setObjectAttr name v) := by
  apply Model.object_objectMut_same
  intro o
  rfl

lemma attrValue_setAttr_same (h : HasAttr m rs name) : attrValue (setAttr m rs name v) rs name = some v := by
  rw [attrValue, object_setAttr_same]
  rw [HasAttr] at h
  cases ho : m.object rs.domain rs.lnName rs.objectName with
  | none => simp [ho] at h
  | some o =>
    obtain ⟨a, ha⟩ : ∃ a, o.attr name = some a := by simpa [ho, Option.isSome_iff_exists] using h
    simp [attr_setObjectAttr_same, ha]

lemma attrValue_setAttr_ne (h : other ≠ name) : attrValue (setAttr m rs name v) rs other = attrValue m rs other := by
  rw [attrValue, object_setAttr_same, attrValue]
  cases m.object rs.domain rs.lnName rs.objectName with
  | none => rfl
  | some o => simp [attr_setObjectAttr_other h]

lemma hasAttr_setAttr (other : String) : HasAttr (setAttr m rs name v) rs other ↔ HasAttr m rs other := by
  rw [HasAttr, HasAttr, object_setAttr_same]
  rcases m.object rs.domain rs.lnName rs.objectName with _ | o
  · rfl
  by_cases h : other = name
  · subst h
    simp [attr_setObjectAttr_same]
  · simp [attr_setObjectAttr_other h]

lemma shaped_setAttr (h : Shaped m rs) : Shaped (setAttr m rs name v) rs := by
  obtain ⟨o, ho, hobj⟩ := h
  refine ⟨setObjectAttr name v o, ?_, hobj.onAttribute _ v⟩
  rw [object_setAttr_same, ho]
  rfl

lemma object_setAttr_other (h : rs'.path ≠ rs.path) :
    (setAttr m rs name v).object rs'.domain rs'.lnName rs'.objectName =
      m.object rs'.domain rs'.lnName rs'.objectName := by
  refine Model.object_objectMut_other m ?_ h
  intro o
  rfl

lemma resolveDataSet_congr {m m' : Model} (h : ∀ d l ds, ((m'.node d l).bind fun n => n.dataSet ds) =
    (m.node d l).bind fun n => n.dataSet ds) {reference : String} :
    resolveDataSet m' reference = resolveDataSet m reference := by
  have hm : ∀ d l, datasetMembers m' d l = datasetMembers m d l := by
    intro d l
    simp only [datasetMembers, h]
  simp only [resolveDataSet, h, hm]

/-- From `m` to `m'` only the named attributes of one block have changed, and only in value. -/
structure ModelFrame (names : List String) (rs : RcbState) (m m' : Model) : Prop where
  attr : ∀ n ∉ names, attrValue m' rs n = attrValue m rs n
  hasAttr : ∀ n, HasAttr m' rs n ↔ HasAttr m rs n
  shaped : Shaped m rs → Shaped m' rs
  other : ∀ rs' : RcbState, rs'.path ≠ rs.path →
    m'.object rs'.domain rs'.lnName rs'.objectName = m.object rs'.domain rs'.lnName rs'.objectName
  dataSet : ∀ d l ds, ((m'.node d l).bind fun n => n.dataSet ds) = (m.node d l).bind fun n => n.dataSet ds

namespace ModelFrame
variable {names : List String} {rs : RcbState} {m m' m'' : Model}

lemma refl : ModelFrame names rs m m :=
  ⟨fun _ _ => rfl, fun _ => Iff.rfl, id, fun _ _ => rfl, fun _ _ _ => rfl⟩

lemma trans (h : ModelFrame names rs m m') (h' : ModelFrame names rs m' m'') : ModelFrame names rs m m'' := by
  refine ⟨?_, ?_, fun hs => h'.shaped (h.shaped hs), ?_, ?_⟩
  · intro n hn
    rw [h'.attr n hn, h.attr n hn]
  · intro n
    rw [h'.hasAttr n, h.hasAttr n]
  · intro rs' hrs
    rw [h'.other rs' hrs, h.other rs' hrs]
  · intro d l ds
    rw [h'.dataSet, h.dataSet]

lemma setAttr (hn : name ∈ names) (v : Value) : ModelFrame names rs m (setAttr m rs name v) := by
  refine ⟨?_, ?_, shaped_setAttr m rs v, ?_, ?_⟩
  · intro n hn'
    apply attrValue_setAttr_ne
    rintro rfl
    exact hn' hn
  · exact hasAttr_setAttr m rs v
  · intro rs' h
    exact object_setAttr_other m rs v h
  · intro d l ds
    exact Model.dataSet_objectMut m d l ds

section
variable (h : ModelFrame names rs m m')
include h

lemma mono {names' : List String} (hs : names ⊆ names') : ModelFrame names' rs m m' :=
  ⟨fun n hn => h.attr n fun h => hn (hs h), h.hasAttr, h.shaped, h.other, h.dataSet⟩

lemma resolveDataSet_eq (reference : String) :
    resolveDataSet m' reference = resolveDataSet m reference := resolveDataSet_congr h.dataSet

lemma attrValue_other (hne : rs'.path ≠ rs.path) (n : String) : attrValue m' rs' n = attrValue m rs' n := by
  rw [attrValue, attrValue, h.other rs' hne]

lemma attrValue_any {n : String} (hn : n ∉ names) (rs' : RcbState) : attrValue m' rs' n = attrValue m rs' n := by
  by_cases hp : rs'.path = rs.path
  · obtain ⟨hd, hl, ho⟩ := triple_inj hp
    have hat := h.attr n hn
    simp only [attrValue, hd, hl, ho] at hat ⊢
    exact hat
  · exact h.attrValue_other hp n

end

end ModelFrame

def emittedAttrs : List String := ["SqNum", "EntryID", "TimeofEntry"]

def reservedAttrs : List String := ["Owner", "Resv"]

def servedAttrs : List String := emittedAttrs ++ reservedAttrs ++ ["GI", "PurgeBuf", "ConfRev"]

/-- From `w` to `w'` the model changes in the named attributes only, no association comes or goes,
and entry identifiers are only drawn. -/
structure Frame (names : List String) (rs : RcbState) (w w' : Work) : Prop where
  model : ModelFrame names rs w.model w'.model
  conns : ∀ conn, (w'.conns.lookup conn).isSome = (w.conns.lookup conn).isSome
  counter : w.entryCounter ≤ w'.entryCounter

namespace Frame
variable {names : List String} {rs : RcbState} {w w' w'' : Work}

lemma refl : Frame names rs w w := ⟨.refl, fun _ => rfl, le_rfl⟩

lemma trans (h : Frame names rs w w') (h' : Frame names rs w' w'') : Frame names rs w w'' := by
  refine ⟨h.model.trans h'.model, ?_, Nat.le_trans h.counter h'.counter⟩
  intro conn
  rw [h'.conns, h.conns]

lemma mono {names' : List String} (h : Frame names rs w w') (hs : names ⊆ names') :
    Frame names' rs w w' := ⟨h.model.mono hs, h.conns, h.counter⟩

lemma of_eq (hm : w'.model = w.model) (hc : w'.conns = w.conns)
    (he : w'.entryCounter = w.entryCounter) : Frame names rs w w' := by
  refine ⟨hm ▸ .refl, ?_, Nat.le_of_eq he.symm⟩
  intro conn
  rw [hc]

end Frame

variable {c : Ctx} {rs : RcbState} {e : ReportEntry} {w w' w'' : Work} {names : List String} {conn : ConnId} {ip : Option IpAddr} {attr : String} {v : Value} {generation : ℕ}

def Linked (w : Work) (conn : ConnId) (sc : ServerConn) : Prop :=
  w.st.conn = some conn ∧ w.conns.lookup conn = some sc

lemma transmit_cases (c : Ctx) (rs : RcbState) (e : ReportEntry) (w : Work) :
    (transmit c rs e w = w ∧ ∀ conn sc, ¬ Linked w conn sc) ∨
    ∃ conn sc, Linked w conn sc ∧ transmit c rs e w = transmitTo c rs e conn sc w := by
  rcases hconn : w.st.conn with _ | conn
  · left
    refine ⟨by simp [transmit, hconn], ?_⟩
    rintro conn sc ⟨h, -⟩
    simp [hconn] at h
  cases hsc : w.conns.lookup conn with
  | none =>
    left
    refine ⟨by simp [transmit, hconn, hsc], ?_⟩
    rintro conn' sc ⟨h, h'⟩
    rw [hconn, Option.some_inj] at h
    subst h
    simp [hsc] at h'
  | some sc =>
    right
    exact ⟨conn, sc, ⟨hconn, hsc⟩, by simp [transmit, hconn, hsc]⟩

lemma transmit_frame : Frame emittedAttrs rs w (transmit c rs e w) := by
  rcases transmit_cases c rs e w with ⟨h, -⟩ | ⟨conn, sc, hl, h⟩
  · rw [h]
    exact .refl
  rw [h]
  refine ⟨.setAttr (by simp [emittedAttrs]) _, ?_, le_rfl⟩
  intro conn'
  by_cases hc : conn' = conn
  · subst hc
    simp [transmitTo, setSqNum, hl.2]
  · simp [transmitTo, setSqNum, AList.lookup_insert_ne hc]

lemma advance_frame : Frame names rs w (advance w) := .of_eq rfl rfl rfl

variable {Q : Work → Prop}

lemma transmitFrom_rule
    (hs : ∀ w e, w.st.buffer[w.st.next]? = some e → Q w → Q (advance (transmit c rs e w))) (fuel : ℕ) (w : Work)
    (h : Q w) : Q (transmitFrom c rs fuel w) := by
  induction fuel generalizing w with
  | zero => exact h
  | succ fuel ih =>
    rw [transmitFrom]
    split
    · exact h
    · next e he => exact ih _ (hs w e he h)

lemma transmitFrom_frame (fuel : ℕ) (w : Work) : Frame emittedAttrs rs w (transmitFrom c rs fuel w) :=
  transmitFrom_rule (fun _ _ _ h => h.trans (transmit_frame.trans advance_frame)) fuel w .refl

lemma transmitBuffered_frame : Frame emittedAttrs rs w (transmitBuffered c rs w) :=
  transmitFrom_frame _ w

lemma discardOne_toEngine (w : Work) : (discardOne w).toEngine = w.toEngine := by
  rw [discardOne]
  split
  · rfl
  · split <;> rfl

lemma discardOldest_rule (hd : ∀ w, Q w → Q (discardOne w)) (fuel : ℕ) (w : Work) (h : Q w) :
    Q (discardOldest rs fuel w) := by
  induction fuel generalizing w with
  | zero => exact h
  | succ fuel ih =>
    rw [discardOldest]
    split
    · exact ih _ (hd w h)
    · exact h

lemma discardOldest_toEngine (rs : RcbState) (fuel : ℕ) (w : Work) :
    (discardOldest rs fuel w).toEngine = w.toEngine :=
  discardOldest_rule (fun w' h => (discardOne_toEngine w').trans h) fuel w rfl

lemma keep_frame : Frame emittedAttrs rs w (keep c rs e w) := by
  refine ⟨?_, fun _ => rfl, Nat.le_succ _⟩
  refine ModelFrame.trans (.setAttr ?_ _) (.setAttr ?_ _)
  · simp [emittedAttrs]
  · simp [emittedAttrs]

def stamped (c : Ctx) (e : ReportEntry) : ReportEntry := { e with time := c.now }

lemma emit_unbuffered (hb : rs.buffered = false) : emit c rs e w = if w.st.enabled then
      transmit c rs (stamped c e) (note (.committed (stamped c e)) w)
      else note (.committed (stamped c e)) w := by
  simp only [emit, hb]
  rfl

def kept (c : Ctx) (rs : RcbState) (e : ReportEntry) (w : Work) : Work :=
  discardOldest rs (w.st.buffer.length + 1) (keep c rs (stamped c e) w)

lemma emit_buffered (hb : rs.buffered) :
    emit c rs e w = if (kept c rs e w).st.enabled then transmitBuffered c rs (kept c rs e w)
      else kept c rs e w := by
  have hlen : (keep c rs (stamped c e) w).st.buffer.length = w.st.buffer.length + 1 := by
    simp [keep, nextEntryId, note]
  simp only [emit, hb, kept, ← hlen]
  rfl

lemma kept_frame : Frame emittedAttrs rs w (kept c rs e w) := by
  have h := discardOldest_toEngine rs (w.st.buffer.length + 1) (keep c rs (stamped c e) w)
  apply keep_frame.trans
  apply Frame.of_eq
  · rw [kept, h]
  · rw [kept, h]
  · rw [kept, h]

lemma emit_frame : Frame emittedAttrs rs w (emit c rs e w) := by
  cases hb : rs.buffered with
  | false =>
    have hn : Frame emittedAttrs rs w (note (.committed (stamped c e)) w) := .of_eq rfl rfl rfl
    rw [emit_unbuffered hb]
    split
    · exact hn.trans transmit_frame
    · exact hn
  | true =>
    rw [emit_buffered hb]
    split
    · exact kept_frame.trans transmitBuffered_frame
    · exact kept_frame

lemma closeWindow_frame : Frame names rs w (closeWindow w) :=
  .of_eq rfl rfl rfl

lemma spawn_eq {task : Task} (h : spawn c task w = some w') :
    w' = { w with runtime := true, tasks := w.tasks ++ [task] } := by
  rw [spawn] at h
  split at h
  · exact (Option.some.inj h).symm
  · simp at h

lemma spawn_getD_eq (c : Ctx) (task : Task) (w : Work) : (spawn c task w).getD w = w ∨
    (spawn c task w).getD w = { w with runtime := true, tasks := w.tasks ++ [task] } := by
  cases h : spawn c task w with
  | none => exact .inl rfl
  | some w' => exact .inr (spawn_eq h)

lemma spawn_getD_frame (task : Task) : Frame names rs w ((spawn c task w).getD w) := by
  rcases spawn_getD_eq c task w with h | h
  · rw [h]
    exact .refl
  · rw [h]
    exact .of_eq rfl rfl rfl

lemma note_frame (ev : Event) : Frame names rs w (note ev w) :=
  .of_eq rfl rfl rfl

/-- The rule for what the events of a block keep. -/
structure EventRule (c : Ctx) (rs : RcbState) (Q : Work → Prop) : Prop where
  emitted : ∀ w e, Q w → Q (emit c rs e w)
  closed : ∀ w p, w.st.pending = some p → Q w → Q (closeWindow w)
  merged : ∀ w p e, w.st.pending = some p → Q w → Q (withPending (p.merge e) w)
  opened : ∀ w w' e, w.st.pending = none → spawn c (.window rs.key w.st.pendingGen) w = some w' → Q w →
    Q (withPending (({} : ReportEntry).merge e) w')
  captured : ∀ w e, Q w → Q (note (.captured e) w)

namespace EventRule
variable {Q : Work → Prop} {generation : ℕ}

section
variable (hq : EventRule c rs Q) (h : Q w)
include hq h

lemma flushPending : Q (flushPending c rs w) := by
  unfold Server.flushPending
  split
  · exact h
  next p hp =>
  have hcl := hq.closed w p hp h
  split
  · exact hcl
  · exact hq.emitted _ p hcl

lemma hold : Q (hold c rs e w) := by
  unfold Server.hold
  split
  · next p hp => exact hq.merged w p e hp h
  next hp =>
  split
  · exact hq.emitted w e h
  · next w' hs => exact hq.opened w w' e hp hs h

lemma event : Q (event c rs e w) := by
  unfold Server.event
  split
  · exact hq.emitted w e h
  split
  · exact hq.hold (hq.flushPending h)
  · exact hq.hold h

lemma onUpdateBlock {changes : ChangeSet} : Q (onUpdateBlock c changes rs w) := by
  unfold Server.onUpdateBlock
  split
  · exact h
  split
  · exact h
  dsimp only
  split
  · exact h
  · exact hq.event (hq.captured w _ h)

lemma reportAll {reason : ReasonCode} : Q (reportAll c rs reason w) := by
  have hf := hq.flushPending h
  dsimp only [Server.reportAll]
  split
  · exact hf
  · exact hq.emitted _ _ hf

lemma windowTask : Q (windowTask c generation rs w) := by
  unfold Server.windowTask
  split
  · exact hq.flushPending h
  · exact h

lemma integrityTask : Q (integrityTask c generation rs w) := by
  unfold Server.integrityTask
  split
  · exact h
  · exact hq.reportAll h

end

end EventRule

lemma frame_events : EventRule c rs (Frame emittedAttrs rs w) where
  emitted _ _ h := h.trans emit_frame
  closed _ _ _ h := h.trans closeWindow_frame
  merged _ _ _ _ h := h.trans (.of_eq rfl rfl rfl)
  opened _ _ _ _ hs h := h.trans (by rw [spawn_eq hs]; exact .of_eq rfl rfl rfl)
  captured _ _ h := h.trans (.of_eq rfl rfl rfl)

lemma flushPending_frame : Frame emittedAttrs rs w (flushPending c rs w) := frame_events.flushPending .refl

lemma onUpdateBlock_frame {changes : ChangeSet} : Frame emittedAttrs rs w (onUpdateBlock c changes rs w) :=
  frame_events.onUpdateBlock .refl

lemma reportAll_frame {reason : ReasonCode} : Frame emittedAttrs rs w (reportAll c rs reason w) :=
  frame_events.reportAll .refl

lemma setSqNum_frame (n : ℕ) : Frame emittedAttrs rs w (setSqNum rs n w) :=
  ⟨.setAttr (by simp [emittedAttrs]) _, fun _ => rfl, le_rfl⟩

lemma withSt_frame (st : RcbRuntime) : Frame names rs w { w with st := st } := .of_eq rfl rfl rfl

/-- From `w` to `w'` the reservation of the block changes and timers are started, and nothing else
happens. -/
def Reserves (rs : RcbState) (w w' : Work) : Prop :=
  ∃ m runtime tasks owner ownerIp resvIp resvGen, ModelFrame reservedAttrs rs w.model m ∧
    w' = { w with
      model := m, runtime := runtime, tasks := tasks
      st := { w.st with owner := owner, ownerIp := ownerIp, resvIp := resvIp, resvGen := resvGen } }

namespace Reserves

lemma refl : Reserves rs w w := ⟨_, _, _, _, _, _, _, .refl, rfl⟩

lemma trans (h : Reserves rs w w') (h' : Reserves rs w' w'') : Reserves rs w w'' := by
  obtain ⟨m, _, _, _, _, _, _, hm, rfl⟩ := h
  obtain ⟨m', _, _, _, _, _, _, hm', rfl⟩ := h'
  exact ⟨_, _, _, _, _, _, _, hm.trans hm', rfl⟩

lemma frame (h : Reserves rs w w') : Frame reservedAttrs rs w w' := by
  obtain ⟨m, _, _, _, _, _, _, hm, rfl⟩ := h
  exact ⟨hm, fun _ => rfl, le_rfl⟩

lemma spawned (task : Task) : Reserves rs w ((spawn c task w).getD w) := by
  rcases spawn_getD_eq c task w with h | h
  · rw [h]
    exact .refl
  · rw [h]
    exact ⟨_, _, _, _, _, _, _, .refl, rfl⟩

lemma syncResv : Reserves rs w (syncResv rs w) := by
  unfold Server.syncResv
  split
  · exact ⟨_, _, _, _, _, _, _, .setAttr (by simp [reservedAttrs]) _, rfl⟩
  · exact ⟨_, _, _, _, _, _, _, .setAttr (by simp [reservedAttrs]) _, rfl⟩

lemma take : Reserves rs w (take rs conn ip w) := by
  refine trans ?_ syncResv
  split
  · exact ⟨_, _, _, _, _, _, _, .refl, rfl⟩
  · exact ⟨_, _, _, _, _, _, _, .refl, rfl⟩

lemma release : Reserves rs w (release c rs w) := by
  dsimp only [Server.release]
  have hst {owner ownerIp resvIp resvGen} : Reserves rs w { w with st := { w.st with
      owner := owner, ownerIp := ownerIp, resvIp := resvIp, resvGen := resvGen } } :=
    ⟨_, _, _, _, _, _, _, .refl, rfl⟩
  split
  · exact hst.trans syncResv
  split
  · split
    · exact hst.trans syncResv
    · exact (hst.trans (spawned _)).trans syncResv
  · exact hst.trans syncResv

lemma reservationTask : Reserves rs w (reservationTask generation rs w) := by
  unfold Server.reservationTask
  split
  · exact trans ⟨_, _, _, _, _, _, _, .refl, rfl⟩ syncResv
  · exact .refl

lemma startIntegrity : Reserves rs w (startIntegrity c rs w) := by
  dsimp only [Server.startIntegrity]
  split
  · exact spawned _
  · exact .refl

end Reserves

lemma take_frame : Frame reservedAttrs rs w (take rs conn ip w) := Reserves.take.frame

lemma release_frame : Frame reservedAttrs rs w (release c rs w) := Reserves.release.frame

lemma deliver_frame : Frame emittedAttrs rs w (deliver c rs w) := by
  rw [deliver]
  split
  · exact (withSt_frame _).trans transmitBuffered_frame
  · exact .refl

lemma startIntegrity_frame : Frame names rs w (startIntegrity c rs w) := by
  rw [startIntegrity]
  split
  · exact spawn_getD_frame _
  · exact .refl

lemma Frame.emitted (h : Frame emittedAttrs rs w w') : Frame servedAttrs rs w w' :=
  h.mono (by simp [servedAttrs])

lemma Frame.reserved (h : Frame reservedAttrs rs w w') : Frame servedAttrs rs w w' :=
  h.mono (by simp [servedAttrs])

def prepared (rs : RcbState) (conn : ConnId) (ip : Option IpAddr) (w : Work) : Work :=
  let w := subscribe conn w
  let w := if w.st.owner ≠ some conn then take rs conn ip w else w
  let w := setSqNum rs 0 w
  { w with st := w.st.stopIntegrity }

lemma enable_eq : enable c rs conn ip w = startIntegrity c rs (deliver c rs (prepared rs conn ip w)) :=
  rfl

lemma Frame.ite {p : Prop} [Decidable p] (h : Frame names rs w w') : Frame names rs w (if p then w' else w) := by
  split
  · exact h
  · exact .refl

lemma prepared_frame : Frame servedAttrs rs w (prepared rs conn ip w) := by
  have hs : Frame servedAttrs rs w (subscribe conn w) := .of_eq rfl rfl rfl
  have hq (w : Work) : Frame servedAttrs rs w (setSqNum rs 0 w) := (setSqNum_frame 0).emitted
  exact ((hs.trans take_frame.reserved.ite).trans (hq _)).trans (withSt_frame _)

lemma enable_frame : Frame servedAttrs rs w (enable c rs conn ip w) :=
  prepared_frame.trans (deliver_frame.emitted.trans startIntegrity_frame)

lemma disable_frame : Frame servedAttrs rs w (disable c rs w) := by
  have hu : Frame servedAttrs rs w (unsubscribe (flushPending c rs w)) :=
    flushPending_frame.emitted.trans (withSt_frame _)
  unfold disable
  split
  · exact hu.trans release_frame.reserved
  · exact hu

lemma disableConnBlock_frame : Frame servedAttrs rs w (disableConnBlock c conn rs w) :=
  disable_frame.ite.trans release_frame.reserved.ite

lemma purgeBlock_frame : Frame names rs w (purgeBlock w) :=
  .of_eq rfl rfl rfl

lemma setAttr_frame {name : String} (hn : name ∈ servedAttrs) (v : Value) :
    Frame servedAttrs rs w { w with model := setAttr w.model rs name v } :=
  ⟨.setAttr hn v, fun _ => rfl, le_rfl⟩

def purges (attr : String) (v : Value) : Bool :=
  attr == "DatSet" || (attr == "PurgeBuf" && v.asBool)

/-- What a write keeps: `S` holds until the writer holds the block, and `P` is what the write leaves. -/
structure WriteRule (c : Ctx) (attr : String) (v : Value) (conn : ConnId) (ip : Option IpAddr)
    (rs : RcbState) (S P : Work → Prop) : Prop where
  task : ∀ {w}, S w → S { w with runtime := true }
  taken : ∀ {w}, S w → attr ≠ "Resv" → S (take rs conn ip w)
  reserved : ∀ {w}, S w → attr = "Resv" → P (take rs conn ip w)
  released : ∀ {w}, S w → attr = "Resv" → v.asBool = false → P (release c rs w)
  idle : ∀ {w}, S w → attr ≠ "Resv" → attr ≠ "DatSet" → P w
  stopped : ∀ {w}, P w → P { w with st := w.st.stopResvTimer }
  enabled : ∀ {w}, S w → attr = "RptEna" → v.asBool = true → P (enable c rs conn ip w)
  disabled : ∀ {w}, S w → attr = "RptEna" → P (disable c rs w)
  reported : ∀ {w}, P w → P (reportAll c rs ReasonCode.gi w)
  purged : ∀ {w}, S w → purges attr v = true → P (purgeBlock w)
  answered : ∀ {w}, P w → attr = "GI" ∨ attr = "PurgeBuf" →
    P { w with model := setAttr w.model rs attr (.boolean false) }
  resynced : ∀ {w id}, P w → P (note (.resync id) { w with st := { w.st with resyncId := some id } })
  revised : ∀ {w n}, S w → attr = "DatSet" → S { w with model := setAttr w.model rs "ConfRev" n }

lemma disableConnBlock_rule {P : Work → Prop} (h : w.st.conn ≠ some conn → P w)
    (hd : w.st.conn = some conn → P (disable c rs w)) (hr : ∀ w, P w → P (release c rs w)) :
    P (disableConnBlock c conn rs w) := by
  have hleft (w : Work) (h : P w) : P (if w.st.owner = some conn then release c rs w else w) := by
    split
    · exact hr w h
    · exact h
  unfold disableConnBlock
  split
  · next hc => exact hleft _ (hd hc)
  · next hc => exact hleft _ (h hc)

namespace WriteRule
variable {S P : Work → Prop}

section
variable (hr : WriteRule c attr v conn ip rs S P)
include hr

lemma applyWrite (h : S w) (hat : attr ≠ "Resv") : P (applyWrite c attr v conn ip rs w) := by
  have hidle (hne : attr ≠ "DatSet") : P w := hr.idle h hat hne
  unfold Server.applyWrite
  split_ifs with htms hz hena hv hgi hpurge hv hid hset
  · exact hr.stopped (hidle (by simp [htms]))
  · exact hidle (by simp [htms])
  · exact hr.enabled h hena hv
  · exact hr.disabled h hena
  · have hw : P w := hidle (by simp [hgi])
    subst hgi
    refine hr.answered ?_ (.inl rfl)
    split
    · exact hr.reported hw
    · exact hw
  · subst hpurge
    exact hr.answered (hr.purged h (by simp [purges, hv])) (.inr rfl)
  · subst hpurge
    exact hr.answered (hidle (by simp)) (.inr rfl)
  · exact hr.resynced (hidle (by simp [hid]))
  · exact hr.purged (hr.revised h hset) (by simp [purges, hset])
  · exact hidle hset

lemma onRcbWrite (h : S w) : P (onRcbWrite c attr v conn ip rs w) := by
  have hrt := hr.task h
  dsimp only [Server.onRcbWrite]
  split
  next hat =>
    split
    · exact hr.reserved hrt hat
    · next hv => exact hr.released hrt hat (by simpa using hv)
  next hat =>
    split
    · exact hr.applyWrite (hr.taken hrt hat) hat
    · exact hr.applyWrite hrt hat

end

end WriteRule

lemma frame_write : WriteRule c attr v conn ip rs (Frame servedAttrs rs w) (Frame servedAttrs rs w) where
  task h := h.trans (.of_eq rfl rfl rfl)
  taken h _ := h.trans take_frame.reserved
  reserved h _ := h.trans take_frame.reserved
  released h _ _ := h.trans release_frame.reserved
  idle h _ _ := h
  stopped h := h.trans (withSt_frame _)
  enabled h _ _ := h.trans enable_frame
  disabled h _ := h.trans disable_frame
  reported h := h.trans reportAll_frame.emitted
  purged h _ := h.trans purgeBlock_frame
  answered h ha := h.trans (setAttr_frame (by rcases ha with rfl | rfl <;> decide) _)
  resynced h := h.trans (.of_eq rfl rfl rfl)
  revised h _ := h.trans (setAttr_frame (by decide) _)

lemma onRcbWrite_frame : Frame servedAttrs rs w (onRcbWrite c attr v conn ip rs w) :=
  frame_write.onRcbWrite .refl

lemma windowTask_frame : Frame servedAttrs rs w (windowTask c generation rs w) :=
  (frame_events.windowTask .refl).emitted

lemma integrityTask_frame : Frame servedAttrs rs w (integrityTask c generation rs w) :=
  (frame_events.integrityTask .refl).emitted

lemma reservationTask_frame : Frame servedAttrs rs w (reservationTask generation rs w) :=
  Reserves.reservationTask.frame.reserved

structure ReportRule (c : Ctx) (rs : RcbState) (Q : Work → Prop) : Prop where
  window : ∀ w p n, Q w → Q { w with st := { w.st with pending := p, pendingGen := n } }
  task : ∀ w runtime tasks, Q w → Q { w with runtime := runtime, tasks := tasks }
  captured : ∀ w e, Q w → Q (note (.captured e) w)
  committed : ∀ w e, rs.buffered = false → Q w → Q (note (.committed e) w)
  sent : ∀ w e, rs.buffered = false → w.st.enabled = true → Q w → Q (transmit c rs e w)
  kept : ∀ w e, rs.buffered = true → Q w → Q (kept c rs e w)
  handed : ∀ w e, rs.buffered = true → w.st.enabled = true → w.st.buffer[w.st.next]? = some e →
    Q w → Q (advance (transmit c rs e w))

lemma kept_induction
    (hkeep : Q (keep c rs (stamped c e) w)) (hdiscard : ∀ w, Q w → Q (discardOne w)) : Q (kept c rs e w) :=
  discardOldest_rule hdiscard _ _ hkeep

namespace ReportRule
variable {c : Ctx} {rs : RcbState} {Q : Work → Prop} {e : ReportEntry} {w : Work}

section
variable (hq : ReportRule c rs Q)
include hq

lemma transmitFrom (hb : rs.buffered) (fuel : ℕ) (w : Work)
    (he : w.st.enabled) (h : Q w) : Q (transmitFrom c rs fuel w) := by
  refine (transmitFrom_rule (Q := fun w => w.st.enabled ∧ Q w) ?_ fuel w ⟨he, h⟩).2
  rintro w e hget ⟨he, h⟩
  refine ⟨?_, hq.handed w e hb he hget h⟩
  rw [← he]
  rcases transmit_cases c rs e w with ⟨heq, -⟩ | ⟨conn, sc, -, heq⟩ <;> rw [heq] <;> rfl

lemma emit (h : Q w) : Q (emit c rs e w) := by
  cases hb : rs.buffered with
  | false =>
    rw [emit_unbuffered hb]
    have hnote := hq.committed w (stamped c e) hb h
    split
    · next he => exact hq.sent _ _ hb he hnote
    · exact hnote
  | true =>
    rw [emit_buffered hb]
    have hkp := hq.kept w e hb h
    split
    · next he => exact hq.transmitFrom hb _ _ he hkp
    · exact hkp

lemma events : EventRule c rs Q where
  emitted _ _ h := hq.emit h
  closed w _ _ h := hq.window w none _ h
  merged w _ _ _ h := hq.window w _ _ h
  opened w _ _ _ hs h := by
    rw [spawn_eq hs]
    exact hq.window _ _ _ (hq.task w _ _ h)
  captured := hq.captured

end

end ReportRule

/-- The part of the runtime state that reporting leaves alone. -/
structure SameControl (st st' : RcbRuntime) : Prop where
  enabled : st'.enabled = st.enabled
  conn : st'.conn = st.conn
  owner : st'.owner = st.owner
  ownerIp : st'.ownerIp = st.ownerIp
  resvIp : st'.resvIp = st.resvIp
  resvCfg : st'.resvCfg = st.resvCfg
  resvGen : st'.resvGen = st.resvGen
  integrityGen : st'.integrityGen = st.integrityGen
  resyncId : st'.resyncId = st.resyncId

/-- Nor does it touch the window, except where it closes it. -/
structure SameWindow (st st' : RcbRuntime) : Prop extends SameControl st st' where
  pending : st'.pending = st.pending
  pendingGen : st'.pendingGen = st.pendingGen

namespace SameControl
variable {st st' st'' : RcbRuntime}

lemma refl : SameControl st st := ⟨rfl, rfl, rfl, rfl, rfl, rfl, rfl, rfl, rfl⟩

lemma trans (h : SameControl st st') (h' : SameControl st' st'') : SameControl st st'' :=
  ⟨h'.enabled.trans h.enabled, h'.conn.trans h.conn, h'.owner.trans h.owner,
    h'.ownerIp.trans h.ownerIp, h'.resvIp.trans h.resvIp, h'.resvCfg.trans h.resvCfg,
    h'.resvGen.trans h.resvGen, h'.integrityGen.trans h.integrityGen, h'.resyncId.trans h.resyncId⟩

end SameControl

namespace SameWindow
variable {st st' st'' : RcbRuntime}

lemma refl : SameWindow st st := ⟨.refl, rfl, rfl⟩

lemma trans (h : SameWindow st st') (h' : SameWindow st' st'') : SameWindow st st'' :=
  ⟨h.toSameControl.trans h'.toSameControl, h'.pending.trans h.pending, h'.pendingGen.trans h.pendingGen⟩

end SameWindow

structure Commits (w w' : Work) : Prop extends SameWindow w.st w'.st where
  tasks : w'.tasks = w.tasks

variable {c : Ctx} {rs : RcbState} {e : ReportEntry} {w w' w'' : Work}

lemma Commits.refl : Commits w w := ⟨.refl, rfl⟩

lemma Commits.trans (h : Commits w w') (h' : Commits w' w'') : Commits w w'' :=
  ⟨h.toSameWindow.trans h'.toSameWindow, h'.tasks.trans h.tasks⟩

lemma transmit_control : Commits w (transmit c rs e w) := by
  rcases transmit_cases c rs e w with ⟨h, -⟩ | ⟨conn, sc, -, h⟩
  · rw [h]
    exact .refl
  · rw [h]
    exact ⟨⟨⟨rfl, rfl, rfl, rfl, rfl, rfl, rfl, rfl, rfl⟩, rfl, rfl⟩, rfl⟩

lemma advance_control : Commits w (advance w) :=
  ⟨⟨⟨rfl, rfl, rfl, rfl, rfl, rfl, rfl, rfl, rfl⟩, rfl, rfl⟩, rfl⟩

lemma transmitFrom_control (c : Ctx) (rs : RcbState) (fuel : ℕ) (w : Work) : Commits w (transmitFrom c rs fuel w) :=
  transmitFrom_rule (fun _ _ _ h => h.trans (transmit_control.trans advance_control)) fuel w .refl

lemma discardOne_control : Commits w (discardOne w) := by
  rw [discardOne]
  split
  · exact .refl
  split
  · exact ⟨⟨⟨rfl, rfl, rfl, rfl, rfl, rfl, rfl, rfl, rfl⟩, rfl, rfl⟩, rfl⟩
  · exact ⟨⟨⟨rfl, rfl, rfl, rfl, rfl, rfl, rfl, rfl, rfl⟩, rfl, rfl⟩, rfl⟩

lemma kept_control : Commits w (kept c rs e w) :=
  kept_induction ⟨⟨⟨rfl, rfl, rfl, rfl, rfl, rfl, rfl, rfl, rfl⟩, rfl, rfl⟩, rfl⟩
    fun _ h => h.trans discardOne_control

lemma emit_control : Commits w (emit c rs e w) := by
  cases hb : rs.buffered with
  | false =>
    rw [emit_unbuffered hb]
    have hn : Commits w (note (.committed (stamped c e)) w) := ⟨.refl, rfl⟩
    split
    · exact hn.trans transmit_control
    · exact hn
  | true =>
    rw [emit_buffered hb]
    split
    · exact kept_control.trans (transmitFrom_control _ _ _ _)
    · exact kept_control

lemma control_rule (c : Ctx) (rs : RcbState) (st : RcbRuntime) : ReportRule c rs fun w => SameControl st w.st where
  window _ _ _ h := h.trans ⟨rfl, rfl, rfl, rfl, rfl, rfl, rfl, rfl, rfl⟩
  task _ _ _ h := h
  captured _ _ h := h
  committed _ _ _ h := h
  sent _ _ _ _ h := h.trans transmit_control.toSameControl
  kept _ _ _ h := h.trans kept_control.toSameControl
  handed _ _ _ _ _ h := h.trans (transmit_control.trans advance_control).toSameControl

lemma flushPending_control : SameControl w.st (flushPending c rs w).st :=
  (control_rule c rs w.st).events.flushPending .refl

lemma flushPending_pending : (flushPending c rs w).st.pending = none := by
  rw [flushPending]
  split
  · assumption
  split
  · rfl
  · rw [emit_control.pending]
    rfl

lemma onUpdateBlock_control {changes : ChangeSet} : SameControl w.st (onUpdateBlock c changes rs w).st :=
  (control_rule c rs w.st).events.onUpdateBlock .refl

lemma reportAll_control {reason : ReasonCode} : SameControl w.st (reportAll c rs reason w).st :=
  (control_rule c rs w.st).events.reportAll .refl

variable {generation : ℕ}

lemma windowTask_control : SameControl w.st (windowTask c generation rs w).st :=
  (control_rule c rs w.st).events.windowTask .refl

lemma integrityTask_control : SameControl w.st (integrityTask c generation rs w).st :=
  (control_rule c rs w.st).events.integrityTask .refl

variable {conn : ConnId} {ip : Option IpAddr}

lemma syncResv_st (rs : RcbState) (w : Work) : (syncResv rs w).st = w.st := by
  unfold syncResv
  split <;> rfl

lemma take_st (rs : RcbState) (conn : ConnId) (ip : Option IpAddr) (w : Work) : (take rs conn ip w).st = { w.st with
    owner := some conn, ownerIp := ip, resvGen := w.st.resvGen + 1
    resvIp := if w.st.resvCfg then w.st.resvIp else none } := by
  unfold take
  rw [syncResv_st]
  dsimp only [RcbRuntime.stopResvTimer]
  split
  · next h => simp [h]
  · next h => simp [h]

lemma Reserves.trace (h : Reserves rs w w') : w'.trace = w.trace := by
  obtain ⟨_, _, _, _, _, _, _, -, rfl⟩ := h
  rfl

lemma spawn_getD_st (task : Task) : ((spawn c task w).getD w).st = w.st := by
  rcases spawn_getD_eq c task w with h | h <;> rw [h]

def keepsReservation (rs : RcbState) (w : Work) : Bool :=
  rs.buffered && decide (0 < ((attrValue w.model rs "ResvTms").map Value.asI64).getD 0) && w.st.owner.isSome

lemma release_st : (release c rs w).st = if w.st.resvCfg then { w.st with owner := none, ownerIp := none }
    else { w.st with
      owner := none, ownerIp := none, resvGen := w.st.resvGen + 1
      resvIp := if keepsReservation rs w then w.st.ownerIp else none } := by
  dsimp only [release]
  split
  · rw [syncResv_st]
  split
  next hk =>
    have hkeep : keepsReservation rs w := by
      simpa [keepsReservation, and_assoc] using hk
    split
    next hip =>
      rw [syncResv_st, hkeep, hip]
      rfl
    next ip hip =>
      rw [syncResv_st, holdFor, spawn_getD_st, hkeep, hip]
      rfl
  next hk =>
    have hkeep : keepsReservation rs w ≠ true := by
      simpa [keepsReservation, and_assoc] using hk
    rw [syncResv_st, if_neg hkeep]
    rfl

lemma release_enabled_conn : (release c rs w).st.enabled = w.st.enabled ∧ (release c rs w).st.conn = w.st.conn := by
  rw [release_st]
  split <;> exact ⟨rfl, rfl⟩

lemma resume_eq (st : RcbRuntime) : ∃ next bufOverflow,
    resume st = { st with resyncId := none, next := next, bufOverflow := bufOverflow } := by
  unfold resume
  split
  · next h => exact ⟨_, _, by rw [← h]⟩
  dsimp only
  split
  · exact ⟨_, _, rfl⟩
  split
  · exact ⟨_, _, rfl⟩
  · exact ⟨_, _, rfl⟩

lemma resume_control (st : RcbRuntime) : SameWindow { st with resyncId := none } (resume st) := by
  obtain ⟨_, _, h⟩ := resume_eq st
  rw [h]
  exact ⟨⟨rfl, rfl, rfl, rfl, rfl, rfl, rfl, rfl, rfl⟩, rfl, rfl⟩

lemma deliver_control (c : Ctx) (rs : RcbState) (w : Work) :
    ∃ id, Commits { w with st := { w.st with resyncId := id } } (deliver c rs w) := by
  rw [deliver]
  split
  · have hr : Commits { w with st := { w.st with resyncId := none } } { w with st := resume w.st } :=
      ⟨resume_control w.st, rfl⟩
    exact ⟨none, hr.trans (transmitFrom_control _ _ _ _)⟩
  · exact ⟨w.st.resyncId, .refl⟩

lemma startIntegrity_st : (startIntegrity c rs w).st = w.st := by
  rw [startIntegrity]
  split
  · exact spawn_getD_st _
  · rfl

lemma prepared_eq (rs : RcbState) (conn : ConnId) (ip : Option IpAddr) (w : Work) :
    ∃ w', Reserves rs (subscribe conn w) w' ∧ prepared rs conn ip w =
      { setSqNum rs 0 w' with st := (setSqNum rs 0 w').st.stopIntegrity } := by
  dsimp only [prepared]
  split
  · exact ⟨_, .take, rfl⟩
  · exact ⟨_, .refl, rfl⟩

lemma prepared_st (rs : RcbState) (conn : ConnId) (ip : Option IpAddr) (w : Work) :
    ∃ owner ownerIp resvGen resvIp, (prepared rs conn ip w).st = { w.st with
    enabled := true, conn := some conn, sqNum := 0, integrityGen := w.st.integrityGen + 1
    owner := owner, ownerIp := ownerIp, resvGen := resvGen, resvIp := resvIp } := by
  obtain ⟨_, ⟨_, _, _, owner, ownerIp, resvIp, resvGen, -, rfl⟩, heq⟩ := prepared_eq rs conn ip w
  refine ⟨owner, ownerIp, resvGen, resvIp, ?_⟩
  rw [heq]
  simp [setSqNum, RcbRuntime.stopIntegrity, subscribe, note]

lemma prepared_trace : (prepared rs conn ip w).trace = w.trace ++ [.enabled conn] := by
  obtain ⟨_, ⟨_, _, _, _, _, _, _, -, rfl⟩, heq⟩ := prepared_eq rs conn ip w
  rw [heq]
  rfl

lemma prepared_linked (rs : RcbState) (ip : Option IpAddr) {sc : ServerConn}
    (hsc : w.conns.lookup conn = some sc) : ∃ sc', Linked (prepared rs conn ip w) conn sc' := by
  obtain ⟨_, _, _, _, hst⟩ := prepared_st rs conn ip w
  have hs : ((prepared rs conn ip w).conns.lookup conn).isSome := by
    rw [prepared_frame.conns, hsc]
    rfl
  obtain ⟨sc', h⟩ := Option.isSome_iff_exists.mp hs
  exact ⟨sc', by rw [hst], h⟩

end Iec61850.Server
