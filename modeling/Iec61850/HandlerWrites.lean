import Iec61850.ServerStart
import Iec61850.MmsWriteReal

/-! What one write does to the server: the checks of control blocks and of declared types. -/
namespace Iec61850.Server
open Mms Tracker

def Tracker.Has (t : Tracker) (o : TrkObj) : Prop := ∃ ld kind, t.lookup ld kind = some o

def Tracker.objects (t : Tracker) : List TrkObj :=
  t.byLd.entries.map (fun e => e.2) ++ t.first.entries.map fun e => e.2

variable {o : TrkObj} {d l x : String}

lemma Tracker.mem_objects {t : Tracker} (h : t.Has o) : o ∈ t.objects := by
  obtain ⟨ld, kind, hlook⟩ := h
  unfold lookup at hlook
  cases hb : t.byLd.lookup (ld, kind) with
  | some o' =>
    rw [hb] at hlook
    cases hlook
    exact List.mem_append_left _ (List.mem_map.mpr ⟨_, AList.mem_lookup_iff.mp hb, rfl⟩)
  | none =>
    rw [hb] at hlook
    exact List.mem_append_right _ (List.mem_map.mpr ⟨_, AList.mem_lookup_iff.mp hlook, rfl⟩)

/-- The same model, but for the content of one of some objects. -/
def SameApart (tracking : TrkObj → Prop) (m m' : Model) : Prop :=
  m' = m ∨ ∃ o, tracking o ∧ ∃ f, m' = m.objectMut o.ld o.ln o.object f

variable {t : Tracker} {render : Render} {now : Value} {s : Model × ChangeSet} {m : Model}

lemma sameApart_track (rec : TrackRecord) : SameApart t.Has s.1 (t.track render rec now s).1 := by
  unfold track
  rcases hlook : t.lookup rec.ld rec.kind with _ | o
  · exact .inl rfl
  cases hobj : s.1.object o.ld o.ln o.object with
  | none => exact .inl (by simp [hobj])
  | some object =>
    simp only [hobj]
    exact .inr ⟨o, ⟨_, _, hlook⟩, _, rfl⟩

lemma sameApart_trackCbWrite (domain item : String) (v : Value) (res : Except DataAccessError Unit) :
    SameApart t.Has s.1 (t.trackCbWrite render domain item v res now s).1 := by
  dsimp only [trackCbWrite]
  split
  · split
    · exact .inl rfl
    split
    · exact .inl rfl
    · exact sameApart_track _
  · exact .inl rfl

lemma onFirstAttr_name (p : DataAttribute → Bool)
    (f : ChangeSet → DataAttribute → ChangeSet × DataAttribute) (cs : ChangeSet) (o : DataObject) :
    (onFirstAttr p f cs o).2.name = o.name := by
  unfold onFirstAttr
  split <;> rfl

lemma trackObject_name (base : ObjectReference) (rec : TrackRecord) (cs : ChangeSet) (o : DataObject) :
    (trackObject render base rec now cs o).2.name = o.name := by
  unfold trackObject
  simp only [onFirstAttr_name]
  split
  · rfl
  · rw [onFirstAttr_name]

lemma object_track (hne : ∀ o, t.Has o → (d, l, x) ≠ (o.ld, o.ln, o.object))
    (rec : TrackRecord) : (t.track render rec now s).1.object d l x = s.1.object d l x := by
  unfold track
  rcases hlook : t.lookup rec.ld rec.kind with _ | o
  · rfl
  rcases hobj : s.1.object o.ld o.ln o.object with _ | object
  · simp [hobj]
  simp only [hobj]
  -- The record keeps the name, so the change is one that other lookups pass by.
  have hkeep : s.1.objectMut o.ld o.ln o.object (fun _ =>
      (trackObject render o.reference rec now s.2 object).2) =
      s.1.objectMut o.ld o.ln o.object fun y =>
        { (trackObject render o.reference rec now s.2 object).2 with name := y.name } := by
    apply Model.objectMut_congr
    intro y hy
    obtain rfl := Option.mem_unique hobj hy
    have hnm : (trackObject render o.reference rec now s.2 object).2.name = object.name :=
      trackObject_name o.reference rec s.2 object
    generalize (trackObject render o.reference rec now s.2 object).2 = tracked at hnm ⊢
    rw [← hnm]
    cases tracked
    rfl
  rw [hkeep]
  exact Model.object_objectMut_other s.1 (fun _ => rfl) (hne o ⟨_, _, hlook⟩)

lemma object_trackCbWrite (hne : ∀ o, t.Has o → (d, l, x) ≠ (o.ld, o.ln, o.object))
    (domain item : String) (v : Value) (res : Except DataAccessError Unit) :
    (t.trackCbWrite render domain item v res now s).1.object d l x = s.1.object d l x := by
  dsimp only [trackCbWrite]
  split
  · split
    · rfl
    split
    · rfl
    · exact object_track hne _
  · rfl

/-- Where a tracking object of a model comes from. -/
def TrackingObject (m : Model) (o : TrkObj) : Prop :=
  ∃ ld ∈ m.devices, ∃ ln ∈ ld.nodes, isTrackingNode ln = true ∧ ∃ object ∈ ln.objects,
    Text.trimEndDigits object.name ∈ trackingKinds ∧ o = ⟨ld.name, ln.name, object.name⟩

def Tracker.Knows (m : Model) (t : Tracker) : Prop :=
  (∀ k o, t.byLd.lookup k = some o → TrackingObject m o) ∧ ∀ k o, t.first.lookup k = some o → TrackingObject m o

lemma Tracker.Knows.note {kind : String} (h : t.Knows m) (ho : TrackingObject m o) : (t.note kind o).Knows m := by
  have hby : Table.All (fun _ o => TrackingObject m o) t.byLd := h.1
  have hfst : Table.All (fun _ o => TrackingObject m o) t.first := h.2
  unfold Tracker.note
  constructor
  · dsimp only
    split
    · exact hby
    · exact hby.insert ho
  dsimp only
  split
  · exact hfst
  · exact hfst.insert ho

lemma Tracker.knows_build (m : Model) : (build m).Knows m := by
  -- Each of the three loops keeps what the tracker knows sound.
  refine List.foldlRecOn m.devices _ ⟨Table.all_empty, Table.all_empty⟩ ?_
  intro t ht ld hld
  refine List.foldlRecOn ld.nodes _ ht ?_
  intro t ht ln hln
  split
  next hnd =>
    refine List.foldlRecOn ln.objects _ ht ?_
    intro t ht object hobj
    dsimp only
    split
    next hkd =>
      have hkd : Text.trimEndDigits object.name ∈ trackingKinds := by simpa using hkd
      exact ht.note ⟨ld, hld, ln, hln, hnd, object, hobj, hkd, rfl⟩
    · exact ht
  · exact ht

lemma trackingObject_of_has (h : (build m).Has o) : TrackingObject m o := by
  obtain ⟨ld, kind, hlook⟩ := h
  obtain ⟨hby, hfst⟩ := knows_build m
  unfold lookup at hlook
  cases hb : (build m).byLd.lookup (ld, kind) with
  | some o' =>
    rw [hb] at hlook
    cases hlook
    exact hby _ _ hb
  | none =>
    rw [hb] at hlook
    exact hfst _ _ hlook

namespace Inner
variable {cfg : Config} {w : WriteCtx} {domain item : String} {v : Value} {s : Inner}

/-- Nothing of the server changes but a tracking object and the changes that the request will report. -/
def OnlyTracked (tracking : TrkObj → Prop) (s s' : Inner) : Prop :=
  ∃ m changes, SameApart tracking s.model m ∧ s' = { s with model := m, changes := changes }

lemma onlyTracked_track (controlBlock : Bool) (res : Except DataAccessError Unit) :
    OnlyTracked s.tracker.Has s (s.track w domain item v controlBlock res) := by
  unfold track
  split
  · exact ⟨_, _, sameApart_trackCbWrite domain item v res, rfl⟩
  · exact ⟨s.model, s.changes, .inl rfl, rfl⟩

lemma object_track_of_untracked (controlBlock : Bool) (res : Except DataAccessError Unit)
    (hne : ∀ o, s.tracker.Has o → (d, l, x) ≠ (o.ld, o.ln, o.object)) :
    (s.track w domain item v controlBlock res).model.object d l x = s.model.object d l x := by
  unfold track
  split
  · exact object_trackCbWrite hne domain item v res
  · rfl

lemma writeOne_refused {e : DataAccessError} (h : (s.writeOne cfg w domain item v).2.1 = .error e) :
    s.writeOne cfg w domain item v =
      (s.track w domain item v (s.target domain item).controlBlock (.error e), .error e, none) := by
  unfold writeOne at h ⊢
  dsimp only at h ⊢
  split at h
  · cases h
    rfl
  · cases h

variable {controlBlock : Bool} {s' : Inner}

lemma store_eq_ok (h : s.store cfg w domain item v controlBlock = .ok s') :
    ∃ changes, (∃ ln da, s.model.node domain ((Text.split '$' item).headD "") = some ln ∧
        Access.resolveWrite ln item = some da ∧
        (controlBlock = false → s.writePermitted cfg domain da.fc = .ok ()) ∧ valueFits da v ∧
        w.refusal = none) ∧ s' = { s with model := putItem s.model domain item v, changes := changes } := by
  unfold store at h
  cases hitem : storeItem (s.writePermitted cfg domain) s.model (s.written w.conn) domain item v
      controlBlock w.refusal with
  | error e =>
    rw [hitem] at h
    cases h
  | ok done =>
    rw [hitem] at h
    obtain ⟨ln, da, hln, hda, hpm, hfits, hhook, hm⟩ := storeItem_ok hitem
    have hs := Except.ok.inj h
    dsimp only at hs
    rw [hm] at hs
    exact ⟨_, ⟨ln, da, hln, hda, hpm, hfits, hhook⟩, hs.symm⟩

lemma store_of_admitted {ln : LogicalNode} {da : DataAttribute}
    (hln : s.model.node domain ((Text.split '$' item).headD "") = some ln)
    (hda : Access.resolveWrite ln item = some da)
    (hpm : controlBlock = false → s.writePermitted cfg domain da.fc = .ok ())
    (hfits : valueFits da v) (hhook : w.refusal = none) :
    ∃ s', s.store cfg w domain item v controlBlock = .ok s' := by
  unfold store storeItem
  simp only [hln, hda, hfits, hhook]
  cases controlBlock with
  | true => exact ⟨_, rfl⟩
  | false =>
    rw [hpm rfl]
    exact ⟨_, rfl⟩

lemma writeOne_of_stored (hc : s.check w domain v (s.target domain item) = .ok ())
    (hs : s.store cfg w domain item v (s.target domain item).controlBlock = .ok s') :
    (s.writeOne cfg w domain item v).2.1 = .ok () := by
  dsimp only [writeOne]
  rw [hc]
  simp only [Except.bind, hs]

lemma writeOne_accepted (h : (s.writeOne cfg w domain item v).2.1 = .ok ()) :
    ∃ s', s.check w domain v (s.target domain item) = .ok () ∧
      s.store cfg w domain item v (s.target domain item).controlBlock = .ok s' ∧
      s.writeOne cfg w domain item v =
        ((effect w domain v s s' (s.target domain item)).1.track w domain item v
          (s.target domain item).controlBlock (.ok ()), .ok (), (effect w domain v s s' (s.target domain item)).2) := by
  unfold writeOne at h ⊢
  dsimp only at h ⊢
  split at h
  · cases h
  next s' hs =>
  have hboth : s.check w domain v (s.target domain item) = .ok () ∧
      s.store cfg w domain item v (s.target domain item).controlBlock = .ok s' := by
    cases hc : s.check w domain v (s.target domain item) with
    | error e => rw [hc] at hs; cases hs
    | ok u =>
      rw [hc] at hs
      exact ⟨rfl, hs⟩
  exact ⟨s', hboth.1, hboth.2, rfl⟩

lemma writeOne_accepted_eq (h : (s.writeOne cfg w domain item v).2.1 = .ok ()) :
    ∃ s', s.check w domain v (s.target domain item) = .ok () ∧
      s.store cfg w domain item v (s.target domain item).controlBlock = .ok s' ∧
      (s.writeOne cfg w domain item v).1 =
        (effect w domain v s s' (s.target domain item)).1.track w domain item v
          (s.target domain item).controlBlock (.ok ()) := by
  obtain ⟨s', hchk, hsto, heq⟩ := writeOne_accepted h
  exact ⟨s', hchk, hsto, by rw [heq]⟩

/-- What a write leaves holds for any result that is recorded: for the state before it and for its effect. -/
@[elab_as_elim]
theorem writeOne_rule {Q : Inner → Prop} (hself : Q s)
    (htrack : ∀ t controlBlock res, Q t → Q (t.track w domain item v controlBlock res))
    (heffect : ∀ s', s.check w domain v (s.target domain item) = .ok () →
      s.store cfg w domain item v (s.target domain item).controlBlock = .ok s' →
      Q (effect w domain v s s' (s.target domain item)).1) : Q (s.writeOne cfg w domain item v).1 := by
  rcases hres : (s.writeOne cfg w domain item v).2.1 with e | u
  · rw [writeOne_refused hres]
    exact htrack s _ _ hself
  obtain ⟨s', hchk, hsto, heq⟩ := writeOne_accepted_eq hres
  rw [heq]
  exact htrack _ _ _ (heffect s' hchk hsto)

end Inner

/-- A write that is answered with a failure changes neither the model apart from the tracking objects, nor the
runtime state of a control block, nor the reservations of control objects. The tracker is built from the
server's model. -/
theorem refused_write_changes_nothing (cfg : Config) (w : WriteCtx) (domain item : String) (v : Value)
    (served : Model) (s : Inner) (hs : s.tracker = build served) (e : DataAccessError)
    (h : (s.writeOne cfg w domain item v).2.1 = .error e) :
    Inner.OnlyTracked (TrackingObject served) s (s.writeOne cfg w domain item v).1 ∧
      (s.writeOne cfg w domain item v).2.2 = none := by
  rw [Inner.writeOne_refused h]
  refine ⟨?_, rfl⟩
  obtain ⟨m, changes, hm, heq⟩ := Inner.onlyTracked_track (s.target domain item).controlBlock (.error e)
  rw [heq]
  refine ⟨m, changes, hm.imp id ?_, rfl⟩
  rintro ⟨o, ho, hf⟩
  rw [hs] at ho
  exact ⟨o, trackingObject_of_has ho, hf⟩

def settingObject (name : String) (v : Value) : DataObject :=
  { name := name, cdc := "ING", attributes := [cbAttr .sg "setVal" v, cbAttr .se "setVal" v] }

def sgcbTracking : DataObject :=
  { name := "SgcbTrk"
    attributes := [cbAttr .sr "objRef" (.visibleText ""), cbAttr .sr "errorCode" (.integer 0)] }

def protectionModel : Model :=
  let lln0 : LogicalNode := { name := "LLN0", settingControl := some { numOfSgs := 2, actSg := 1 } }
  let ptoc : LogicalNode := { name := "PTOC1", objects := [settingObject "OpDlTmms" (.integer 1000)] }
  let ltrk : LogicalNode := { name := "LTRK1", lnClass := "LTRK", objects := [sgcbTracking] }
  { devices := [{ name := "PROT", nodes := [lln0, ptoc, ltrk] }] }

def protection : Inner := Inner.new {} protectionModel

def writeBy (conn : ConnId) : WriteCtx :=
  { ctx := sampleConfig.ctx ⟨0, 0⟩ true, conn := conn, refusal := none, stamp := .none }

def writeActSg (item : String) (group : UInt64) : Inner × Except DataAccessError Unit × Option SvControlEvent :=
  protection.writeOne sampleConfig (writeBy 1) "PROT" item (.unsigned group)

def Inner.attrOf (s : Inner) (domain ln object attr : String) : Option Value :=
  ((s.model.object domain ln object).bind fun o => o.attr attr).bind DataAttribute.value

/-- Selecting a group that does not exist is refused and recorded, and nothing else. -/
theorem refused_write_tracked :
    (writeActSg "LLN0$SP$SGCB$ActSG" 9).2.1 = .error .objectValueInvalid ∧
      ((writeActSg "LLN0$SP$SGCB$ActSG" 9).1.attrOf "PROT" "LTRK1" "SgcbTrk" "errorCode").map Value.asI64 = some 5 ∧
      Inner.OnlyTracked (TrackingObject (servedModel {} protectionModel)) protection
        (writeActSg "LLN0$SP$SGCB$ActSG" 9).1 := by
  have href : (writeActSg "LLN0$SP$SGCB$ActSG" 9).2.1 = .error .objectValueInvalid := by decide +kernel
  have hcode : ((writeActSg "LLN0$SP$SGCB$ActSG" 9).1.attrOf "PROT" "LTRK1" "SgcbTrk" "errorCode").map Value.asI64 = some 5 := by
    decide +kernel
  exact ⟨href, hcode, (refused_write_changes_nothing sampleConfig (writeBy 1) "PROT"
    "LLN0$SP$SGCB$ActSG" (.unsigned 9) (servedModel {} protectionModel) protection rfl
    .objectValueInvalid href).1⟩

open Asn1 Mms

def Inner.itemWriter (cfg : Config) (ctx : WriteCtx) (control : ItemWriter Inner) : ItemWriter Inner :=
  fun s domain item v =>
    if (splitControl item).isSome then control s domain item v
    else
      let done := s.writeOne cfg ctx domain item v
      (done.1, done.2.1)

def plainSetting (name : String) : DataObject :=
  { name := name, cdc := "ING", attributes := [cbAttr .sp "setVal" (.integer 1)] }

def settingsServer : Inner :=
  Inner.new {} { devices := [{ name := "LD0", nodes := [{ name := "LLN0" },
    { name := "GGIO1", objects := [plainSetting "A", plainSetting "B"] }] }] }

def settingsWriter : ItemWriter Inner :=
  Inner.itemWriter sampleConfig (writeBy 1) fun s _ _ _ => (s, .error .objectAccessDenied)

def settingsHandler : Request → Except HandlerError Element :=
  writeHandler (fun _ => .error .other) settingsWriter settingsServer

def afterWrite (values : List Value) : Inner :=
  (handleWrite settingsWriter settingsServer (writeService "LD0" twoItems values).content).1

/-- A value without an encoding is not sent: the value for the second setting lands in the first, with one
result for two items. The write of this value alone is reported as done. -/
theorem value_misplaced : connWrite (call settingsHandler 0 1) "LD0" twoItems [.none, .integer 7] = .ok [.ok ()] ∧
      ((afterWrite [.none, .integer 7]).attrOf "LD0" "GGIO1" "A" "setVal").map Value.asI64 = some 7 ∧
      ((afterWrite [.none, .integer 7]).attrOf "LD0" "GGIO1" "B" "setVal").map Value.asI64 = some 1 ∧
      clientWrite (call settingsHandler 0 1) "LD0" "GGIO1$SP$A$setVal" .none = .ok () ∧
      attempts settingsWriter settingsServer
        (confirmedRequest 1 (writeService "LD0" ["GGIO1$SP$A$setVal"] [.none])).encode = [] ∧
      ¬ WritesReal (fun _ => .error .other) settingsWriter settingsServer 0 1 "LD0" twoItems [.none, .integer 7] := by
  have hress : connWrite (call settingsHandler 0 1) "LD0" twoItems [.none, .integer 7] = .ok [.ok ()] := by
    decide +kernel
  refine ⟨hress, by decide +kernel, by decide +kernel, by decide +kernel, by rfl, ?_⟩
  intro h
  have hcnt := (h.each _ hress).1
  exact absurd hcnt (by decide)

open Inner Text List Option

namespace Inner

/-- An item leads to a leaf attribute of a data object under the constraint it names. -/
structure Addresses (s : Inner) (domain item object : String) (fc : Fc) (da : DataAttribute) : Prop where
  path : ∃ rest, Access.writePath item = some (object, fc, rest)
  leaf : ∃ ln, s.model.node domain ((split '$' item).headD "") = some ln ∧ Access.resolveWrite ln item = some da
  own : da.fc = fc

/-- A data object that is one of the server's control blocks, with the constraint of its attributes and how an
item of the block is taken up. -/
inductive BlockAt (s : Inner) (domain ln object : String) : Fc → (String → CbTarget) → Prop where
  | report {b : Block} (registered : b ∈ s.blocks) (hd : b.rs.domain = domain)
      (hl : b.rs.lnName = ln) (ho : b.rs.objectName = object) :
      BlockAt s domain ln object b.rs.fc (.report b.rs.key)
  | setting (registered : (s.settingGroups.lookup domain).isSome = true) (hl : ln = "LLN0")
      (ho : object = sgcbName) : BlockAt s domain ln object .sp .setting
  | log {key : String} {lcb : LcbState} (registered : s.lcbs.lookup key = some lcb)
      (hd : lcb.domain = domain) (hl : lcb.ln = ln) (ho : lcb.name = object) :
      BlockAt s domain ln object .lg (.log key)
  | sampled {key : String} {st : SvcbState} (registered : s.svcbs.lookup key = some st)
      (hd : st.device = domain) (hl : st.node = ln) (ho : st.block.name = object) :
      BlockAt s domain ln object st.fc (.sampled key)

/-- Each block is registered under the key of the place it has in the model. -/
structure Registered (s : Inner) : Prop where
  reports : ∀ b ∈ s.blocks, b.rs.item = b.rs.lnName ++ "$" ++ b.rs.fc.asStr ++ "$" ++ b.rs.objectName
  logs : ∀ key lcb, s.lcbs.lookup key = some lcb → key = lcbKeyOf lcb.domain (lcb.ln ++ "$LG$" ++ lcb.name)
  sampled : ∀ key st, s.svcbs.lookup key = some st →
    key = svcbKeyOf st.device (st.node ++ "$" ++ st.fc.asStr ++ "$" ++ st.block.name)

/-- The item spells the constraint as the standard does; for the setting-group block nothing follows the
attribute. -/
def Spelled (item : String) (fc : Fc) : Prop :=
  (split '$' item)[1]? = some fc.asStr ∧ (fc = .sp → (split '$' item).length = 4)

variable {cfg : Config} {w : WriteCtx} {domain item object : String} {v : Value} {s : Inner} {fc : Fc}
  {da : DataAttribute} {tgt : String → CbTarget}

lemma Addresses.parts (h : s.Addresses domain item object fc da) :
    ∃ ln f first rest, split '$' item = ln :: f :: object :: first :: rest ∧ Fc.parseLenient f = fc := by
  obtain ⟨path, hpath⟩ := h.path
  unfold Access.writePath at hpath
  split at hpath
  next ln f o first rest hsplit =>
    obtain ⟨rfl, rfl, -⟩ : o = object ∧ Fc.parseLenient f = fc ∧ first :: rest = path := by
      simpa using hpath
    exact ⟨ln, f, first, rest, hsplit, rfl⟩
  · cases hpath

variable {f attr ln key : String} {rest : List String} {blocks : Table String SvcbState} {m : Model}

lemma asStr_of_recognised (hf : f ∈ ["RP", "BR", "LG", "MS", "US", "SP"])
    (hfc : Fc.parseLenient f = fc) : f = fc.asStr := by
  have hall : ∀ f ∈ ["RP", "BR", "LG", "MS", "US", "SP"], f = (Fc.parseLenient f).asStr := by decide
  rw [← hfc]
  exact hall f hf

lemma isSgcbWrite_eq_some (h : isSgcbWrite item = some attr) : split '$' item = ["LLN0", "SP", sgcbName, attr] := by
  unfold isSgcbWrite at h
  split at h
  next ln f o a hsplit =>
    split at h
    next hnames =>
      obtain ⟨rfl, rfl, rfl⟩ := hnames
      rw [hsplit, some.inj h]
    · cases h
  · cases h

lemma isSgcbWrite_eq_none (hsplit : split '$' item = ln :: f :: rest) (hf : f ≠ "SP") : isSgcbWrite item = none := by
  cases hsg : isSgcbWrite item with
  | none => rfl
  | some attr =>
    rw [isSgcbWrite_eq_some hsg] at hsplit
    exact absurd (cons.inj (cons.inj hsplit).2).1.symm hf

lemma target_eq_plain (hsplit : split '$' item = ln :: f :: object :: rest)
    (hf : f ∉ ["RP", "BR", "LG", "MS", "US"]) (hsg : isSgcbWrite item = none) : s.target domain item = .plain := by
  simp only [mem_cons, not_or] at hf
  obtain ⟨hrp, hbr, hlg, hms, hus, -⟩ := hf
  simp [target, rcbKey, lcbKey, svcbKey, hsplit, hsg, hrp, hbr, hlg, hms, hus]

lemma target_of_not_spelled (h : s.Addresses domain item object fc da) (hs : ¬ Spelled item fc) :
    s.target domain item = .plain := by
  obtain ⟨ln, f, first, rest, hsplit, hfc⟩ := h.parts
  have hsnd : (split '$' item)[1]? = some f := by rw [hsplit]; rfl
  apply target_eq_plain hsplit
  · intro hf
    have hspl := asStr_of_recognised (mem_append_left ["SP"] hf) hfc
    have hsp : fc ≠ .sp := by
      have hall : ∀ f ∈ ["RP", "BR", "LG", "MS", "US"], Fc.parseLenient f ≠ .sp := by decide
      rw [← hfc]
      exact hall f hf
    exact hs ⟨by rw [hsnd, hspl], fun hfcsp => absurd hfcsp hsp⟩
  rcases hsg : isSgcbWrite item with _ | attr
  · rfl
  have hps := isSgcbWrite_eq_some hsg
  have hf : f = "SP" := by
    rw [hps] at hsplit
    exact ((cons.inj (cons.inj hsplit).2).1).symm
  have hspl := asStr_of_recognised (by rw [hf]; decide) hfc
  exact absurd ⟨by rw [hsnd, hspl], fun _ => by rw [hps]; rfl⟩ hs

lemma target_of_spelled (hr : s.Registered) (h : s.Addresses domain item object fc da)
    (hb : s.BlockAt domain ((split '$' item).headD "") object fc tgt) (hs : Spelled item fc) :
    ∃ attr, s.target domain item = tgt attr := by
  obtain ⟨ln, f, first, rest, hsplit, -⟩ := h.parts
  have hf : f = fc.asStr := by
    have hsnd := hs.1
    rw [hsplit] at hsnd
    exact Option.some.inj hsnd
  subst hf
  rw [hsplit, List.headD_cons] at hb
  cases hb with
  | @report b registered hd hl ho =>
    have hkey : b.rs.key = rcbStateKey domain (ln ++ "$" ++ b.rs.fc.asStr ++ "$" ++ object) := by
      rw [RcbState.key, hr.reports b registered, hd, hl, ho]
    have hrec : b.rs.fc.asStr = "RP" ∨ b.rs.fc.asStr = "BR" := by
      cases hbuf : b.rs.buffered <;> simp [RcbState.fc, hbuf, Fc.asStr]
    exact ⟨first, by simp [target, rcbKey, hsplit, hrec, hkey]⟩
  | setting registered hl ho =>
    have hlen : rest = [] := by
      have hfour := hs.2 rfl
      rw [hsplit] at hfour
      exact List.length_eq_zero_iff.mp (by simpa using hfour)
    have hsg : isSgcbWrite item = some first := by
      simp [isSgcbWrite, hsplit, hlen, hl, ho, Fc.asStr]
    refine ⟨first, ?_⟩
    simp [target, rcbKey, hsplit, hsg, registered, Fc.asStr, Option.filter]
  | @log key lcb registered hd hl ho =>
    obtain rfl : key = lcbKeyOf domain (ln ++ "$LG$" ++ object) := by
      rw [hr.logs key lcb registered, hd, hl, ho]
    have hsg : isSgcbWrite item = none := isSgcbWrite_eq_none hsplit (by decide)
    refine ⟨first, ?_⟩
    simp [target, rcbKey, hsg, lcbKey, hsplit, registered, Fc.asStr]
  | @sampled key st registered hd hl ho =>
    obtain rfl : key = svcbKeyOf domain (ln ++ "$" ++ st.fc.asStr ++ "$" ++ object) := by
      rw [hr.sampled key st registered, hd, hl, ho]
    have hrec : st.fc.asStr = "MS" ∨ st.fc.asStr = "US" := by
      cases hu : st.unicast <;> simp [SvcbState.fc, hu, Fc.asStr]
    have hsg : isSgcbWrite item = none :=
      isSgcbWrite_eq_none hsplit (by rcases hrec with hfc | hfc <;> rw [hfc] <;> decide)
    have hrcb : rcbKey domain item = none := by
      rcases hrec with hfc | hfc <;> simp [rcbKey, hsplit, hfc]
    have hlcb : lcbKey s.lcbs domain item = none := by
      rcases hrec with hfc | hfc <;> simp [lcbKey, hsplit, hfc]
    refine ⟨first, ?_⟩
    simp [target, hrcb, hsg, hlcb, svcbKey, hsplit, hrec, registered]

lemma Registered.of_eq {s' : Inner} (h : s.Registered)
    (hb : s'.blocks.map Block.rs = s.blocks.map Block.rs) (hl : s'.lcbs = s.lcbs)
    (hs : s'.svcbs = s.svcbs) : s'.Registered := by
  refine ⟨?_, hl ▸ h.logs, hs ▸ h.sampled⟩
  intro b hb'
  have hm : b.rs ∈ s.blocks.map Block.rs := hb ▸ mem_map_of_mem hb'
  obtain ⟨b0, hb0, heq⟩ := mem_map.mp hm
  rw [← heq]
  exact h.reports b0 hb0

lemma registered_track {controlBlock : Bool} {res : Except DataAccessError Unit} (h : s.Registered) :
    (s.track w domain item v controlBlock res).Registered := by
  unfold track
  split
  · exact h.of_eq rfl rfl rfl
  · exact h

lemma stopIntegrity_site (lcb : LcbState) : lcb.stopIntegrity.domain = lcb.domain ∧ lcb.stopIntegrity.ln = lcb.ln ∧
      lcb.stopIntegrity.name = lcb.name := ⟨rfl, rfl, rfl⟩

lemma startIntegrity_site (m : Model) (onRuntime : Bool) (lcb : LcbState) :
    (lcb.startIntegrity m onRuntime).domain = lcb.domain ∧ (lcb.startIntegrity m onRuntime).ln = lcb.ln ∧
      (lcb.startIntegrity m onRuntime).name = lcb.name := by
  dsimp only [LcbState.startIntegrity]
  split <;> exact stopIntegrity_site lcb

def LogAt (key : String) (lcb : LcbState) : Prop :=
  key = lcbKeyOf lcb.domain (lcb.ln ++ "$LG$" ++ lcb.name)

lemma LogAt.of_site {lcb lcb' : LcbState} (h : LogAt key lcb)
    (hsite : lcb'.domain = lcb.domain ∧ lcb'.ln = lcb.ln ∧ lcb'.name = lcb.name) : LogAt key lcb' := by
  unfold LogAt
  rw [hsite.1, hsite.2.1, hsite.2.2]
  exact h

lemma logs_onLcbWrite {onRuntime : Bool} {lcbs : Table String LcbState}
    (h : lcbs.All LogAt) : (onLcbWrite m onRuntime key attr lcbs).All LogAt := by
  unfold onLcbWrite
  split
  · exact h
  split
  · exact h
  next lcb hlcb =>
  apply h.insert
  split
  · exact (h key lcb hlcb).of_site (startIntegrity_site m onRuntime lcb)
  · exact (h key lcb hlcb).of_site (stopIntegrity_site lcb)

def SampledAt (key : String) (st : SvcbState) : Prop :=
  key = svcbKeyOf st.device (st.node ++ "$" ++ st.fc.asStr ++ "$" ++ st.block.name)

lemma sampled_onSvcbWrite {old : Bool} {conn : ConnId} (h : blocks.All SampledAt) :
    (onSvcbWrite m key attr old conn blocks).1.All SampledAt := by
  unfold onSvcbWrite
  split
  · exact h
  next st hst =>
  split
  · exact h
  split
  · exact h.insert (h key st hst)
  · exact h

lemma sampled_releaseSvcbs (conn : ConnId) (m : Model)
    (h : blocks.All SampledAt) : (releaseSvcbs conn m blocks).2.All SampledAt := by
  refine foldlRecOn 
    (motive := fun (done : Model × Table String SvcbState) => done.2.All SampledAt) (inKeyOrder blocks) _ h ?_
  intro done hdone e he
  unfold SvcbState.releaseConn
  split
  · exact hdone
  · exact hdone.insert (h e.1 e.2 (AList.mem_lookup_iff.mpr (mem_inKeyOrder.mp he)))

lemma registered_effect {old : Inner} {t : CbTarget} (h : s.Registered) :
    (effect w domain v old s t).1.Registered := by
  cases t with
  | report key attr => exact h.of_eq (onBlocks_rs _ _) rfl rfl
  | setting attr =>
    dsimp only [effect]
    split
    · exact h
    · exact h.of_eq rfl rfl rfl
  | log key attr => exact ⟨h.reports, logs_onLcbWrite h.logs, h.sampled⟩
  | sampled key attr => exact ⟨h.reports, h.logs, sampled_onSvcbWrite h.sampled⟩
  | plain => exact h

lemma registered_writeOne (h : s.Registered) : (s.writeOne cfg w domain item v).1.Registered := by
  refine writeOne_rule h (fun _ _ _ => registered_track) fun s' _ hsto => ?_
  obtain ⟨changes, -, rfl⟩ := store_eq_ok hsto
  exact registered_effect (h.of_eq rfl rfl rfl)

lemma registered_serve (x : Service) (h : s.Registered) : (s.serve cfg x).Registered := by
  cases x with
  | write w domain item v => exact registered_writeOne h
  | operate | defineDataSet => exact h.of_eq rfl rfl rfl
  | deleteDataSet domain list =>
    dsimp only [serve, deleteDataset]
    repeat' split
    all_goals exact h.of_eq rfl rfl rfl
  | endAssociation conn now =>
    dsimp only [serve, endAssociation]
    split
    · exact h
    split
    · exact h
    refine ⟨?_, h.logs, sampled_releaseSvcbs conn _ h.sampled⟩
    have hend : Registered { s with toState := step cfg s.toState (.endAssociation conn now) } :=
      h.of_eq (step_rs cfg s.toState _) rfl rfl
    exact hend.reports
  | engine x =>
    dsimp only [serve]
    split
    · exact h.of_eq (step_rs cfg s.toState x) rfl rfl
    · exact h

variable {opts : Options}

lemma logs_new {P : String → LcbState → Prop} (hput : ∀ ld ∈ (servedModel opts m).devices, ∀ ln ∈ ld.nodes,
      ∀ lc ∈ ln.logControls, ¬ (cbObject ld ln.name "LG" lc.name).isNone →
        P (lcbKeyOf ld.name (ln.name ++ "$LG$" ++ lc.name))
          { domain := ld.name, ln := ln.name, name := lc.name
            journal := logTarget ld.name ld.inst lc, reasonCode := lc.reasonCode })
    (hsta : ∀ key lcb, P key lcb → P key (lcb.startIntegrity (servedModel opts m) opts.runtime)) :
    (new opts m).lcbs.All P := by
  have hkp : (logManager (servedModel opts m)).All P := by
    refine foldlRecOn _ _ Table.all_empty fun t ht ld hld => ?_
    refine foldlRecOn _ _ ht fun t ht ln hln => ?_
    refine foldlRecOn _ _ ht fun t ht lc hlc => ?_
    split
    · exact ht
    · next hsome => exact ht.insert (hput ld hld ln hln lc hlc hsome)
  refine foldlRecOn (motive := fun (t : Table String LcbState) => t.All P) _ _ Table.all_empty ?_
  intro t ht e he
  have hat := hkp e.1 e.2 (AList.mem_lookup_iff.mpr he)
  apply ht.insert
  split
  · exact hsta e.1 e.2 hat
  · exact hat

lemma sampled_new {P : String → SvcbState → Prop} (hput : ∀ device node block unicast,
      P (svcbKeyOf device (node ++ "$" ++ (if unicast then "US" else "MS") ++ "$" ++ block.name))
        { device := device, node := node, block := block, unicast := unicast }) : (new opts m).svcbs.All P := by
  refine foldlRecOn (motive := fun (t : Table String SvcbState) => t.All P) _ _ Table.all_empty fun t ht ld _ => ?_
  refine foldlRecOn _ _ ht fun t ht ln _ => ?_
  refine foldlRecOn _ _ ht fun t ht sc _ => ?_
  split
  · exact ht
  · exact ht.insert (hput _ _ _ _)

lemma registered_new (opts : Options) (m : Model) : (new opts m).Registered := by
  constructor
  · intro b hb
    obtain ⟨x, hx, rfl⟩ := mem_map.mp hb
    obtain ⟨ld, -, ln, -, rc, -, i, name, -, heq⟩ := (materialised_of_mem hx).2.instance_of
    have hrs := materialiseRcb_rs opts.reportBufferSize ld.name ln.name rc i name
    rw [heq] at hrs
    rw [hrs]
    rfl
  · exact logs_new (fun _ _ _ _ _ _ _ => rfl) fun _ lcb h => LogAt.of_site h (startIntegrity_site _ _ lcb)
  · apply sampled_new
    intro _ _ _ unicast
    cases unicast <;> rfl

lemma registered_run (services : List Service) (h : s.Registered) : (s.run cfg services).Registered :=
  Runs.invariant _ (fun _ x hs => registered_serve x hs) h services

end Inner
namespace Inner
variable {cfg : Config} {w : WriteCtx} {domain item object : String} {v : Value} {s : Inner} {fc : Fc}
  {da : DataAttribute} {tgt : String → CbTarget}

lemma writePermitted_of_ne_se (hfc : fc ≠ .se) (hw : fc ∈ writableFcs cfg.writable) :
    s.writePermitted cfg domain fc = .ok () := by
  simp [writePermitted, hfc, hw]

lemma mem_writable_of_permitted (h : s.writePermitted cfg domain fc = .ok ()) : fc ∈ writableFcs cfg.writable := by
  unfold writePermitted at h
  by_contra hw
  rw [if_pos hw] at h
  cases h

variable {ln : String}

section
variable (h : s.BlockAt domain ln object fc tgt)
include h

lemma BlockAt.fc_ne_se : fc ≠ .se := by
  cases h with
  | @report b => cases hb : b.rs.buffered <;> simp [RcbState.fc, hb]
  | setting => decide
  | log => decide
  | @sampled _ st => cases hu : st.unicast <;> simp [SvcbState.fc, hu]

lemma BlockAt.target_ne_plain (attr : String) : tgt attr ≠ .plain := by
  cases h <;> exact CbTarget.noConfusion

end

lemma plain_write_accepted (h : s.Addresses domain item object fc da) (ht : s.target domain item = .plain) :
    (s.writeOne cfg w domain item v).2.1 = .ok () ↔
      s.writePermitted cfg domain fc = .ok () ∧ valueFits da v ∧ w.refusal = none := by
  obtain ⟨ln, hln, hda⟩ := h.leaf
  constructor
  · intro hacc
    obtain ⟨s', -, hsto, -⟩ := writeOne_accepted_eq hacc
    rw [ht] at hsto
    obtain ⟨_, ⟨ln', da', hln', hda', hpm, hfits, hhook⟩, -⟩ := store_eq_ok hsto
    obtain rfl := mem_unique hln hln'
    obtain rfl := mem_unique hda hda'
    exact ⟨h.own ▸ hpm rfl, hfits, hhook⟩
  rintro ⟨hpm, hfits, hhook⟩
  rw [← h.own] at hpm
  have hstd : ∃ s', s.store cfg w domain item v false = .ok s' :=
    store_of_admitted hln hda (fun _ => hpm) hfits hhook
  obtain ⟨s', hsto⟩ := hstd
  exact writeOne_of_stored (by rw [ht]; rfl) (by rw [ht]; exact hsto)

end Inner

/-- In every state a server reaches, a write to an attribute of a report, log, setting-group or
sampled-value control block has passed the check of that block when the item spells the constraint as the
block's own does; any other spelling is stored unchecked as soon as the constraint is writable. A setting
under SG is never written. -/
theorem block_write_checked_iff (cfg : Config) (opts : Options) (m : Model) (services : List Service)
    (w : WriteCtx) (domain item object : String) (v : Value) (fc : Fc) (da : DataAttribute) (s : Inner)
    (hs : s = (new opts m).run cfg services) (h : s.Addresses domain item object fc da) :
    (∀ tgt, s.BlockAt domain ((split '$' item).headD "") object fc tgt →
      (((s.writeOne cfg w domain item v).2.1 = .ok () →
          ∃ attr, s.target domain item = tgt attr ∧ s.check w domain v (tgt attr) = .ok ()) ↔
        Spelled item fc ∨ fc ∉ writableFcs cfg.writable ∨ valueFits da v = false ∨ w.refusal ≠ none)) ∧
    (fc = .sg → (s.writeOne cfg w domain item v).2.1 ≠ .ok ()) := by
  have hr : s.Registered := hs ▸ registered_run services (registered_new opts m)
  constructor
  · intro tgt hb
    constructor
    · intro hchkd
      by_contra hcond
      simp only [not_or, not_not, ne_eq, Bool.not_eq_false] at hcond
      obtain ⟨hspl, hwritable, hfits, hhook⟩ := hcond
      -- The item is not recognised, and nothing else stands in the way of the write.
      have htgt := target_of_not_spelled h hspl
      have hpm : s.writePermitted cfg domain fc = .ok () := writePermitted_of_ne_se hb.fc_ne_se hwritable
      obtain ⟨attr, hat, -⟩ := hchkd ((plain_write_accepted h htgt).mpr ⟨hpm, hfits, hhook⟩)
      exact hb.target_ne_plain attr (hat.symm.trans htgt)
    intro hcond hacc
    by_cases hspl : Spelled item fc
    · obtain ⟨attr, hat⟩ := target_of_spelled hr h hb hspl
      obtain ⟨s', hc, -, -⟩ := writeOne_accepted_eq hacc
      exact ⟨attr, hat, hat ▸ hc⟩
    have htgt := target_of_not_spelled h hspl
    obtain ⟨hpm, hfits, hhook⟩ := (plain_write_accepted h htgt).mp hacc
    have hwritable := mem_writable_of_permitted hpm
    rcases hcond with hc | hc | hc | hc
    · exact absurd hc hspl
    · exact absurd hwritable hc
    · rw [hfits] at hc
      cases hc
    · exact absurd hhook hc
  · rintro rfl hacc
    have htgt : s.target domain item = .plain := by
      obtain ⟨ln, f, first, rest, hsplit, hfc⟩ := h.parts
      have hne : ∀ f ∈ ["RP", "BR", "LG", "MS", "US", "SP"], Fc.parseLenient f ≠ .sg := by decide
      refine target_eq_plain hsplit (fun hf => ?_) (isSgcbWrite_eq_none hsplit fun hf => ?_)
      · exact hne f (mem_append_left ["SP"] hf) hfc
      · exact hne f (by rw [hf]; decide) hfc
    have hpm := ((plain_write_accepted h htgt).mp hacc).1
    have hsg := (mem_filter.mp (mem_writable_of_permitted hpm)).2
    exact absurd hsg (by decide)

lemma Inner.addresses_of_resolves {s : Inner} {domain item object : String} {fc : Fc}
    (hp : (Access.writePath item).map (fun p => (p.1, p.2.1)) = some (object, fc))
    (hda : ((s.model.node domain ((split '$' item).headD "")).bind fun ln =>
      Access.resolveWrite ln item).map DataAttribute.fc = some fc) :
    ∃ da, s.Addresses domain item object fc da := by
  obtain ⟨⟨o, fc', rest⟩, hpath, heq⟩ := map_eq_some_iff.mp hp
  obtain ⟨rfl, rfl⟩ := Prod.mk.inj heq
  obtain ⟨da, hbind, hfc⟩ := map_eq_some_iff.mp hda
  obtain ⟨ln, hln, hres⟩ := bind_eq_some_iff.mp hbind
  exact ⟨da, ⟨rest, hpath⟩, ⟨ln, hln, hres⟩, hfc⟩

/-- A client selects the active group through the control block's check. -/
theorem active_group_checked :
    (writeActSg "LLN0$SP$SGCB$ActSG" 2).2.1 = .ok () ∧
      ∃ attr, protection.target "PROT" "LLN0$SP$SGCB$ActSG" = .setting attr ∧
        protection.check (writeBy 1) "PROT" (.unsigned 2) (.setting attr) = .ok () := by
  have hacc : (writeActSg "LLN0$SP$SGCB$ActSG" 2).2.1 = .ok () := by decide +kernel
  have haddr : ∃ da, protection.Addresses "PROT" "LLN0$SP$SGCB$ActSG" sgcbName .sp da :=
    addresses_of_resolves (by decide +kernel) (by decide +kernel)
  obtain ⟨da, h⟩ := haddr
  have hb : protection.BlockAt "PROT" ((split '$' "LLN0$SP$SGCB$ActSG").headD "") sgcbName .sp
      .setting := .setting (by decide +kernel) (by decide +kernel) rfl
  have hspl : Spelled "LLN0$SP$SGCB$ActSG" .sp := by
    unfold Spelled
    decide +kernel
  exact ⟨hacc, ((block_write_checked_iff sampleConfig {} protectionModel [] (writeBy 1) "PROT"
    "LLN0$SP$SGCB$ActSG" sgcbName (.unsigned 2) .sp da protection rfl h).1 .setting hb).mpr (.inl hspl) hacc⟩

/-- With the constraint in lower case the block's check is passed by, and an active group shown that does not
exist. -/
theorem active_group_unchecked : protection.BlockAt "PROT" "LLN0" sgcbName .sp .setting ∧
      (∃ da, protection.Addresses "PROT" "LLN0$sp$SGCB$ActSG" sgcbName .sp da) ∧
      protection.check (writeBy 1) "PROT" (.unsigned 9) (.setting "ActSG") = .error .objectValueInvalid ∧
      protection.target "PROT" "LLN0$sp$SGCB$ActSG" = .plain ∧
      (writeActSg "LLN0$sp$SGCB$ActSG" 9).2.1 = .ok () ∧
      ((writeActSg "LLN0$sp$SGCB$ActSG" 9).1.attrOf "PROT" "LLN0" sgcbName "ActSG").map Value.asI64 = some 9 := by
  refine ⟨.setting (by decide +kernel) rfl rfl, ?_, ?_⟩
  · exact addresses_of_resolves (by decide +kernel) (by decide +kernel)
  · decide +kernel

end Iec61850.Server
namespace Iec61850.Server
open Mms Access Int32 Inner

def InWidth (t : TypeSpec) : Value → Prop
  | .integer n =>
    -(2 ^ (t.size.toInt.toNat - 1)) ≤ n.toInt ∧ n.toInt < 2 ^ (t.size.toInt.toNat - 1)
  | .unsigned n => n.toNat < 2 ^ t.size.toInt.toNat
  | _ => True

def HasLength (t : TypeSpec) : Value → Prop
  | .bitString bs => t.kind = some .bitString → bs.length = t.size.toInt.natAbs
  | _ => True

def withValue (da : DataAttribute) (v : Value) : DataAttribute := { da with value := some v }

/-- A value brought into an attribute fits what the server declares: the kind and the width once it is there,
and the length also before. -/
structure Declared (da : DataAttribute) (v : Value) : Prop where
  kind : (daTypeSpec (withValue da v)).kind = some v.typeOf
  width : InWidth (daTypeSpec (withValue da v)) v
  length : HasLength (daTypeSpec da) v ∧ HasLength (daTypeSpec (withValue da v)) v

variable {da : DataAttribute} {v : Value} {btype : String}

lemma daTypeSpec_leaf (h : da.children.isEmpty) :
    daTypeSpec da = leafTypeSpec da.kind da.btype da.count da.value := by
  obtain ⟨name, fc, kind, btype, count, children, value, trgOps, fcName⟩ := da
  rw [daTypeSpec, if_pos h]

lemma kind_valueTypeSpec (v : Value) : (valueTypeSpec v).kind = some v.typeOf := by
  cases v with
  | array children => cases children <;> rfl
  | _ => rfl

section
variable (hleaf : da.children.isEmpty) {el : TypeSpec}
include hleaf

lemma spec_of_basic (h : btypeTypeSpec da.btype = some el) :
    daTypeSpec da = if da.kind = some .array then .array da.count el else el := by
  simp only [daTypeSpec_leaf hleaf, leafTypeSpec, h]

lemma spec_of_value (h : btypeTypeSpec da.btype = none)
    (hv : da.value = some v) : daTypeSpec da = valueTypeSpec v := by
  simp only [daTypeSpec_leaf hleaf, leafTypeSpec, h, hv]

lemma spec_withValue_basic (h : btypeTypeSpec da.btype = some el) :
    daTypeSpec (withValue da v) = if da.kind = some .array then .array da.count el else el := by
  have hleaf' : (withValue da v).children.isEmpty := hleaf
  exact spec_of_basic hleaf' h

lemma spec_withValue (h : btypeTypeSpec da.btype = none) : daTypeSpec (withValue da v) = valueTypeSpec v := by
  have hleaf' : (withValue da v).children.isEmpty := hleaf
  exact spec_of_value hleaf' h rfl

end

lemma basic_ne_bitString {el : TypeSpec} (h : btypeTypeSpec btype = some el) : el.kind ≠ some .bitString := by
  obtain ⟨e, he, rfl⟩ := Option.map_eq_some_iff.mp h
  have hall : ∀ e ∈ btypes, (TypeSpec.sized e.2.1 e.2.2).kind ≠ some .bitString := by decide
  exact hall e (List.mem_of_find?_eq_some he)

lemma natAbs_length (n : ℕ) : n = (-(Int32.ofNat n)).toInt.natAbs ↔ n ≤ 2 ^ 31 := by
  rw [toInt_neg, toInt_ofNat']
  simp only [Int.bmod_def, size]
  omega

lemma hasLength_withValue (hleaf : da.children.isEmpty) : (daTypeSpec (withValue da v)).kind = some v.typeOf →
      (HasLength (daTypeSpec (withValue da v)) v ↔ v.bitLen ≤ 2 ^ 31) := by
  intro hkd
  cases v with
  | bitString bs =>
    cases hb : btypeTypeSpec da.btype with
    | some el =>
      -- A fixed basic type is none of bit strings, nor is an array.
      rw [spec_withValue_basic hleaf hb] at hkd
      split at hkd
      · cases hkd
      · exact absurd hkd (basic_ne_bitString hb)
    | none =>
      rw [spec_withValue hleaf hb]
      constructor
      · intro h
        exact (natAbs_length bs.length).mp (h rfl)
      · intro h _
        exact (natAbs_length bs.length).mpr h
  | _ => simp [HasLength, Value.bitLen]

def ownType (da : DataAttribute) : Option ValueType :=
  ((da.value.map Value.typeOf).or da.kind).filter fun k => k != .none

variable {k : ValueType} {hi lo : ℤ}

lemma ownType_eq_some (hk : ownType da = some k) : (da.value.map Value.typeOf).or da.kind = some k ∧ k ≠ .none := by
  obtain ⟨hwant, hne⟩ := Option.filter_eq_some_iff.mp hk
  exact ⟨hwant, by simpa using hne⟩

lemma typeOf_of_own (h : valueFits da v) (hk : ownType da = some k) : v.typeOf = k := by
  obtain ⟨hwant, hne⟩ := ownType_eq_some hk
  by_contra hty
  unfold valueFits at h
  cases k <;> simp_all

lemma integer_of_own {n : Int64} (h : valueFits da (.integer n))
    (hk : ownType da = some .integer) (hr : intRange da.btype = some (lo, hi)) : lo ≤ n.toInt ∧ n.toInt ≤ hi := by
  unfold valueFits at h
  rw [(ownType_eq_some hk).1] at h
  simp only [Value.typeOf, ne_eq, not_true_eq_false, if_false, hr, Option.map_some, Option.getD_some] at h
  exact of_decide_eq_true h

lemma unsigned_of_own {n : UInt64} (h : valueFits da (.unsigned n))
    (hk : ownType da = some .unsigned) (hr : intRange da.btype = some (lo, hi)) : (n.toNat : ℤ) ≤ hi := by
  unfold valueFits at h
  rw [(ownType_eq_some hk).1] at h
  simp only [Value.typeOf, ne_eq, not_true_eq_false, if_false, hr, Option.map_some, Option.getD_some] at h
  exact of_decide_eq_true h

lemma bitString_of_own {bs : BitString} {cur : Value} (h : valueFits da (.bitString bs))
    (hk : ownType da = some .bitString) (hv : da.value = some cur) : bs.length = cur.bitLen := by
  unfold valueFits at h
  rw [(ownType_eq_some hk).1] at h
  simp only [Value.typeOf, ne_eq, not_true_eq_false, if_false, hv, Option.map_some, Option.getD_some] at h
  exact eq_of_beq h

lemma basic_of_find (btype : String) {w : Int32} (h : btypes.find? (fun e => e.1 == btype) = some (btype, k, w)) :
    btypeTypeSpec btype = some (.sized k w) := by
  rw [btypeTypeSpec, h, Option.map_some]

lemma intRange_declared (h : intRange btype = some (lo, hi)) : ∃ k w, btypeTypeSpec btype = some (.sized k w) ∧
      (k = .integer ∧ lo = -(2 ^ (w.toInt.toNat - 1)) ∧ hi + 1 = 2 ^ (w.toInt.toNat - 1) ∨
        k = .unsigned ∧ hi + 1 = 2 ^ w.toInt.toNat) := by
  unfold intRange at h
  split_ifs at h with h8 h16 h32 h8u h16u h32u
  all_goals cases h
  · exact ⟨.integer, 8, h8 ▸ basic_of_find "INT8" (by decide), .inl (by decide)⟩
  · exact ⟨.integer, 16, h16 ▸ basic_of_find "INT16" (by decide), .inl (by decide)⟩
  · exact ⟨.integer, 32, h32 ▸ basic_of_find "INT32" (by decide), .inl (by decide)⟩
  · exact ⟨.unsigned, 8, h8u ▸ basic_of_find "INT8U" (by decide), .inr (by decide)⟩
  · exact ⟨.unsigned, 16, h16u ▸ basic_of_find "INT16U" (by decide), .inr (by decide)⟩
  · exact ⟨.unsigned, 32, h32u ▸ basic_of_find "INT32U" (by decide), .inr (by decide)⟩

/-- The value is of the kind that the basic type of the attribute stands for, where it stands for
one. -/
def BasicKind (da : DataAttribute) (v : Value) : Prop :=
  ∀ el, btypeTypeSpec da.btype = some el → some v.typeOf = if da.kind = some .array then some .array else el.kind

lemma kind_withValue_iff (hleaf : da.children.isEmpty) :
    (daTypeSpec (withValue da v)).kind = some v.typeOf ↔ BasicKind da v := by
  unfold BasicKind
  rcases hb : btypeTypeSpec da.btype with _ | el
  · simp [spec_withValue hleaf hb, kind_valueTypeSpec]
  rw [spec_withValue_basic hleaf hb]
  constructor
  · rintro hkd el' heq
    obtain rfl := Option.some.inj heq
    split at hkd
    · next harr => rw [if_pos harr, ← hkd]; rfl
    · next harr => rw [if_neg harr, hkd]
  intro h
  have hel := h el rfl
  split at hel
  · next harr => rw [if_pos harr, hel]; rfl
  · next harr => rw [if_neg harr, hel]

/-- The range of the basic type is checked when a value is written. -/
def RangeChecked (da : DataAttribute) : Prop :=
  (ownType da).isSome = true ∧ (intRange da.btype).isSome = true

lemma inWidth_of_checked (hleaf : da.children.isEmpty) (h : valueFits da v)
    (hk : BasicKind da v) (hc : RangeChecked da) : InWidth (daTypeSpec (withValue da v)) v := by
  obtain ⟨k, hown⟩ := Option.isSome_iff_exists.mp hc.1
  obtain ⟨⟨lo, hi⟩, hrg⟩ := Option.isSome_iff_exists.mp hc.2
  obtain ⟨kind, width, hbasic, hwidth⟩ := intRange_declared hrg
  have hty := typeOf_of_own h hown
  have hkd := hk _ hbasic
  rw [spec_withValue_basic hleaf hbasic]
  cases v with
  | integer n =>
    obtain rfl : ValueType.integer = k := hty
    split at hkd
    · cases hkd
    next harr =>
    obtain rfl : ValueType.integer = kind := Option.some.inj hkd
    rw [if_neg harr]
    have hchk := integer_of_own h hown hrg
    rcases hwidth with ⟨-, hlo, hhi⟩ | ⟨hno, -⟩
    · refine ⟨?_, ?_⟩
      · calc -(2 ^ (width.toInt.toNat - 1)) = lo := hlo.symm
          _ ≤ n.toInt := hchk.1
      · calc n.toInt < hi + 1 := Int.lt_add_one_of_le hchk.2
          _ = 2 ^ (width.toInt.toNat - 1) := hhi
    · cases hno
  | unsigned n =>
    obtain rfl : ValueType.unsigned = k := hty
    split at hkd
    · cases hkd
    next harr =>
    obtain rfl : ValueType.unsigned = kind := Option.some.inj hkd
    rw [if_neg harr]
    have hchk := unsigned_of_own h hown hrg
    rcases hwidth with ⟨hno, -⟩ | ⟨-, hhi⟩
    · cases hno
    have hlt : (n.toNat : ℤ) < 2 ^ width.toInt.toNat := by
      calc (n.toNat : ℤ) < hi + 1 := Int.lt_add_one_of_le hchk
        _ = 2 ^ width.toInt.toNat := hhi
    exact_mod_cast hlt
  | _ => trivial

lemma hasLength_of_fits (hleaf : da.children.isEmpty) (h : valueFits da v)
    (hsh : v.bitLen ≤ 2 ^ 31) : HasLength (daTypeSpec da) v := by
  cases v with
  | bitString bs =>
    intro hkd
    cases hb : btypeTypeSpec da.btype with
    | some el =>
      rw [spec_of_basic hleaf hb] at hkd
      split at hkd
      · cases hkd
      · exact absurd hkd (basic_ne_bitString hb)
    | none =>
      rcases hv : da.value with _ | cur
      · simp [daTypeSpec_leaf hleaf, leafTypeSpec, hb, hv, TypeSpec.scalar] at hkd
      rw [spec_of_value hleaf hb hv] at hkd ⊢
      rw [kind_valueTypeSpec] at hkd
      have hcur : cur.typeOf = .bitString := Option.some.inj hkd
      have hown : ownType da = some .bitString := by simp [ownType, hv, hcur]
      have hlen := bitString_of_own h hown hv
      cases cur with
      | bitString cur =>
        have hshort' : cur.length ≤ 2 ^ 31 := by
          calc cur.length = bs.length := hlen.symm
            _ ≤ 2 ^ 31 := hsh
        calc bs.length = cur.length := hlen
          _ = (-(ofNat cur.length)).toInt.natAbs := (natAbs_length cur.length).mpr hshort'
      | _ => cases hcur
  | _ => trivial

/-- When an accepted value fits what is declared: it is of the kind of the basic type, and in the declared width
if the range check does not know the type. -/
structure WriteFits (da : DataAttribute) (v : Value) : Prop where
  basic : BasicKind da v
  number : RangeChecked da ∨ InWidth (daTypeSpec (withValue da v)) v
  short : v.bitLen ≤ 2 ^ 31

lemma declared_iff_writeFits (hleaf : da.children.isEmpty) (h : valueFits da v) : Declared da v ↔ WriteFits da v := by
  constructor
  · rintro ⟨hkd, hwidth, -, hlen⟩
    exact ⟨(kind_withValue_iff hleaf).mp hkd, .inr hwidth, (hasLength_withValue hleaf hkd).mp hlen⟩
  rintro ⟨hbasic, hnumber, hsh⟩
  have hkd := (kind_withValue_iff hleaf).mpr hbasic
  refine ⟨hkd, ?_, hasLength_of_fits hleaf h hsh, (hasLength_withValue hleaf hkd).mpr hsh⟩
  rcases hnumber with hchkd | hwidth
  · exact inWidth_of_checked hleaf h hbasic hchkd
  · exact hwidth

variable {c u : Value}

def doublePoint (da : DataAttribute) : Bool :=
  Text.toAsciiUppercase da.btype == "DBPOS" ||
    (da.kind == some .bitString && (da.value.map fun v => v.bitLen == 2).getD false)

lemma statusValue_cases (h : statusValue da c = some u) :
    (doublePoint da ∧ c.typeOf = .boolean ∧ ∃ bits, u = dbposValue bits) ∨
      (¬ (doublePoint da ∧ c.typeOf = .boolean) ∧ u = c) := by
  unfold statusValue at h
  dsimp only at h
  split at h
  · cases h
  next on =>
    split at h
    · next hd => exact .inl ⟨hd, rfl, _, (Option.some.inj h).symm⟩
    next hd =>
    refine .inr ⟨fun hboth => hd hboth.1, ?_⟩
    split at h
    · exact (Option.some.inj h).symm
    · cases h
  next hflag =>
    split at h
    · refine .inr ⟨?_, (Option.some.inj h).symm⟩
      rintro ⟨-, hty⟩
      cases c with
      | boolean on => exact hflag on rfl
      | _ => cases hty
    · cases h

/-- When the status that an operate sets fits what is declared: nothing of it is checked, so that the
control value has to be of the kind, width and length of the status; a double point fits one of two bits.
-/
def OperateFits (da : DataAttribute) (c : Value) : Prop :=
  if doublePoint da = true ∧ c.typeOf = .boolean then
    btypeTypeSpec da.btype = none ∧ ((daTypeSpec da).kind = some .bitString → (daTypeSpec da).size.toInt.natAbs = 2)
  else
    BasicKind da c ∧ InWidth (daTypeSpec (withValue da c)) c ∧ HasLength (daTypeSpec da) c ∧ c.bitLen ≤ 2 ^ 31

lemma dbposValue_eq (bits : ℕ) : ∃ bs : BitString, dbposValue bits = .bitString bs ∧ bs.length = 2 := by
  refine ⟨_, rfl, ?_⟩
  simp [BitString.setBit, BitString.new]

lemma declared_iff_operateFits (hleaf : da.children.isEmpty)
    (h : statusValue da c = some u) : Declared da u ↔ OperateFits da c := by
  unfold OperateFits
  rcases statusValue_cases h with ⟨hd, hc, bits, rfl⟩ | ⟨hno, rfl⟩
  · obtain ⟨bs, hbs, hlen⟩ := dbposValue_eq bits
    rw [if_pos ⟨hd, hc⟩, hbs]
    constructor
    · intro hdecl
      refine ⟨?_, fun hkd => (hdecl.length.1 hkd).symm.trans hlen⟩
      rcases hb : btypeTypeSpec da.btype with _ | el
      · rfl
      have hkd := (kind_withValue_iff hleaf).mp hdecl.kind el hb
      split at hkd
      · cases hkd
      · exact absurd hkd.symm (basic_ne_bitString hb)
    rintro ⟨hb, hsz⟩
    have hbasic : BasicKind da (.bitString bs) := by
      intro el hel
      rw [hb] at hel
      cases hel
    have hkd := (kind_withValue_iff hleaf).mpr hbasic
    refine ⟨hkd, trivial, fun hbit => hlen.trans (hsz hbit).symm, ?_⟩
    rw [hasLength_withValue hleaf hkd]
    calc bs.length = 2 := hlen
      _ ≤ 2 ^ 31 := by decide
  · rw [if_neg hno]
    constructor
    · intro hdecl
      exact ⟨(kind_withValue_iff hleaf).mp hdecl.kind, hdecl.width, hdecl.length.1,
        (hasLength_withValue hleaf hdecl.kind).mp hdecl.length.2⟩
    rintro ⟨hbasic, hwidth, hlen, hsh⟩
    have hkd := (kind_withValue_iff hleaf).mpr hbasic
    exact ⟨hkd, hwidth, hlen, (hasLength_withValue hleaf hkd).mpr hsh⟩

variable {m : Model} {domain item : String} {ln : LogicalNode} {cfg : Config} {w : WriteCtx} {s : Inner}

lemma resolveWrite_putItem (hln : m.node domain ((Text.split '$' item).headD "") = some ln)
    (hda : resolveWrite ln item = some da) : da.children.isEmpty ∧
      ∃ ln', (putItem m domain item v).node domain ((Text.split '$' item).headD "") = some ln' ∧
        resolveWrite ln' item = some (withValue da v) := by
  obtain ⟨⟨object, fc, path⟩, hpath, hbelow⟩ := Option.bind_eq_some_iff.mp hda
  obtain ⟨o, ho, hfilter⟩ := Option.bind_eq_some_iff.mp hbelow
  obtain ⟨hfnd, hleaf⟩ := Option.filter_eq_some_iff.mp hfilter
  let put := writeBelowMut fc (fun da => { da with value := some v }) path
  let objects := FirstMatch.update (fun x => x.name == object) put ln.objects
  have hnd : (putItem m domain item v).node domain ((Text.split '$' item).headD "") =
      some { ln with objects := objects } := by
    rw [putItem, hpath]
    rw [Model.node_objectMut_same, hln, Option.map_some]
  have hobj : objects.find? (fun x => x.name == object) = some (put o) := by
    rw [FirstMatch.find_update_same]
    · exact congrArg (Option.map put) ho
    intro x hx
    rw [DataObject.writeBelowMut_name]
    exact hx
  have hput : writeBelow fc path (put o) = some (withValue da v) := by
    rw [DataObject.writeBelow_writeBelowMut (keepsPlace_put v) path o, hfnd]
    rfl
  refine ⟨hleaf, _, hnd, ?_⟩
  simp only [resolveWrite, hpath, Option.bind_some, LogicalNode.object, hobj, hput]
  exact Option.filter_eq_some_iff.mpr ⟨rfl, hleaf⟩

lemma model_writeOne_plain (hok : (s.writeOne cfg w domain item v).2.1 = .ok ()) (hplain : s.target domain item = .plain)
    (hgo : (Text.split '$' item)[1]? ≠ some "GO") :
    (s.writeOne cfg w domain item v).1.model = putItem s.model domain item v := by
  obtain ⟨s', -, hsto, heq⟩ := writeOne_accepted_eq hok
  obtain ⟨changes, -, rfl⟩ := store_eq_ok hsto
  rw [heq, hplain]
  simp only [track, CbTarget.controlBlock, effect, Bool.false_eq_true, hgo, or_self, if_false]

/-- An item that is written with success, and is not of a control or a control block, then holds the value. -/
theorem itemWriter_holds {control : ItemWriter Inner} (hctl : splitControl item = none)
    (hplain : s.target domain item = .plain) (hgo : (Text.split '$' item)[1]? ≠ some "GO")
    (hok : (itemWriter cfg w control s domain item v).2 = .ok ()) :
    ∃ ln da, (itemWriter cfg w control s domain item v).1.model.node domain ((Text.split '$' item).headD "") = some ln ∧
      resolveWrite ln item = some (withValue da v) := by
  simp only [itemWriter, hctl, Option.isSome_none, Bool.false_eq_true, if_false] at hok ⊢
  obtain ⟨s', -, hsto, -⟩ := writeOne_accepted_eq hok
  obtain ⟨changes, ⟨ln, da, hln, hda, -⟩, -⟩ := store_eq_ok hsto
  obtain ⟨-, ln', hstored⟩ := resolveWrite_putItem (v := v) hln hda
  rw [model_writeOne_plain hok hplain hgo]
  exact ⟨ln', da, hstored⟩

def integerAttr (name : String) (fc : Fc) (btype : String) (n : Int64) : DataAttribute :=
  { name := name, fc := fc, kind := some .integer, btype := btype, value := some (.integer n) }

def steppedModel : Model :=
  let mode : DataObject :=
    { name := "TmMod", cdc := "ENG", attributes := [integerAttr "setVal" .sp "Enum" 1] }
  let step : DataObject :=
    { name := "TapChg", cdc := "INC", attributes := [integerAttr "stVal" .st "INT8" 0] }
  { devices := [{ name := "TAP", nodes := [{ name := "ATCC1", objects := [mode, step] }] }] }

def stepped : Inner := Inner.new {} steppedModel

def writeMode (mode : Int64) : Inner × Except DataAccessError Unit × Option SvControlEvent :=
  stepped.writeOne sampleConfig (writeBy 1) "TAP" "ATCC1$SP$TmMod$setVal" (.integer mode)

variable {name btype : String} {fc : Fc} {n m : Int64}

section
variable (hb : btypeTypeSpec btype = some (.sized .integer 8))
include hb

lemma byte_inWidth_iff : InWidth (daTypeSpec (withValue (integerAttr name fc btype n) (.integer m))) (.integer m) ↔
      -128 ≤ m.toInt ∧ m.toInt < 128 := by
  have harr : ¬ (integerAttr name fc btype n).kind = some .array := by
    intro h
    cases h
  rw [spec_withValue_basic rfl hb, if_neg harr]
  rfl

lemma byte_basicKind : BasicKind (integerAttr name fc btype n) (.integer m) := by
  intro el hel
  obtain rfl := Option.mem_unique hb hel
  rfl

end

end Iec61850.Server
