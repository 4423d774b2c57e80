import Iec61850.MmsValue
import Iec61850.Net
import Iec61850.Lookup

/-! The object model with its references and constraints, the codes of reporting and control, and updates. -/
namespace Iec61850

inductive Fc where
  | none
  | st
  | mx
  | co
  | sp
  | sg
  | se
  | sv
  | cf
  | dc
  | ex
  | or
  | bl
  | rp
  | br
  | lg
  | go
  | gs
  | ms
  | us
  | all
  | sr
  | unknown
deriving DecidableEq

namespace Fc

def allValues : List Fc :=
  [st, mx, co, sp, sg, se, sv, cf, dc, ex, or, bl, rp, br, lg, go, gs, ms, us, sr]

def asStr : Fc → String
  | none => ""
  | st => "ST"
  | mx => "MX"
  | co => "CO"
  | sp => "SP"
  | sg => "SG"
  | se => "SE"
  | sv => "SV"
  | cf => "CF"
  | dc => "DC"
  | ex => "EX"
  | or => "OR"
  | bl => "BL"
  | rp => "RP"
  | br => "BR"
  | lg => "LG"
  | go => "GO"
  | gs => "GS"
  | ms => "MS"
  | us => "US"
  | all => "*"
  | sr => "SR"
  | unknown => "??"

def matchesFc (fc other : Fc) : Bool := fc == all || fc == none || fc == other

def parse (s : String) : Option Fc :=
  let u := Text.toAsciiUppercase (Text.trim s)
  if u = "*" then some all else allValues.find? fun fc => fc.asStr == u

def parseLenient (s : String) : Fc :=
  let u := Text.trim s
  if u = "" then none else (parse u).getD unknown

end Fc

abbrev TrgOps := UInt8
abbrev ReasonCode := UInt8
abbrev OptFlds := UInt16

def toBits (mask width : ℕ) : Mms.Value :=
  (List.range width).foldl (fun v i => v.setBit i (mask.testBit i)) (.bitString (Mms.BitString.new width))

def fromBits (v : Mms.Value) (width : ℕ) : ℕ :=
  (List.range (min v.bitLen width)).foldl (fun mask i => if v.bit i then mask ||| 2 ^ i else mask) 0

namespace TrgOps

def dataChange : TrgOps := 0x02
def qualityChange : TrgOps := 0x04
def dataUpdate : TrgOps := 0x08
def integrity : TrgOps := 0x10
def gi : TrgOps := 0x20
def width : ℕ := 6

def has (t mask : TrgOps) : Bool := t &&& mask != 0
def value (t : TrgOps) : Mms.Value := toBits t.toNat width
def fromValue (v : Mms.Value) : TrgOps := UInt8.ofNat (fromBits v width)

end TrgOps

namespace ReasonCode

def integrity : ReasonCode := 0x10
def gi : ReasonCode := 0x20
def width : ℕ := 7

def value (r : ReasonCode) : Mms.Value := toBits r.toNat width
def fromValue (v : Mms.Value) : ReasonCode := UInt8.ofNat (fromBits v width)

end ReasonCode

namespace OptFlds

def seqNum : OptFlds := 0x002
def timeOfEntry : OptFlds := 0x004
def reasonCode : OptFlds := 0x008
def dataSetName : OptFlds := 0x010
def dataRef : OptFlds := 0x020
def bufOvfl : OptFlds := 0x040
def entryId : OptFlds := 0x080
def confRev : OptFlds := 0x100
def segmentation : OptFlds := 0x200
def width : ℕ := 10

def default : OptFlds := seqNum ||| timeOfEntry ||| reasonCode ||| dataSetName ||| confRev

def has (o mask : OptFlds) : Bool := o &&& mask != 0
def value (o : OptFlds) : Mms.Value := toBits o.toNat width
def fromValue (v : Mms.Value) : OptFlds := UInt16.ofNat (fromBits v width)

end OptFlds

open Mms FirstMatch

/-- A data attribute; a leaf has no children. The mnemonic `fcName` counts for an unknown constraint. -/
structure DataAttribute where
  name : String
  fc : Fc := .none
  kind : Option ValueType := none
  btype : String := ""
  count : ℕ := 0
  children : List DataAttribute := []
  value : Option Value := none
  trgOps : TrgOps := 0
  fcName : String := ""

structure DataObject where
  name : String
  objects : List DataObject := []
  attributes : List DataAttribute := []
  cdc : String := ""

/-- A reference as written, `LD/LN.DO.DA`. -/
structure ObjectReference where
  text : String
deriving DecidableEq

namespace ObjectReference

def ld (r : ObjectReference) : String := ((Text.splitOnce '/' r.text).map Prod.fst).getD ""

def path (r : ObjectReference) : List String :=
  match Text.splitOnce '/' r.text with
  | some (_, rest) => Text.split '.' rest
  | none => []

def toMms (r : ObjectReference) (fc : Fc) : String × String :=
  match r.path with
  | [] => (r.ld, "")
  | first :: rest =>
    (r.ld, Text.join '$' (first :: (if fc ≠ .none ∧ fc ≠ .all then fc.asStr :: rest else rest)))

def fromMms (domain item : String) : ObjectReference × Fc :=
  match Text.split '$' item with
  | first :: second :: rest =>
    match Fc.parse second with
    | some fc => (⟨domain ++ "/" ++ Text.join '.' (first :: rest)⟩, fc)
    | none => (⟨domain ++ "/" ++ Text.join '.' (first :: second :: rest)⟩, .none)
  | parts => (⟨domain ++ "/" ++ Text.join '.' parts⟩, .none)

end ObjectReference

structure Fcda where
  reference : ObjectReference
  fc : Fc
deriving DecidableEq

structure DataSet where
  name : String
  entries : List Fcda
  deletable : Bool := false

/-- The client a `ClientLN` reserves an instance for; the address is known when the file gives it. -/
structure ClientReservation where
  iedName : String
  ip : Option IpAddr
deriving DecidableEq

structure ReportControl where
  name : String
  rptId : String := ""
  dataSet : String := ""
  confRev : UInt32 := 0
  buffered : Bool := false
  bufTime : UInt32 := 0
  trgOps : TrgOps := 0
  optFlds : OptFlds := 0
  intgPd : UInt32 := 0
  rptEnabled : ℕ := 0
  notIndexed : Bool := false
  maxQueueSize : ℕ := 0
  reservations : List (Option ClientReservation) := []
deriving DecidableEq

inductive GsType where
  | goose
  | gsse
deriving DecidableEq

structure GseControl where
  name : String
  goId : String := ""
  dataSet : String := ""
  confRev : UInt32 := 0
  kind : GsType := .goose
  dstMac : List UInt8 := List.replicate 6 0
  appId : UInt16 := 0
  vlanId : UInt16 := 0
  vlanPri : UInt8 := 0
  minTime : UInt32 := 0
  maxTime : UInt32 := 0
  fixedOffs : Bool := false

/-- Whether a sample rate is per period, per second, or the seconds per sample. -/
inductive SmpMod where
  | smpPerPeriod
  | smpPerSec
  | secPerSmp
deriving DecidableEq

def SmpMod.code : SmpMod → UInt8
  | smpPerPeriod => 0
  | smpPerSec => 1
  | secPerSmp => 2

structure SvOpts where
  refreshTime : Bool := false
  sampleSynchronized : Bool := false
  sampleRate : Bool := false
  dataSet : Bool := false
  security : Bool := false
  timestamp : Bool := false
  synchSourceId : Bool := false
deriving DecidableEq

structure SvControl where
  name : String
  svId : String := ""
  dataSet : String := ""
  confRev : UInt32 := 0
  smpRate : UInt32 := 0
  noAsdu : UInt32 := 0
  multicast : Bool := false
  smpMod : SmpMod := .smpPerPeriod
  opts : SvOpts := {}
  protocol : String := ""
  dstMac : List UInt8 := List.replicate 6 0
  appId : UInt16 := 0
  vlanId : UInt16 := 0
  vlanPri : UInt8 := 0
deriving DecidableEq

structure LogControl where
  name : String
  dataSet : String := ""
  logName : String := ""
  trgOps : TrgOps := 0
  intgPd : UInt32 := 0
  logEna : Bool := false
  logLdInst : String := ""
  logLn : String := ""
  reasonCode : Bool := false

structure SettingControl where
  numOfSgs : UInt8 := 0
  actSg : UInt8 := 0
  resvTms : UInt32 := 0

/-- The values the configuration gives the settings of a device in one group, numbered from 1. -/
structure SettingGroup where
  number : ℕ
  ld : String
  values : List (String × Value) := []

structure LogicalNode where
  name : String
  objects : List DataObject := []
  dataSets : List DataSet := []
  reportControls : List ReportControl := []
  gseControls : List GseControl := []
  svControls : List SvControl := []
  logControls : List LogControl := []
  settingControl : Option SettingControl := none
  lnClass : String := ""
  logs : List String := []

/-- A logical device; its name is the name of the IED followed by `inst`. -/
structure LogicalDevice where
  name : String
  nodes : List LogicalNode := []
  inst : String := ""

structure Model where
  devices : List LogicalDevice := []
  settingGroups : List SettingGroup := []

namespace DataAttribute

def child (da : DataAttribute) (name : String) : Option DataAttribute :=
  da.children.find? fun c => c.name == name

def descend (da : DataAttribute) : List String → Option DataAttribute
  | [] => some da
  | name :: rest => (da.child name).bind fun c => c.descend rest

def descendMut (f : DataAttribute → DataAttribute) : List String → DataAttribute → DataAttribute
  | [], da => f da
  | name :: rest, da =>
    { da with children := update (fun c => c.name == name) (descendMut f rest) da.children }

end DataAttribute

namespace DataObject

def child (o : DataObject) (name : String) : Option DataObject :=
  o.objects.find? fun s => s.name == name

def attr (o : DataObject) (name : String) : Option DataAttribute :=
  o.attributes.find? fun a => a.name == name

def attributeAt (fc : Fc) : List String → DataObject → Option DataAttribute
  | [], _ => none
  | first :: rest, o =>
    match o.child first with
    | some sub => sub.attributeAt fc rest
    | none =>
      (o.attributes.find? fun a => a.name == first && fc.matchesFc a.fc).bind fun da =>
        da.descend rest

def attributeMut (fc : Fc) (f : DataAttribute → DataAttribute) : List String → DataObject → DataObject
  | [], o => o
  | first :: rest, o =>
    match o.child first with
    | some _ =>
      let objects := update (fun s => s.name == first) (attributeMut fc f rest) o.objects
      { o with objects := objects }
    | none =>
      let attributes := update (fun a => a.name == first && fc.matchesFc a.fc)
        (DataAttribute.descendMut f rest) o.attributes
      { o with attributes := attributes }

end DataObject

namespace LogicalNode

def object (ln : LogicalNode) (name : String) : Option DataObject :=
  ln.objects.find? fun o => o.name == name

def dataSet (ln : LogicalNode) (name : String) : Option DataSet :=
  ln.dataSets.find? fun ds => ds.name == name

end LogicalNode

def LogicalDevice.node (ld : LogicalDevice) (name : String) : Option LogicalNode :=
  ld.nodes.find? fun ln => ln.name == name

def Model.device (m : Model) (name : String) : Option LogicalDevice :=
  m.devices.find? fun ld => ld.name == name

namespace Model

def node (m : Model) (domain ln : String) : Option LogicalNode :=
  (m.device domain).bind fun ld => ld.node ln

def object (m : Model) (domain ln object : String) : Option DataObject :=
  (m.node domain ln).bind fun n => n.object object

def nodeMut (domain ln : String) (f : LogicalNode → LogicalNode) (m : Model) : Model :=
  let nodes (ld : LogicalDevice) := update (fun n => n.name == ln) f ld.nodes
  let devices := update (fun ld => ld.name == domain) (fun ld => { ld with nodes := nodes ld }) m.devices
  { m with devices := devices }

def objectMut (domain ln object : String) (f : DataObject → DataObject) (m : Model) : Model :=
  m.nodeMut domain ln fun n =>
    { n with objects := update (fun o => o.name == object) f n.objects }

def attributeMut (m : Model) (r : ObjectReference) (fc : Fc) : Option DataAttribute :=
  match r.path with
  | ln :: object :: rest => (m.object r.ld ln object).bind fun o => o.attributeAt fc rest
  | _ => none

def setAttribute (m : Model) (r : ObjectReference) (fc : Fc) (v : Value) : Model :=
  match r.path with
  | ln :: object :: rest =>
    m.objectMut r.ld ln object (DataObject.attributeMut fc (fun da => { da with value := some v }) rest)
  | _ => m

end Model

inductive CtlModel where
  | statusOnly
  | directNormal
  | sboNormal
  | directEnhanced
  | sboEnhanced
  | other (code : UInt8)
deriving DecidableEq

namespace CtlModel

def fromCode (code : UInt8) : CtlModel :=
  if code = 0 then statusOnly
  else if code = 1 then directNormal
  else if code = 2 then sboNormal
  else if code = 3 then directEnhanced
  else if code = 4 then sboEnhanced
  else other code

def hasSelect : CtlModel → Bool
  | sboNormal | sboEnhanced => true
  | _ => false

def isEnhanced : CtlModel → Bool
  | directEnhanced | sboEnhanced => true
  | _ => false

end CtlModel

inductive OrCat where
  | notSupported
  | bayControl
  | stationControl
  | remoteControl
  | automaticBay
  | automaticStation
  | automaticRemote
  | maintenance
  | process
  | other (code : UInt8)
deriving DecidableEq

namespace OrCat

def known : List OrCat :=
  [notSupported, bayControl, stationControl, remoteControl, automaticBay, automaticStation,
    automaticRemote, maintenance, process]

def fromCode (code : UInt8) : OrCat := known.getD code.toNat (other code)

def code : OrCat → UInt8
  | notSupported => 0
  | bayControl => 1
  | stationControl => 2
  | remoteControl => 3
  | automaticBay => 4
  | automaticStation => 5
  | automaticRemote => 6
  | maintenance => 7
  | process => 8
  | other n => n

end OrCat

structure AddCause where
  code : UInt8
deriving DecidableEq

namespace AddCause

def notSupported : AddCause := ⟨1⟩
def timeLimitOver : AddCause := ⟨16⟩
def objectNotSelected : AddCause := ⟨18⟩
def inconsistentParameters : AddCause := ⟨26⟩
def testNotAllowed : AddCause := ⟨28⟩

def none : AddCause := ⟨255⟩

end AddCause

namespace ObjectReference

def child (r : ObjectReference) (name : String) : ObjectReference := ⟨r.text ++ "." ++ name⟩

end ObjectReference

def Model.attribute (m : Model) (r : ObjectReference) (fc : Fc) : Option DataAttribute :=
  m.attributeMut r fc

/-- The leaves written and the trigger reasons each write raised, by reference and constraint. -/
abbrev ChangeSet := Table (ObjectReference × Fc) TrgOps

def record (changes : ChangeSet) (reference : ObjectReference) (fc : Fc) (trg : TrgOps)
    (old : Option Value) (new : Value) : ChangeSet :=
  let same := match old with
    | some v => v.beq new
    | none => false
  let change := if same then 0 else trg &&& (TrgOps.dataChange ||| TrgOps.qualityChange)
  let r := trg &&& TrgOps.dataUpdate ||| change
  changes.insert (reference, fc) ((changes.lookup (reference, fc)).getD 0 ||| r)

structure Tx where
  model : Model
  changed : ChangeSet := ∅

namespace Tx

def set (tx : Tx) (reference : ObjectReference) (fc : Fc) (v : Value) : Tx :=
  match tx.model.attributeMut reference fc with
  | none => tx
  | some da =>
    if da.children.isEmpty then
      { model := tx.model.setAttribute reference fc v
        changed := record tx.changed reference fc da.trgOps da.value v }
    else tx

def setAll (tx : Tx) (sets : List (ObjectReference × Fc × Value)) : Tx :=
  sets.foldl (fun tx s => tx.set s.1 s.2.1 s.2.2) tx

end Tx

open List

inductive RefError where
  | shape (text : String)
  | emptyComponent (text : String)
deriving DecidableEq

namespace ObjectReference
open Text

def validate (r : ObjectReference) : Except RefError Unit :=
  match splitOnce '/' r.text with
  | none => .error (.shape r.text)
  | some (ld, rest) =>
    if ld = "" ∨ rest = "" then .error (.shape r.text)
    else if "" ∈ split '.' rest then .error (.emptyComponent r.text)
    else .ok ()

/-- One slash, with a device before it and components after it. -/
def WellShaped (text : String) : Prop :=
  ∃ ld rest, split '/' text = [ld, rest] ∧ ld ≠ "" ∧ rest ≠ "" ∧ "" ∉ split '.' rest

variable {r : ObjectReference} {fc : Fc}

lemma join_split (sep : Char) (s : String) : join sep (split sep s) = s := by
  apply split_injective sep
  exact split_join (fun _ hp => not_mem_of_mem_split hp) (split_ne_nil sep s)

variable {parts : String × String}

lemma parts_of_splitOnce (h : splitOnce '/' r.text = some parts) :
    r.ld = parts.1 ∧ r.path = split '.' parts.2 ∧ r.text = parts.1 ++ "/" ++ parts.2 ∧
      split '/' r.text = parts.1 :: split '/' parts.2 := by
  have htx : r.text = parts.1 ++ "/" ++ parts.2 := eq_of_splitOnce rfl h
  refine ⟨?_, ?_, htx, ?_⟩
  · rw [ObjectReference.ld, h]
    rfl
  · rw [path, h]
  · rw [htx, split_append rfl, split_of_not_mem (not_mem_of_splitOnce h), singleton_append]

/-- The constraint goes in after the first component and is found there again. -/
theorem fromMms_toMms (hr : r.path ≠ []) (hfc : fc ∈ Fc.allValues) (hcln : ∀ p ∈ r.path, '$' ∉ p.toList) :
    fromMms (r.toMms fc).1 (r.toMms fc).2 = (r, fc) := by
  have hprs : ∀ f ∈ Fc.allValues, Fc.parse f.asStr = some f ∧ '$' ∉ f.asStr.toList ∧ f ≠ .none ∧ f ≠ .all := by
    decide +kernel
  obtain ⟨hfnd, hdollar, hconcrete⟩ := hprs fc hfc
  rcases hs : splitOnce '/' r.text with _ | parts
  · rw [path, hs] at hr
    exact absurd rfl hr
  obtain ⟨hld, hpath, htx, -⟩ := parts_of_splitOnce hs
  obtain ⟨first, more, hcomp⟩ := exists_cons_of_ne_nil hr
  have hmms : r.toMms fc = (parts.1, join '$' (first :: fc.asStr :: more)) := by
    rw [toMms, hcomp, hld]
    dsimp only
    rw [if_pos hconcrete]
  have hsp : split '$' (join '$' (first :: fc.asStr :: more)) = first :: fc.asStr :: more := by
    apply split_join _ (cons_ne_nil _ _)
    rw [hcomp] at hcln
    simp only [forall_mem_cons] at hcln ⊢
    exact ⟨hcln.1, hdollar, hcln.2⟩
  rw [hmms, fromMms, hsp]
  dsimp only
  rw [hfnd, ← hcomp, hpath, join_split, ← htx]

lemma validate_eq_ok_iff (h : splitOnce '/' r.text = some parts) :
    r.validate = .ok () ↔ parts.1 ≠ "" ∧ parts.2 ≠ "" ∧ "" ∉ split '.' parts.2 := by
  rw [validate, h]
  dsimp only
  by_cases hemp : parts.1 = "" ∨ parts.2 = ""
  · rw [if_pos hemp]
    rcases hemp with hemp | hemp <;> simp [hemp]
  rw [if_neg hemp]
  rw [not_or] at hemp
  by_cases hcomponent : "" ∈ split '.' parts.2
  · simp [hcomponent]
  · simp [hcomponent, hemp]

lemma validate_iff_wellShaped_iff (r : ObjectReference) : (r.validate = .ok () ↔ WellShaped r.text) ↔
      (2 < (split '/' r.text).length → r.ld = "" ∨ "" ∈ r.path) := by
  cases hs : splitOnce '/' r.text with
  | none =>
    have hnone : '/' ∉ r.text.toList := by
      intro hm
      obtain ⟨a, b, hsome⟩ := splitOnce_of_mem hm
      rw [hs] at hsome
      cases hsome
    have hsp : split '/' r.text = [r.text] := split_of_not_mem hnone
    have hinvalid : r.validate ≠ .ok () := by
      rw [validate, hs]
      intro h
      cases h
    simp [WellShaped, hsp, hinvalid]
  | some parts =>
    obtain ⟨hld, hpath, -, hsp⟩ := parts_of_splitOnce hs
    have hshp : WellShaped r.text ↔
        (split '/' parts.2).length = 1 ∧ parts.1 ≠ "" ∧ parts.2 ≠ "" ∧ "" ∉ split '.' parts.2 := by
      rw [WellShaped, hsp]
      constructor
      · rintro ⟨ld, rest, heq, hne⟩
        obtain ⟨rfl, hrs⟩ := cons.inj heq
        obtain rfl := eq_of_split_eq_singleton hrs
        exact ⟨by rw [hrs]; rfl, hne⟩
      rintro ⟨hlen, hne⟩
      obtain ⟨x, hx⟩ := length_eq_one_iff.mp hlen
      obtain rfl := eq_of_split_eq_singleton hx
      exact ⟨parts.1, parts.2, by rw [hx], hne⟩
    have hpos : 0 < (split '/' parts.2).length := length_pos_iff.mpr (split_ne_nil _ _)
    have hemp : parts.2 = "" → "" ∈ split '.' parts.2 := by
      intro h
      rw [h]
      decide
    rw [validate_eq_ok_iff hs, hshp, hsp, length_cons, hld, hpath]
    constructor
    · intro h hlen
      by_contra hno
      rw [not_or] at hno
      have hone := (h.mp ⟨hno.1, fun h => hno.2 (hemp h), hno.2⟩).1
      omega
    intro h
    refine ⟨?_, And.right⟩
    intro hok
    refine ⟨?_, hok⟩
    by_contra hlen
    rcases h (by omega) with hld | hm
    · exact hok.1 hld
    · exact hok.2.2 hm

/-- References survive the way to MMS names and back, and those accepted are well-shaped exactly where no
second slash goes with an otherwise good text. -/
theorem reference_mapping_iff (r : ObjectReference) :
    ((r.validate = .ok () → (∀ p ∈ r.path, '$' ∉ p.toList) → ∀ fc ∈ Fc.allValues,
        fromMms (r.toMms fc).1 (r.toMms fc).2 = (r, fc)) ∧ (r.validate = .ok () ↔ WellShaped r.text)) ↔
    (2 < (split '/' r.text).length → r.ld = "" ∨ "" ∈ r.path) := by
  rw [← validate_iff_wellShaped_iff, and_iff_right_iff_imp]
  intro _ hok hcln fc hfc
  apply fromMms_toMms _ hfc hcln
  intro hpath
  rw [validate] at hok
  rw [path] at hpath
  cases hs : splitOnce '/' r.text with
  | none =>
    rw [hs] at hok
    cases hok
  | some parts =>
    rw [hs] at hpath
    exact split_ne_nil _ _ hpath

theorem second_slash_accepted : (ObjectReference.mk "LD/LLN0/Mod").validate = .ok () ∧
    ¬ WellShaped "LD/LLN0/Mod" := by
  refine ⟨by decide +kernel, ?_⟩
  rintro ⟨ld, rest, h, -⟩
  revert h
  simp [show split '/' "LD/LLN0/Mod" = ["LD", "LLN0", "Mod"] by decide]

end ObjectReference
end Iec61850
