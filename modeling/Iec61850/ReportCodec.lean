import Iec61850.BitStrings
import Iec61850.ClientControl
import Iec61850.JournalReading
import Iec61850.ReportOrder
import Mathlib.Data.Nat.Bitwise

/-! Reports at the client: how it reads those that the server writes, and their values. -/
namespace Iec61850.Client
open Asn1 Mms Decoder
open Server (parseObjectName)

def varSpec (part : Tag × List UInt8) : Option VarRef :=
  let spec :=
    if part.1 = tagSequence then (new part.2).readTlv.toOption.map Prod.fst else some part
  spec.map fun spec =>
    if spec.1 = contextConstructed 0 then
      ((parseObjectName spec.2).toOption.map fun name => ⟨name.1, name.2⟩).getD {}
    else {}

def parseVarSpecList (content : List UInt8) : List VarRef :=
  let parts := readWhile (content.length + 1) (new content)
  ((parts.map varSpec).takeWhile Option.isSome).reduceOption

def accessResults : (fuel : ℕ) → Decoder → List Value
  | 0, _ => []
  | fuel + 1, d =>
    if d.more then
      match decodeAccessResult d with
      | .error _ => []
      | .ok (v, next) => v :: accessResults fuel next
    else []

def InformationReport.withResults (rep : InformationReport) (d : Decoder) : InformationReport :=
  match d.optional (contextConstructed 0) with
  | .ok (some content, _) => { rep with values := accessResults (content.length + 1) (new content) }
  | _ => rep

def InformationReport.ofSpec (spec : Tag) (c : List UInt8) : InformationReport :=
  if spec = contextConstructed 0 then
    { varNames := (parseVarSpecList c).map VarRef.item, varRefs := parseVarSpecList c }
  else if spec = contextConstructed 1 then
    match parseObjectName c with
    | .ok (domain, item) => { isVmdNamed := true, listName := item, listRef := ⟨domain, item⟩ }
    | .error _ => { isVmdNamed := true }
  else {}

def parseInformationReport (body : List UInt8) : Option InformationReport := do
  let (spec, _) ← (new body).readTag.toOption
  let ((_, c), d) ← (new body).readTlv.toOption
  some ((InformationReport.ofSpec spec c).withResults d)

structure ReportEntry where
  /-- The place of the member in the data set. -/
  index : ℕ
  reference : ObjectReference
  fc : Fc
  reason : ReasonCode
  value : Value

structure Report where
  rptId : String
  seqNum : UInt32
  dataSet : String
  confRev : UInt32
  entryId : List UInt8
  bufOvfl : Bool
  subSeqNum : UInt32
  moreFollows : Bool
  timeOfEntry : Option SystemTime
  entries : List ReportEntry

variable {α : Type}

def next : List Value → Option (Value × List Value)
  | [] => none
  | v :: vs => some (v, vs)

def nextIf (selected : Bool) (read : Value → α) (absent : α) (vs : List Value) : Option (α × List Value) :=
  if selected then (next vs).map fun n => (read n.1, n.2) else some (absent, vs)

def nextMany (n : ℕ) (read : Value → α) (absent : α) (vs : List Value) : List α × List Value :=
  ((List.range n).map fun k => (vs[k]?.map read).getD absent, vs.drop n)

def labelOf (member : Option VarRef) (dataRef : Option String) : ObjectReference × Fc :=
  match member with
  | some m => ObjectReference.fromMms m.domain m.item
  | none =>
    match dataRef.bind (Text.splitOnce '/') with
    | some (domain, item) => ObjectReference.fromMms domain item
    | none => (⟨""⟩, .none)

/-- The members that a report includes: their references if the flags select them, their values, and their
reasons if the flags select them. -/
def decodeEntries (r : Render) (opt : OptFlds) (members : List VarRef) (included : List ℕ) (vs : List Value) :
    List ReportEntry :=
  let n := included.length
  let (dataRefs, vs) := if opt.has .dataRef then nextMany n (Value.text r) "" vs else ([], vs)
  let (values, vs) := nextMany n id .none vs
  let reasons := if opt.has .reasonCode then (nextMany n ReasonCode.fromValue 0 vs).1 else []
  included.mapIdx fun k idx =>
    let label := labelOf members[idx]? dataRefs[k]?
    { index := idx, reference := label.1, fc := label.2, reason := (reasons[k]?).getD 0,
      value := (values[k]?).getD .none }

/-- Reads the values of a report in the order of its format; the flags in the report say which fields it has. -/
def decodeReport (r : Render) (ir : InformationReport) (members : List VarRef) : Option Report :=
  if ir.values.length < 3 then none
  else do
    let (rptId, vs) ← next ir.values
    let (flags, vs) ← next vs
    let opt := OptFlds.fromValue flags
    let (seqNum, vs) ← nextIf (opt.has .seqNum) Value.asU32 0 vs
    let (timeOfEntry, vs) ← nextIf (opt.has .timeOfEntry) Value.time none vs
    let (dataSet, vs) ← nextIf (opt.has .dataSetName) (Value.text r) "" vs
    let (bufOvfl, vs) ← nextIf (opt.has .bufOvfl) Value.asBool false vs
    let (entryId, vs) ← nextIf (opt.has .entryId) Value.bytes [] vs
    let (confRev, vs) ← nextIf (opt.has .confRev) Value.asU32 0 vs
    let (subSeqNum, vs) ← nextIf (opt.has .segmentation) Value.asU32 0 vs
    let (moreFollows, vs) ← nextIf (opt.has .segmentation) Value.asBool false vs
    let (inclusion, vs) ← next vs
    let entries := decodeEntries r opt members inclusion.setPositions vs
    some { rptId := rptId.text r, seqNum, dataSet, confRev, entryId, bufOvfl, subSeqNum, moreFollows, timeOfEntry, entries }

end Iec61850.Client

namespace Iec61850.Mms
open Asn1 Server TimeUtil Value Client UInt8

/-- The days that a point in time counts from 1984 on fit in two octets. -/
def InEra (t : SystemTime) : Prop :=
  binaryTimeEpochDays * 86400 ≤ t.secs ∧ t.secs < (binaryTimeEpochDays + 2 ^ 16) * 86400
deriving Decidable

lemma octets_compose {n : ℕ} (h : n < 2 ^ 32) :
    (((UInt8.ofNat (n / 2 ^ 24)).toNat * 256 + (UInt8.ofNat (n / 2 ^ 16)).toNat) * 256 +
      (UInt8.ofNat (n / 2 ^ 8)).toNat) * 256 + (UInt8.ofNat n).toNat = n := by
  simp only [toNat_ofNat']
  omega

lemma time_binaryTime {ms : ℕ} (hms : ms < 2 ^ 32) (days : ℕ) :
    (binaryTime [UInt8.ofNat (ms / 2 ^ 24), UInt8.ofNat (ms / 2 ^ 16), UInt8.ofNat (ms / 2 ^ 8),
      UInt8.ofNat ms, UInt8.ofNat (days / 2 ^ 8), UInt8.ofNat days]).time =
      some (fromUnix ((binaryTimeEpochDays + (days % 2 ^ 16 : ℕ)) * 86400 + (ms / 1000 : ℕ))
        (ms % 1000 * 1000000)) := by
  have hdays : (ofNat (days / 2 ^ 8)).toNat * 256 + (ofNat days).toNat = days % 2 ^ 16 := by
    simp only [toNat_ofNat']
    omega
  rw [← hdays]
  conv_rhs => rw [← octets_compose hms]
  rfl

variable {t : SystemTime}

section
variable (h : t.nanos < 1000000000)
include h

lemma wireTime_eq : wireTime t = ⟨(binaryTimeEpochDays +
        ((max (t.secs / 86400 - binaryTimeEpochDays) 0).toNat % 2 ^ 16 : ℕ)) * 86400 + t.secs % 86400,
      t.nanos / 1000000 * 1000000⟩ := by
  have hms : ((t.secs % 86400) * 1000 + (t.nanos / 1000000 : ℕ)).toNat < 2 ^ 32 := by omega
  have hwire : some (wireTime t) = _ := time_binaryTime hms (max (t.secs / 86400 - binaryTimeEpochDays) 0).toNat
  rw [Option.some.inj hwire]
  generalize (max (t.secs / 86400 - binaryTimeEpochDays) 0).toNat % 2 ^ 16 = days
  rw [fromUnix, SystemTime.mk.injEq]
  constructor
  · omega
  · omega

lemma toMillis_wireTime : toMillis (wireTime t) = wireTime t := by
  rw [wireTime_eq h, toMillis_eq (by dsimp only; omega), SystemTime.mk.injEq]
  exact ⟨rfl, by dsimp only; omega⟩

lemma wireTime_eq_toMillis_iff : wireTime t = toMillis t ↔ InEra t := by
  rw [wireTime_eq h, toMillis_eq h, SystemTime.mk.injEq]
  unfold InEra binaryTimeEpochDays
  omega

end

namespace Value

variable {vs : List Value}

lemma wellFormedAll_iff : WellFormedAll vs ↔ ∀ v ∈ vs, v.WellFormed := by
  induction vs with
  | nil => simp [WellFormedAll]
  | cons v vs ih => rw [WellFormedAll, ih, List.forall_mem_cons]

lemma levelsAll_le_iff {n : ℕ} : levelsAll vs ≤ n ↔ ∀ v ∈ vs, v.levels ≤ n := by
  induction vs with
  | nil => simp [levelsAll]
  | cons v vs ih => rw [levelsAll, Nat.max_le, ih, List.forall_mem_cons]

lemma rereadAll_eq_map (vs : List Value) : rereadAll vs = vs.map reread := by
  induction vs with
  | nil => rfl
  | cons v vs ih => rw [rereadAll, ih, List.map_cons]

structure Plain (v : Value) : Prop where
  wellFormed : v.WellFormed
  levels : v.levels = 1
  reread : v.reread = v

lemma plain_bitString {bs : BitString} (h : Packed bs) : Plain (bitString bs) := ⟨h, rfl, rfl⟩

lemma plain_toBits (mask width : ℕ) : Plain (toBits mask width) := by
  obtain ⟨bs, hbs, hp, -⟩ := toBits_spec mask width
  rw [hbs]
  exact plain_bitString hp

end Value

open Element

lemma decodeAccessResult_encode {v : Value} {e : Element} (he : dataElement v = some e) (hv : v.WellFormed)
    (hlev : v.levels ≤ maxValueDepth + 1) (hlen : e.content.length < 2 ^ 32) :
    ReadsBack decodeAccessResult v.reread e := by
  have hlow := dataElement_low v e he
  have hbk : ReadsBack decodeData v.reread e := decodeDataAt_reread he hv hlev hlen
  intro off rest
  unfold decodeAccessResult
  rw [readTag_encode hlow]
  dsimp only
  split
  case isFalse => exact hbk off rest
  case isTrue htag =>
    -- The data decoder reads this tag as the same failure.
    have htlv (children : List UInt8 → Except DecodeError (List Value)) :
        decodeDataTlv children (contextPrimitive 0) e.content =
          ((decodeUint e.content).mapError .asn1).map fun n => .dataAccessError (.fromCode (ofNat n)) := rfl
    have hdata := hbk off rest
    unfold decodeData decodeDataAt at hdata
    rw [readTlv_encode hlow hlen] at hdata ⊢
    dsimp only at hdata ⊢
    rw [htag, htlv] at hdata
    rw [← hdata]
    cases (decodeUint e.content).mapError DecodeError.asn1 with
    | error _ => rfl
    | ok _ => rfl

variable {vs : List Value}

lemma accessResults_dataElements {fuel off : ℕ} (hvs : WellFormedAll vs)
    (hlev : levelsAll vs ≤ maxValueDepth + 1) (h : AllFit (dataElements vs))
    (hfuel : sizes (dataElements vs) < fuel) :
    accessResults fuel ⟨off, encodeAll (dataElements vs)⟩ = rereadAll vs := by
  induction vs generalizing fuel off with
  | nil =>
    cases fuel with
    | zero => omega
    | succ fuel => rfl
  | cons v vs ih =>
    obtain ⟨e, he⟩ := hvs.1.element
    have hmax : max v.levels (levelsAll vs) ≤ maxValueDepth + 1 := hlev
    rw [dataElements_cons he] at h hfuel ⊢
    have hlt := length_content_lt h.low.1
    rw [sizes_cons] at hfuel
    rw [encodeAll_cons]
    cases fuel with
    | zero => omega
    | succ fuel =>
      have hrd := decodeAccessResult_encode he hvs.1 (by omega) h.head.length_lt off (encodeAll (dataElements vs))
      rw [accessResults, if_pos (more_encode h.low.1), hrd]
      dsimp only
      rw [ih hvs.2 (by omega) h.tail (by omega), rereadAll]

def rptName : Element := cons (contextConstructed 1) [prim (contextPrimitive 0) (Text.octets "RPT")]

def rptResults (vs : List Value) : Element := cons (contextConstructed 0) (dataElements vs)

def rptElement (vs : List Value) : Element := cons (contextConstructed 0) [rptName, rptResults vs]

lemma rptElement_low (vs : List Value) : AllLows [rptName, rptResults vs] :=
  ⟨cons_low (by decide) ⟨prim_low (by decide) _, trivial⟩, cons_low (by decide) (dataElements_low vs), trivial⟩

lemma parseInformationReport_rpt (hvs : WellFormedAll vs)
    (hlev : levelsAll vs ≤ maxValueDepth + 1) (hsz : (rptElement vs).content.length < 2 ^ 32) :
    parseInformationReport (rptElement vs).content = some
      { isVmdNamed := true, listName := "RPT", listRef := ⟨"", "RPT"⟩, values := rereadAll vs } := by
  have hps : AllFit [rptName, rptResults vs] :=
    ⟨rptElement_low vs, (length_content_cons (rptElement_low vs)).symm.trans_lt hsz⟩
  have hnm := hps.head
  have hress := hps.tail.head
  have hdata : AllFit (dataElements vs) := hress.parts
  have hbody : Decoder.new (rptElement vs).content = ⟨0, rptName.encode ++ encodeAll [rptResults vs]⟩ := rfl
  have hspec : InformationReport.ofSpec rptName.tag rptName.content =
      { isVmdNamed := true, listName := "RPT", listRef := ⟨"", "RPT"⟩ } := by
    have hobj : parseObjectName rptName.content = .ok ("", "RPT") := by rfl
    rw [InformationReport.ofSpec, if_neg (by decide), if_pos (by decide), hobj]
  have hlist : encodeAll [rptResults vs] = (rptResults vs).encode ++ [] := rfl
  have htag : (rptResults vs).tag = contextConstructed 0 := rfl
  have hvals : accessResults ((rptResults vs).content.length + 1) (Decoder.new (rptResults vs).content) =
      rereadAll vs :=
    accessResults_dataElements hvs hlev hdata (by rw [rptResults, length_content_cons hdata.low]; omega)
  unfold parseInformationReport
  rw [hbody, readTag_encode hnm.low, readTlv_encode hnm.low hnm.length_lt]
  show some (InformationReport.withResults (.ofSpec rptName.tag rptName.content) _) = _
  unfold InformationReport.withResults
  rw [hspec, hlist, optional_encode hress htag]
  dsimp only
  rw [hvals]

end Iec61850.Mms

namespace Iec61850.Client
open Mms Value ReasonCode List Option UInt16 BitString UInt8 TimeUtil Report Columns
open Server (DsMember ReportFields reportElement effectiveOptFlds supportedOptFlds rows Aligned)

variable {α : Type} {b : Bool} {o : OptFlds}

def flagged (b : Bool) (vs : List Value) : List Value := if b then vs else []

variable {vs : List Value} {β : Type} {n : ℕ}

lemma forall_flagged {p : Value → Prop} (h : ∀ v ∈ vs, p v) : ∀ v ∈ flagged b vs, p v := by
  cases b with
  | true => exact h
  | false => exact fun v hv => absurd hv not_mem_nil

lemma bind_next (v : Value) (vs : List Value) (k : Value × List Value → Option β) :
    (next (v :: vs) >>= k) = k (v, vs) := rfl

lemma bind_nextIf_flagged (read : Value → α) (absent : α) (v : Value) (rest : List Value)
    (k : α × List Value → Option β) : (nextIf b read absent (flagged b [v] ++ rest) >>= k) =
      k (if b then read v else absent, rest) := by
  cases b with
  | true => rfl
  | false => rfl

lemma nextMany_append (read : Value → α) (absent : α) (hlen : vs.length = n)
    (rest : List Value) : nextMany n read absent (vs ++ rest) = (vs.map read, rest) := by
  subst hlen
  refine Prod.ext ?_ drop_left
  apply ext_getElem
  · simp [nextMany]
  intro k hk hk'
  have hlt : k < vs.length := by simpa using hk'
  simp [nextMany, getElem?_append_left hlt, getElem?_eq_getElem hlt]

lemma nextMany_flagged (read : Value → α) (absent : α) (hlen : vs.length = n)
    (rest : List Value) : (if b then nextMany n read absent (flagged b vs ++ rest) else ([], flagged b vs ++ rest)) =
      (if b then vs.map read else [], rest) := by
  cases b with
  | true => exact nextMany_append read absent hlen rest
  | false => rfl

def sentOpt (f : ReportFields) (segment : Option (UInt16 × Bool)) : OptFlds :=
  if segment.isSome then f.opt ||| OptFlds.segmentation else f.opt

lemma effectiveOptFlds_lt (o : OptFlds) (buffered : Bool) : (effectiveOptFlds o buffered).toNat < 2 ^ 9 := by
  have hmask (m : OptFlds) : (o &&& supportedOptFlds &&& m).toNat ≤ supportedOptFlds.toNat := by
    rw [UInt16.toNat_and, UInt16.toNat_and]
    exact Nat.le_trans Nat.and_le_left Nat.and_le_right
  have hsupported : supportedOptFlds.toNat < 2 ^ 9 := by decide
  unfold effectiveOptFlds
  split
  · rw [UInt16.toNat_and]
    exact Nat.lt_of_le_of_lt Nat.and_le_right hsupported
  · exact Nat.lt_of_le_of_lt (hmask _) hsupported

lemma fromValue_value (h : o.toNat < 2 ^ OptFlds.width) : OptFlds.fromValue o.value = o := by
  unfold OptFlds.fromValue OptFlds.value
  rw [fromBits_toBits, Nat.mod_eq_of_lt h, UInt16.ofNat_toNat]

lemma has_segmentation (o : OptFlds) : o.has OptFlds.segmentation = o.toNat.testBit 9 := by
  have hand : (o &&& OptFlds.segmentation).toNat = (o.toNat.testBit 9).toNat * 2 ^ 9 := by
    rw [UInt16.toNat_and]
    exact Nat.and_two_pow o.toNat 9
  have hz : o &&& OptFlds.segmentation = 0 ↔ o.toNat.testBit 9 = false := by
    rw [← UInt16.toNat_inj, hand]
    cases o.toNat.testBit 9 with
    | true => decide
    | false => decide
  rw [OptFlds.has]
  cases hbit : o.toNat.testBit 9 with
  | false => rw [hz.mpr hbit]; rfl
  | true =>
    have hne : o &&& OptFlds.segmentation ≠ 0 := fun h => absurd (hz.mp h) (by simp [hbit])
    exact bne_iff_ne.mpr hne

variable {f : ReportFields} {segment : Option (UInt16 × Bool)}

section
variable (hopt : f.opt = effectiveOptFlds o f.buffered)
include hopt

lemma sentOpt_lt : (sentOpt f segment).toNat < 2 ^ OptFlds.width := by
  have hlt : f.opt.toNat < 2 ^ 9 := by
    rw [hopt]
    exact effectiveOptFlds_lt o f.buffered
  unfold sentOpt
  split
  · rw [UInt16.toNat_or]
    exact Nat.or_lt_two_pow (Nat.lt_trans hlt (by decide)) (by decide)
  · exact Nat.lt_trans hlt (by decide)

lemma sentOpt_segmentation : (sentOpt f segment).has OptFlds.segmentation = segment.isSome := by
  have hlt : f.opt.toNat < 2 ^ 9 := by
    rw [hopt]
    exact effectiveOptFlds_lt o f.buffered
  rw [has_segmentation, sentOpt]
  rcases segment with _ | s
  · exact Nat.testBit_lt_two_pow hlt
  rw [isSome_some, if_pos rfl, UInt16.toNat_or, Nat.testBit_or]
  have hbit : OptFlds.segmentation.toNat.testBit 9 := by decide
  rw [hbit, Bool.or_true]

end

variable {e : Server.ReportEntry} {members : List DsMember} {lo hi : ℕ} {included : List ℕ}

def inclusionOf (n : ℕ) (included : List ℕ) : Value :=
  included.foldl (fun v idx => v.setBit idx true) (.bitString (BitString.new n))

def referencesOf (members : List DsMember) (included : List ℕ) : List Value :=
  included.filterMap fun idx => (members[idx]?).map fun m => visibleText (m.domain ++ "/" ++ m.item)

def headValues (f : ReportFields) (e : Server.ReportEntry) (members : List DsMember) (lo hi : ℕ)
    (segment : Option (UInt16 × Bool)) : List Value :=
  let opt := sentOpt f segment
  [visibleText f.rptId, opt.value] ++
    (flagged (opt.has .seqNum) [if f.buffered then .uint16 (UInt16.ofNat f.seq) else .uint8 (UInt8.ofNat f.seq)] ++
    (flagged (opt.has .timeOfEntry) [.binaryTimeOf e.time] ++
    (flagged (opt.has .dataSetName) [.visibleText f.datSet] ++
    (flagged (opt.has .bufOvfl) [.boolean f.bufOvfl] ++
    (flagged (opt.has .entryId) [.octetString e.id] ++
    (flagged (opt.has .confRev) [.uint32 f.confRev] ++
    (flagged segment.isSome [.uint16 ((segment.map Prod.fst).getD 0)] ++
    (flagged segment.isSome [.boolean ((segment.map Prod.snd).getD false)] ++
    (inclusionOf members.length (slice lo hi e.members) ::
      flagged (opt.has .dataRef) (referencesOf members (slice lo hi e.members)))))))))))

def tailValues (f : ReportFields) (e : Server.ReportEntry) (lo hi : ℕ) (segment : Option (UInt16 × Bool)) : List Value :=
  flagged ((sentOpt f segment).has .reasonCode) ((slice lo hi e.reasons).map value)

lemma reportElement_eq : reportElement f e members lo hi segment =
    rptElement (headValues f e members lo hi segment ++ (slice lo hi e.values ++ tailValues f e lo hi segment)) := by
  unfold reportElement headValues
  cases segment with
  | none | some =>
    simp only [append_assoc, cons_append, nil_append]
    rfl

/-- The members of a report that can be sent: ascending members of the data set, with a value and a reason each. -/
structure Reportable (e : Server.ReportEntry) (members : List DsMember) : Prop where
  aligned : Aligned e
  inRange : ∀ i ∈ e.members, i < members.length
  nanos : e.time.nanos < 1000000000
  encodable : ∀ v ∈ e.values, v.WellFormed ∧ v.levels ≤ maxValueDepth + 1

lemma inclusionOf_spec (hsrt : included.Pairwise (· < ·)) (hlt : ∀ i ∈ included, i < n) :
    (inclusionOf n included).Plain ∧ (inclusionOf n included).setPositions = included := by
  obtain ⟨bs, hbs, hp, hlen, hbits⟩ := setBits_bitString included (fun _ => true) (packed_new n) hlt
  have hlen : bs.length = n := hlen
  have hinclusion : inclusionOf n included = .bitString bs := hbs
  rw [hinclusion]
  refine ⟨plain_bitString hp, ?_⟩
  apply setPositions_of_mem hsrt
  · intro i hi
    exact Nat.lt_of_lt_of_eq (hlt i hi) hlen.symm
  intro j _
  have hbit : (bitString bs).bit j = if j ∈ included then true else (new n).bit j := hbits j
  rw [hbit, bit_new]
  by_cases hj : j ∈ included
  · simp [hj]
  · simp [hj]

lemma plain_headValues (he : Reportable e members) : ∀ v ∈ headValues f e members lo hi segment, v.Plain := by
  have hslice : ∀ i ∈ slice lo hi e.members, i < members.length := fun i hi => he.inRange i ((slice_sublist _).subset hi)
  have hsrt : (slice lo hi e.members).Pairwise (· < ·) := he.aligned.ascending.sublist (slice_sublist _)
  have hone {b : Bool} {v : Value} (hv : v.Plain) : ∀ w ∈ flagged b [v], w.Plain :=
    forall_flagged (forall_mem_singleton.mpr hv)
  have hunsigned (n : UInt64) : (unsigned n).Plain := ⟨trivial, rfl, rfl⟩
  have hseq : (if f.buffered then uint16 (ofNat f.seq) else uint8 (ofNat f.seq)).Plain := by
    split
    · exact hunsigned _
    · exact hunsigned _
  have hrefs : ∀ v ∈ referencesOf members (slice lo hi e.members), v.Plain := by
    intro v hv
    obtain ⟨i, -, hi⟩ := mem_filterMap.mp hv
    obtain ⟨m, -, rfl⟩ := map_eq_some_iff.mp hi
    exact ⟨trivial, rfl, rfl⟩
  simp only [headValues, forall_mem_append, forall_mem_cons]
  exact ⟨⟨⟨trivial, rfl, rfl⟩, plain_toBits _ _, forall_mem_nil _⟩, hone hseq, hone ⟨.inr rfl, rfl, rfl⟩,
    hone ⟨trivial, rfl, rfl⟩, hone ⟨trivial, rfl, rfl⟩, hone ⟨trivial, rfl, rfl⟩, hone (hunsigned _), hone (hunsigned _),
    hone ⟨trivial, rfl, rfl⟩, (inclusionOf_spec hsrt hslice).1, forall_flagged hrefs⟩

lemma plain_tailValues : ∀ v ∈ tailValues f e lo hi segment, v.Plain := by
  apply forall_flagged
  intro v hv
  obtain ⟨reason, -, rfl⟩ := mem_map.mp hv
  exact plain_toBits _ _

lemma parse_reportElement (he : Reportable e members)
    (hsz : (reportElement f e members lo hi segment).content.length < 2 ^ 32) :
    parseInformationReport (reportElement f e members lo hi segment).content = some
      { isVmdNamed := true, listName := "RPT", listRef := ⟨"", "RPT"⟩
        values := headValues f e members lo hi segment ++
          (slice lo hi (e.values.map reread) ++ tailValues f e lo hi segment) } := by
  have hhead : ∀ v ∈ headValues f e members lo hi segment, v.Plain := plain_headValues he
  have htail : ∀ v ∈ tailValues f e lo hi segment, v.Plain := plain_tailValues
  have hvals : ∀ v ∈ slice lo hi e.values, v.WellFormed ∧ v.levels ≤ maxValueDepth + 1 :=
    fun v hv => he.encodable v ((slice_sublist _).subset hv)
  have hone {v : Value} (hv : v.Plain) : v.WellFormed ∧ v.levels ≤ maxValueDepth + 1 :=
    ⟨hv.wellFormed, by rw [hv.levels]; decide⟩
  have hall : ∀ v ∈ headValues f e members lo hi segment ++ (slice lo hi e.values ++ tailValues f e lo hi segment),
      v.WellFormed ∧ v.levels ≤ maxValueDepth + 1 := by
    rw [forall_mem_append, forall_mem_append]
    exact ⟨fun v hv => hone (hhead v hv), hvals, fun v hv => hone (htail v hv)⟩
  have hsm {vs : List Value} (hvs : ∀ v ∈ vs, v.Plain) : vs.map reread = vs :=
    (map_congr_left fun v hv => (hvs v hv).reread).trans (map_id vs)
  rw [reportElement_eq] at hsz ⊢
  rw [parseInformationReport_rpt (wellFormedAll_iff.mpr fun v hv => (hall v hv).1)
    (levelsAll_le_iff.mpr fun v hv => (hall v hv).2) hsz]
  rw [rereadAll_eq_map, map_append, map_append, hsm hhead, hsm htail, slice_map]

variable {known : List VarRef} {ir : InformationReport} {r : Render} {opt : OptFlds}

def memberLabel (members : List DsMember) (i : ℕ) : ObjectReference × Fc :=
  ((members[i]?).map fun m => ObjectReference.fromMms m.domain m.item).getD (⟨""⟩, .none)

def entryOf (members : List DsMember) (reasoned : Bool) (row : (ℕ × Value) × ReasonCode) : ReportEntry :=
  { index := row.1.1
    reference := (memberLabel members row.1.1).1
    fc := (memberLabel members row.1.1).2
    reason := if reasoned then row.2 else 0
    value := row.1.2 }

/-- The report that a client should get: the fields that the flags select, and the members of the segment. -/
def reportOf (f : ReportFields) (e : Server.ReportEntry) (members : List DsMember) (lo hi : ℕ)
    (segment : Option (UInt16 × Bool)) : Report :=
  let opt := sentOpt f segment
  { rptId := f.rptId
    seqNum := if opt.has .seqNum then UInt32.ofNat f.seq else 0
    dataSet := if opt.has .dataSetName then f.datSet else ""
    confRev := if opt.has .confRev then f.confRev else 0
    entryId := if opt.has .entryId then e.id else []
    bufOvfl := if opt.has .bufOvfl then f.bufOvfl else false
    subSeqNum := ((segment.map Prod.fst).getD 0).toUInt32
    moreFollows := (segment.map Prod.snd).getD false
    timeOfEntry := if opt.has .timeOfEntry then some (TimeUtil.toMillis e.time) else none
    entries := (slice lo hi (rows e)).map (entryOf members (opt.has .reasonCode)) }

lemma decodeReport_fields
    {rptId flags seqNum time dataSet bufOvfl entryId confRev subSeqNum moreFollows inclusion : Value}
    {rest : List Value} (hflg : OptFlds.fromValue flags = opt)
    (hvals : ir.values = [rptId, flags] ++
      (flagged (opt.has .seqNum) [seqNum] ++ (flagged (opt.has .timeOfEntry) [time] ++
      (flagged (opt.has .dataSetName) [dataSet] ++ (flagged (opt.has .bufOvfl) [bufOvfl] ++
      (flagged (opt.has .entryId) [entryId] ++ (flagged (opt.has .confRev) [confRev] ++
      (flagged (opt.has .segmentation) [subSeqNum] ++ (flagged (opt.has .segmentation) [moreFollows] ++
      (inclusion :: rest)))))))))) :
    decodeReport r ir known = some
      { rptId := rptId.text r
        seqNum := if opt.has .seqNum then seqNum.asU32 else 0
        dataSet := if opt.has .dataSetName then dataSet.text r else ""
        confRev := if opt.has .confRev then confRev.asU32 else 0
        entryId := if opt.has .entryId then entryId.bytes else []
        bufOvfl := if opt.has .bufOvfl then bufOvfl.asBool else false
        subSeqNum := if opt.has .segmentation then subSeqNum.asU32 else 0
        moreFollows := if opt.has .segmentation then moreFollows.asBool else false
        timeOfEntry := if opt.has .timeOfEntry then time.time else none
        entries := decodeEntries r opt known inclusion.setPositions rest } := by
  have hlen : ¬ ir.values.length < 3 := by
    rw [hvals]
    simp only [length_append, length_cons]
    omega
  unfold decodeReport
  rw [if_neg hlen, hvals]
  simp only [cons_append, nil_append, bind_next, hflg, bind_nextIf_flagged]

def seqModulus (buffered : Bool) : ℕ := if buffered then 2 ^ 16 else 2 ^ 8

def fieldsOnWire (f : ReportFields) : ReportFields := { f with seq := f.seq % seqModulus f.buffered }

def reasonOnWire (reason : ReasonCode) : ReasonCode := UInt8.ofNat (reason.toNat % 2 ^ width)

def entryOnWire (e : Server.ReportEntry) : Server.ReportEntry :=
  { e with
    time := wireTime e.time
    values := e.values.map reread
    reasons := e.reasons.map reasonOnWire }

lemma reasonOnWire_eq (reason : ReasonCode) : fromValue reason.value = reasonOnWire reason := by
  unfold fromValue value reasonOnWire
  rw [fromBits_toBits]

lemma decodeEntries_members {values : List Value}
    {reasons : List ReasonCode} (hin : ∀ i ∈ included, i < members.length) (hvals : values.length = included.length)
    (hreasons : reasons.length = included.length) (hlabel : ∀ i ∈ included, labelOf known[i]?
      (if opt.has .dataRef then (members[i]?).map fun m => m.domain ++ "/" ++ m.item else none) = memberLabel members i) :
    decodeEntries r opt known included (flagged (opt.has .dataRef) (referencesOf members included) ++
        (values ++ flagged (opt.has .reasonCode) (reasons.map value))) =
      ((included.zip values).zip (reasons.map reasonOnWire)).map (entryOf members (opt.has .reasonCode)) := by
  have hrefs : referencesOf members included =
      included.map fun i => visibleText (((members[i]?).map fun m => m.domain ++ "/" ++ m.item).getD "") := by
    apply List.filterMap_eq_map_iff_forall_eq_some.mpr
    intro i hi
    rw [List.getElem?_eq_getElem (hin i hi)]
    rfl
  have hlen : (referencesOf members included).length = included.length := by rw [hrefs, List.length_map]
  have hrd (b : Bool) : (if b then (nextMany included.length fromValue 0
      (flagged b (reasons.map value))).1 else []) = if b then reasons.map reasonOnWire else [] := by
    rcases b with _ | _
    · rfl
    have hmany := nextMany_append fromValue 0 ((List.length_map value).trans hreasons) []
    rw [List.append_nil, List.map_map] at hmany
    have hcomp : fromValue ∘ value = reasonOnWire := funext reasonOnWire_eq
    rw [hcomp] at hmany
    exact congrArg Prod.fst hmany
  dsimp only [decodeEntries]
  rw [nextMany_flagged _ _ hlen]
  dsimp only
  rw [nextMany_append _ _ hvals]
  dsimp only
  rw [hrd]
  apply mapIdx_eq_map_zip hvals ((List.length_map reasonOnWire).trans hreasons)
  intro k i v reason hi hv hreason
  have hm : i ∈ included := List.mem_of_getElem? hi
  -- The reference of the member stands at its place among the references.
  have hdata : (if opt.has .dataRef then (referencesOf members included).map (text r) else [])[k]? =
      if opt.has .dataRef then (members[i]?).map fun m => m.domain ++ "/" ++ m.item else none := by
    split
    · have htx (s : String) : (visibleText s).text r = s := Text.fromUtf8Lossy_octets s
      rw [hrefs, List.getElem?_map, List.getElem?_map, hi, Option.map_some, Option.map_some, htx,
        List.getElem?_eq_getElem (hin i hm)]
      rfl
    · rfl
  have hreasoned : ((if opt.has .reasonCode then reasons.map reasonOnWire else [])[k]?).getD 0 =
      if opt.has .reasonCode then reason else 0 := by
    split
    · rw [hreason]
      rfl
    · rfl
  rw [hdata, hlabel i hm, hreasoned, List.map_id, hv]
  rfl

lemma asU32_sequence (f : ReportFields) :
    (if f.buffered then uint16 (UInt16.ofNat f.seq) else uint8 (UInt8.ofNat f.seq)).asU32 =
      UInt32.ofNat (fieldsOnWire f).seq := by
  unfold fieldsOnWire seqModulus
  split
  · show (UInt16.ofNat f.seq).toUInt64.toUInt32 = _
    apply UInt32.toNat_inj.mp
    simp only [UInt64.toNat_toUInt32, UInt16.toNat_toUInt64, UInt16.toNat_ofNat', UInt32.toNat_ofNat']
  show (UInt8.ofNat f.seq).toUInt64.toUInt32 = _
  apply UInt32.toNat_inj.mp
  simp only [UInt64.toNat_toUInt32, UInt8.toNat_toUInt64, UInt8.toNat_ofNat', UInt32.toNat_ofNat']

/-- The client tells the members that a report includes by what it knows of the data set, or by the report. -/
def Labelled (f : ReportFields) (e : Server.ReportEntry) (members : List DsMember) (lo hi : ℕ)
    (segment : Option (UInt16 × Bool)) (known : List VarRef) : Prop :=
  ∀ i ∈ slice lo hi e.members, labelOf known[i]?
    (if (sentOpt f segment).has .dataRef then (members[i]?).map fun m => m.domain ++ "/" ++ m.item else none) =
      memberLabel members i

lemma decodeReport_values (hopt : f.opt = effectiveOptFlds o f.buffered) (he : Reportable e members)
    (hvals : ir.values = headValues f e members lo hi segment ++
      (slice lo hi (e.values.map reread) ++ tailValues f e lo hi segment))
    (hlabel : Labelled f e members lo hi segment known) :
    decodeReport r ir known = some (reportOf (fieldsOnWire f) (entryOnWire e) members lo hi segment) := by
  have hflg : OptFlds.fromValue (sentOpt f segment).value = sentOpt f segment := fromValue_value (sentOpt_lt hopt)
  have hsegment : (sentOpt f segment).has .segmentation = segment.isSome := sentOpt_segmentation hopt
  have hin : ∀ i ∈ slice lo hi e.members, i < members.length := fun i hi => he.inRange i ((slice_sublist _).subset hi)
  have hsrt : (slice lo hi e.members).Pairwise (· < ·) := he.aligned.ascending.sublist (slice_sublist _)
  have hent := decodeEntries_members (r := r) hin
    (length_slice ((length_map reread).trans he.aligned.values)) (length_slice he.aligned.reasons) hlabel
  simp only [headValues, tailValues, append_assoc, cons_append, ← hsegment] at hvals
  have htx (s : String) : (visibleText s).text r = s := Text.fromUtf8Lossy_octets s
  have hrows : ((slice lo hi e.members).zip (slice lo hi (e.values.map reread))).zip
      ((slice lo hi e.reasons).map reasonOnWire) = slice lo hi (rows (entryOnWire e)) := by
    rw [← slice_map, ← slice_zip, ← slice_zip]
    rfl
  have htime : (binaryTimeOf e.time).time = some (toMillis (wireTime e.time)) := by
    rw [toMillis_wireTime he.nanos]
    rfl
  have hconf : (uint32 f.confRev).asU32 = f.confRev := UInt32.toUInt32_toUInt64 f.confRev
  rw [decodeReport_fields hflg hvals, (inclusionOf_spec hsrt hin).2, hent, hrows, htx, htx, htime, hconf,
    asU32_sequence, hsegment]
  rcases segment with _ | s
  · rfl
  have hsub : (uint16 s.1).asU32 = s.1.toUInt32 := toUInt32_toUInt64 s.1
  simp only [isSome_some, if_true, map_some, getD_some, hsub]
  rfl

/-- The format has room for what a report says: for its sequence number, for the day of its time, for the reasons of
its members, and for the values. -/
structure Representable (f : ReportFields) (e : Server.ReportEntry) (lo hi : ℕ) (segment : Option (UInt16 × Bool)) :
    Prop where
  seqNum : (sentOpt f segment).has .seqNum → f.seq % 2 ^ 32 < seqModulus f.buffered
  time : (sentOpt f segment).has .timeOfEntry → InEra e.time
  rows : ∀ row ∈ slice lo hi (rows e), ((sentOpt f segment).has .reasonCode → row.2.toNat < 2 ^ width) ∧ row.1.2.Exact

lemma ite_eq_ite_iff {x y z : α} : ((if b then x else z) = if b then y else z) ↔ (b → x = y) := by
  cases b with
  | true => exact ⟨fun h _ => h, fun h => h rfl⟩
  | false => exact ⟨fun _ h => absurd h Bool.false_ne_true, fun _ => rfl⟩

lemma sequence_kept_iff (f : ReportFields) :
    UInt32.ofNat (fieldsOnWire f).seq = UInt32.ofNat f.seq ↔ f.seq % 2 ^ 32 < seqModulus f.buffered := by
  rw [← UInt32.toNat_inj, UInt32.toNat_ofNat', UInt32.toNat_ofNat']
  dsimp only [fieldsOnWire, seqModulus]
  split
  · omega
  · omega

lemma reason_kept_iff (reason : ReasonCode) : reasonOnWire reason = reason ↔ reason.toNat < 2 ^ width := by
  rw [← UInt8.toNat_inj, reasonOnWire, UInt8.toNat_ofNat', width]
  omega

def rowOnWire (row : (ℕ × Value) × ReasonCode) : (ℕ × Value) × ReasonCode :=
  ((row.1.1, row.1.2.reread), reasonOnWire row.2)

lemma rows_entryOnWire (e : Server.ReportEntry) : rows (entryOnWire e) = (rows e).map rowOnWire := by
  have hrow : Prod.map (Prod.map id reread) reasonOnWire = rowOnWire := rfl
  rw [rows, rows, ← hrow, ← List.zip_map, ← List.zip_map, List.map_id]
  rfl

lemma entryOf_rowOnWire_iff {row : (ℕ × Value) × ReasonCode} :
    entryOf members b (rowOnWire row) = entryOf members b row ↔ (b → row.2.toNat < 2 ^ width) ∧ row.1.2.Exact := by
  have hreason : (if b then reasonOnWire row.2 else 0) = (if b then row.2 else 0) ↔ _ := ite_eq_ite_iff
  rw [← reason_kept_iff, ← reread_eq_iff, ← hreason]
  constructor
  · intro h
    exact ⟨congrArg ReportEntry.reason h, congrArg ReportEntry.value h⟩
  rintro ⟨hkp, hval⟩
  rw [entryOf, entryOf, ReportEntry.mk.injEq]
  exact ⟨rfl, rfl, rfl, hkp, hval⟩

lemma reportOf_onWire_iff (he : Reportable e members) :
    reportOf (fieldsOnWire f) (entryOnWire e) members lo hi segment = reportOf f e members lo hi segment ↔
      Representable f e lo hi segment := by
  have hseq : (reportOf (fieldsOnWire f) (entryOnWire e) members lo hi segment).seqNum =
      (reportOf f e members lo hi segment).seqNum ↔
      ((sentOpt f segment).has .seqNum → f.seq % 2 ^ 32 < seqModulus f.buffered) := by
    rw [← sequence_kept_iff]
    exact ite_eq_ite_iff
  have htime : (reportOf (fieldsOnWire f) (entryOnWire e) members lo hi segment).timeOfEntry =
      (reportOf f e members lo hi segment).timeOfEntry ↔ ((sentOpt f segment).has .timeOfEntry → InEra e.time) := by
    have hwire : some (TimeUtil.toMillis (entryOnWire e).time) = some (TimeUtil.toMillis e.time) ↔ InEra e.time := by
      rw [Option.some.injEq, ← wireTime_eq_toMillis_iff he.nanos]
      exact iff_of_eq (congrArg (· = _) (toMillis_wireTime he.nanos))
    rw [← hwire]
    exact ite_eq_ite_iff
  have hent : (reportOf (fieldsOnWire f) (entryOnWire e) members lo hi segment).entries =
      (reportOf f e members lo hi segment).entries ↔ ∀ row ∈ slice lo hi (rows e),
        ((sentOpt f segment).has .reasonCode → row.2.toNat < 2 ^ width) ∧ row.1.2.Exact := by
    dsimp only [reportOf]
    rw [rows_entryOnWire, slice_map, List.map_map, List.map_inj_left]
    exact forall₂_congr fun row _ => entryOf_rowOnWire_iff
  constructor
  · intro h
    exact ⟨hseq.mp (congrArg Report.seqNum h), htime.mp (congrArg Report.timeOfEntry h),
      hent.mp (congrArg Report.entries h)⟩
  intro h
  rw [reportOf, reportOf, Report.mk.injEq]
  exact ⟨rfl, hseq.mpr h.seqNum, rfl, rfl, rfl, rfl, rfl, rfl, htime.mpr h.time, hent.mpr h.rows⟩

def varRef (m : DsMember) : VarRef := ⟨m.domain, m.item⟩

lemma labelled_known (he : Reportable e members) : Labelled f e members lo hi segment (members.map varRef) := by
  intro i hi
  have hlt : i < members.length := he.inRange i ((slice_sublist _).subset hi)
  rw [memberLabel, getElem?_map, getElem?_eq_getElem hlt, map_some, labelOf, map_some, getD_some, varRef]

lemma report_read (hopt : f.opt = effectiveOptFlds o f.buffered)
    (he : Reportable e members) (hsz : (reportElement f e members lo hi segment).content.length < 2 ^ 32)
    (hlabel : Labelled f e members lo hi segment known) :
    ∃ ir, parseInformationReport (reportElement f e members lo hi segment).content = some ir ∧
      decodeReport r ir known = some (reportOf (fieldsOnWire f) (entryOnWire e) members lo hi segment) := by
  refine ⟨_, parse_reportElement he hsz, ?_⟩
  apply decodeReport_values hopt he
  · rfl
  · exact hlabel

/-- A client that knows the data set reads every report with the fields that its flags select and the members
that it includes, as written when the format has room for them; what it has no room for is cut to its width, and
a value is the one that its encoding is read as. -/
theorem report_agrees_iff (r : Render) (f : ReportFields) (e : Server.ReportEntry) (members : List DsMember) (lo hi : ℕ)
    (segment : Option (UInt16 × Bool)) (o : OptFlds) (hopt : f.opt = effectiveOptFlds o f.buffered)
    (he : Reportable e members) (hsize : (reportElement f e members lo hi segment).content.length < 2 ^ 32) :
    ∃ ir, parseInformationReport (reportElement f e members lo hi segment).content = some ir ∧
      decodeReport r ir (members.map varRef) =
        some (reportOf (fieldsOnWire f) (entryOnWire e) members lo hi segment) ∧
      (decodeReport r ir (members.map varRef) = some (reportOf f e members lo hi segment) ↔
        Representable f e lo hi segment) := by
  obtain ⟨ir, hprs, hrd⟩ := report_read hopt he hsize (labelled_known he)
  refine ⟨ir, hprs, hrd, ?_⟩
  rw [hrd, some.injEq]
  exact reportOf_onWire_iff he

def sampleMembers : List DsMember := [⟨"IED1LD0", "MMXU1$MX$TotW"⟩, ⟨"IED1LD0", "GGIO1$ST$Ind1"⟩]

def sampleFields : ReportFields :=
  { rptId := "brcb01", datSet := "IED1LD0/LLN0$Measurements", confRev := 3, opt := effectiveOptFlds 0xffff true, seq := 70,
    bufOvfl := true, buffered := true }

def sampleEntry (t : SystemTime) : Server.ReportEntry :=
  { id := [0, 0, 0, 0, 0, 0, 0, 9], time := t, members := [0, 1], values := [.float32 0x3f800000, .boolean true]
    reasons := [0x02, 0x20] }

lemma reportable_sampleEntry {t : SystemTime} (h : t.nanos < 1000000000) : Reportable (sampleEntry t) sampleMembers where
  aligned := ⟨(by decide : ([0, 1] : List ℕ).Pairwise (· < ·)), rfl, rfl⟩
  inRange := (by decide : ∀ i ∈ ([0, 1] : List ℕ), i < 2)
  nanos := h
  encodable := by
    intro v hv
    obtain rfl | rfl : v = .float32 0x3f800000 ∨ v = .boolean true := by simpa [sampleEntry] using hv
    · exact ⟨trivial, by decide⟩
    · exact ⟨trivial, by decide⟩

/-- A segment of both members comes back as it was written. -/
theorem report_agrees_two : ∃ ir, parseInformationReport (reportElement sampleFields (sampleEntry ⟨1700000000, 123456789⟩)
      sampleMembers 0 2 (some (1, true))).content = some ir ∧
    decodeReport ⟨fun _ => "", fun _ => "", id⟩ ir (sampleMembers.map varRef) = some (reportOf sampleFields
      (sampleEntry ⟨1700000000, 123456789⟩) sampleMembers 0 2 (some (1, true))) := by
  obtain ⟨ir, hprs, -, hiff⟩ := report_agrees_iff ⟨fun _ => "", fun _ => "", id⟩ sampleFields
    (sampleEntry ⟨1700000000, 123456789⟩) sampleMembers 0 2 (some (1, true)) 0xffff rfl
    (reportable_sampleEntry (by decide)) (by decide +kernel)
  refine ⟨ir, hprs, hiff.mpr ⟨fun _ => by decide, fun _ => by decide, ?_⟩⟩
  intro row hrow
  have hrows : slice 0 2 (rows (sampleEntry ⟨1700000000, 123456789⟩)) =
      [((0, .float32 0x3f800000), 0x02), ((1, .boolean true), 0x20)] := rfl
  rw [hrows] at hrow
  obtain rfl | rfl : row = ((0, .float32 0x3f800000), 0x02) ∨ row = ((1, .boolean true), 0x20) := by simpa using hrow
  · exact ⟨fun _ => by decide, by unfold Exact Signalling; decide⟩
  · exact ⟨fun _ => by decide, trivial⟩

/-- A time before 1984 comes back as the first day of 1984. -/
theorem early_time_read : Reportable (sampleEntry ⟨0, 0⟩) sampleMembers ∧
    ((parseInformationReport (reportElement sampleFields (sampleEntry ⟨0, 0⟩) sampleMembers 0 2 none).content).bind fun ir =>
      (decodeReport ⟨fun _ => "", fun _ => "", id⟩ ir (sampleMembers.map varRef)).map Report.timeOfEntry) =
        some (some ⟨441763200, 0⟩) ∧
    (reportOf sampleFields (sampleEntry ⟨0, 0⟩) sampleMembers 0 2 none).timeOfEntry = some ⟨0, 0⟩ := by
  refine ⟨reportable_sampleEntry (by decide), ?_, ?_⟩
  · decide +kernel
  · decide +kernel

end Iec61850.Client
