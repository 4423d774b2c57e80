import Iec61850.ServerHandler
import Iec61850.NameList

/-! ReadJournal at the server and over the wire. -/
namespace Iec61850.Server
open Asn1 Mms Decoder

def svcReadJournal : ℕ := 65

def parseObjectName (content : List UInt8) : Except DecodeError (String × String) := do
  let ((tag, c), _) ← (new content).readTlv.mapError .asn1
  if tag = contextConstructed 1 then
    let (domain, d) ← ((new c).expect tagVisibleString).mapError .asn1
    let (item, _) ← (d.expect tagVisibleString).mapError .asn1
    pure (Text.fromUtf8Lossy domain, Text.fromUtf8Lossy item)
  else if tag = contextPrimitive 0 then pure ("", Text.fromUtf8Lossy c)
  else .error (.protocol ("unsupported ObjectName tag " ++ tag.text))

def timeOf (b : List UInt8) : Except DecodeError SystemTime :=
  if b.length ≠ 4 ∧ b.length ≠ 6 then
    .error (.protocol ("TimeOfDay of " ++ toString b.length ++ " octets, want 4 or 6"))
  else
    match (Value.binaryTime b).time with
    | some t => .ok t
    | none => .error (.protocol "undecodable TimeOfDay")

structure JournalQuery where
  domain : String
  name : String
  startTime : Option SystemTime := none
  startEntry : Option (List UInt8) := none
  stopTime : Option SystemTime := none
  /-- Zero for no limit. -/
  count : ℕ := 0
  afterTime : Option SystemTime := none
  afterEntry : Option (List UInt8) := none
  vars : Option (List String) := none

namespace JournalQuery

def withStart (q : JournalQuery) (part : Tag × List UInt8) : Except DecodeError JournalQuery :=
  if part.1 = contextPrimitive 0 then (timeOf part.2).map fun t => { q with startTime := some t }
  else if part.1 = contextPrimitive 1 then .ok { q with startEntry := some part.2 }
  else .ok q

def withStop (q : JournalQuery) (part : Tag × List UInt8) : Except DecodeError JournalQuery :=
  if part.1 = contextPrimitive 0 then (timeOf part.2).map fun t => { q with stopTime := some t }
  else if part.1 = contextPrimitive 1 then
    ((decodeInt part.2).mapError .asn1).map fun n => { q with count := n.toNat }
  else .ok q

def withAfter (q : JournalQuery) (part : Tag × List UInt8) : Except DecodeError JournalQuery :=
  if part.1 = contextPrimitive 0 then (timeOf part.2).map fun t => { q with afterTime := some t }
  else if part.1 = contextPrimitive 1 then .ok { q with afterEntry := some part.2 }
  else .ok q

def withPart (q : JournalQuery) (part : Tag × List UInt8) : Except DecodeError JournalQuery :=
  if part.1 = contextConstructed 1 then
    ((new part.2).readTlv.mapError .asn1).bind fun first => q.withStart first.1
  else if part.1 = contextConstructed 2 then
    ((new part.2).readTlv.mapError .asn1).bind fun first => q.withStop first.1
  else if part.1 = contextConstructed 4 then
    ((readAll readTlv (part.2.length + 1) (new part.2)).mapError .asn1).map fun vars =>
      { q with vars := some (vars.map fun v => Text.fromUtf8Lossy v.2) }
  -- Earlier clients sent the entry to start after under another tag.
  else if part.1 = contextConstructed 5 ∨ part.1 = contextConstructed 3 then
    foldAll .asn1 withAfter (part.2.length + 1) (new part.2) q
  else .ok q

end JournalQuery

def parseJournalQuery (content : List UInt8) : Except DecodeError JournalQuery := do
  let (name, d) ← ((new content).expect (contextConstructed 0)).mapError .asn1
  let (domain, item) ← parseObjectName name
  foldAll .asn1 JournalQuery.withPart (d.rest.length + 1) d { domain := domain, name := item }

namespace JournalQuery

def upTo (q : JournalQuery) : (out : List LogEntry) → List LogEntry → List LogEntry
  | out, [] => out
  | out, e :: es =>
    if q.stopTime.any (· < e.time) then out
    else if 0 < q.count ∧ q.count ≤ out.length then out
    else upTo q (out ++ [e]) es

/-- Where the entries start: after an entry the client has, at a given one, or at a time. An entry the
log no longer holds continues after its time instead. -/
def start (q : JournalQuery) (entries : List LogEntry) : Option ℕ :=
  match q.afterEntry, q.startEntry, q.startTime with
  | some after, _, _ =>
    match entries.findIdx? fun e => e.id = after, q.afterTime with
    | some i, _ => some (i + 1)
    | none, some t => some (entries.findIdx fun e => t < e.time)
    | none, none => some 0
  | none, some start, _ => entries.findIdx? fun e => e.id = start
  | none, none, some t => some (entries.findIdx fun e => t ≤ e.time)
  | none, none, none => some 0

def select (q : JournalQuery) (entries : List LogEntry) : List LogEntry :=
  match q.start entries with
  | none => []
  | some k => q.upTo [] (entries.drop k)

def keepVars (q : JournalQuery) : (keep : Bool) → List (String × Value) → List (String × Value)
  | _, [] => []
  | keep, (tag, v) :: vars =>
    let keep := if tag = reasonCodeTag then keep else q.vars.all fun vs => vs.contains tag
    if keep then (tag, v) :: keepVars q keep vars else keepVars q keep vars

def varElement (var : String × Value) : Element :=
  cons tagSequence
    [prim (contextPrimitive 0) (Text.octets var.1), cons (contextConstructed 1) (dataElement var.2).toList]

def entryElement (q : JournalQuery) (e : LogEntry) : Element :=
  cons tagSequence
    [ prim (contextPrimitive 0) e.id,
      -- The originating application: this server.
      cons (contextConstructed 1) [],
      cons (contextConstructed 2)
        [ prim (contextPrimitive 0) (Value.binaryTimeOf e.time).bytes,
          cons (contextConstructed 2) [cons (contextConstructed 1) ((q.keepVars true e.vars).map varElement)] ] ]

end JournalQuery

def journalElement (page : List Element) (more : Bool) : Element :=
  cons (contextConstructed svcReadJournal) [cons (contextConstructed 0) page, boolElem (contextPrimitive 1) more]

def readJournalResponse (q : JournalQuery) (entries : List LogEntry) (maxPdu : ℕ) : Element :=
  let (page, more) := fillPage ((q.select entries).map q.entryElement) maxPdu
  journalElement page more

def readJournal (journals : Table JournalName (List LogEntry)) (content : List UInt8) (maxPdu : ℕ) :
    Except HandlerError Element :=
  match parseJournalQuery content with
  | .error _ => .error .other
  | .ok q =>
    match journals.lookup (q.domain, q.name) with
    | none => .error (.access .objectNonExistent)
    | some entries => .ok (readJournalResponse q entries maxPdu)

def journalHandler (others : Request → Except HandlerError Element) (journals : Table JournalName (List LogEntry))
    (maxPdu : ℕ) (req : Request) : Except HandlerError Element :=
  if req.service = svcReadJournal then readJournal journals req.content maxPdu else others req

end Iec61850.Server

namespace Iec61850.Mms
open Asn1 Server Element Decoder Text JournalQuery List

structure JournalVariable where
  tag : String := ""
  value : Option Value := none

structure JournalEntry where
  entryId : List UInt8 := []
  occurrenceTime : Option SystemTime := none
  vars : List JournalVariable := []

def journalName (domain item : String) : Element :=
  cons (contextConstructed 0)
    [cons (contextConstructed 1)
      [prim tagVisibleString (Text.octets domain), prim tagVisibleString (Text.octets item)]]

def binaryTimeBytes (t : SystemTime) : List UInt8 := (Value.binaryTimeOf t).bytes

def rangeStop (stop : SystemTime) : Element :=
  cons (contextConstructed 2) [prim (contextPrimitive 0) (binaryTimeBytes stop)]

inductive JournalPlace where
  | start (t : SystemTime)
  | after (t : SystemTime) (entryId : List UInt8)

def JournalPlace.element : JournalPlace → Element
  | start t => cons (contextConstructed 1) [prim (contextPrimitive 0) (binaryTimeBytes t)]
  | after t entryId =>
    cons (contextConstructed 5) [prim (contextPrimitive 0) (binaryTimeBytes t), prim (contextPrimitive 1) entryId]

def journalRequest (domain item : String) (stop : SystemTime) (place : JournalPlace) : Element :=
  cons (contextConstructed svcReadJournal)
    (journalName domain item ::
      match place with
      | .start _ => [place.element, rangeStop stop]
      | .after .. => [rangeStop stop, place.element])

/-- One variable of an entry; what cannot be decoded is left out. -/
def parseVariable (content : List UInt8) : JournalVariable :=
  (readWhile (content.length + 1) (new content)).foldl (fun jv part =>
    if part.1 = tagGraphicString ∨ part.1 = tagVisibleString ∨ part.1 = contextPrimitive 0 then
      { jv with tag := Text.fromUtf8Lossy part.2 }
    else if part.1 = contextConstructed 1 then
      match decodeData (new part.2) with
      | .ok (v, _) => { jv with value := some v }
      | .error _ => jv
    else jv) {}

/-- The variables of an entry, in a list of their own or directly. More `fuel` than octets is enough. -/
def parseJournalVariables : (fuel : ℕ) → List UInt8 → List JournalVariable
  | 0, _ => []
  | fuel + 1, content =>
    (readWhile (content.length + 1) (new content)).flatMap fun part =>
      if part.1 = contextConstructed 1 then parseJournalVariables fuel part.2
      else if part.1 ≠ tagSequence then []
      else
        let jv := parseVariable part.2
        if jv.tag ≠ "" ∨ jv.value.isSome then [jv] else []

def parseEntryContent (content : List UInt8) (e : JournalEntry) : JournalEntry :=
  (readWhile (content.length + 1) (new content)).foldl (fun e part =>
    if part.1 = contextPrimitive 0 then
      if part.2.length = 4 ∨ part.2.length = 6 then { e with occurrenceTime := (Value.binaryTime part.2).time } else e
    else if part.1 = contextConstructed 2 then
      { e with vars := e.vars ++ parseJournalVariables (part.2.length + 1) part.2 }
    else e) e

def parseJournalEntry (content : List UInt8) : Except Asn1.Error JournalEntry :=
  foldAll id (fun e part =>
    if part.1 = contextPrimitive 0 then .ok { e with entryId := part.2 }
    else if part.1 = contextConstructed 2 then .ok (parseEntryContent part.2 e)
    else .ok e) (content.length + 1) (new content) {}

def parseJournal (resp : List UInt8) : Except Asn1.Error (List JournalEntry × Bool) := do
  let (content, _) ← (new resp).expect (contextConstructed svcReadJournal)
  let (list, d) ← (new content).expect (contextConstructed 0)
  let entries ← readAll (fun d => do
    let (entry, next) ← d.expect tagSequence
    let e ← parseJournalEntry entry
    pure (e, next)) (list.length + 1) (new list)
  let (mf, _) ← d.optional (contextPrimitive 1)
  pure (entries, mf.any fun b => b.head?.any (· ≠ 0))

def readJournalPage (request : Element → Option (Except ServiceError (List UInt8))) (domain item : String)
    (stop : SystemTime) (place : JournalPlace) : Except CallError (List JournalEntry × Bool) :=
  match request (journalRequest domain item stop place) with
  | none => .error .unanswered
  | some (.error e) => .error (.service e)
  | some (.ok resp) => (parseJournal resp).mapError .asn1

def continueAfter (last : JournalEntry) : JournalPlace :=
  .after (last.occurrenceTime.getD { secs := 0 }) last.entryId

def readJournalByTime (handle : ℕ → Request → Except HandlerError Element) (maxPdu : ℕ) (ids : ℕ → UInt32)
    (domain item : String) (start stop : SystemTime) (fuel : ℕ) : Option (Except CallError (List JournalEntry)) :=
  Paging.collect (fun n => readJournalPage (call (handle n) maxPdu (ids n)) domain item stop) continueAfter fuel 0 []
    (.start start)

def wireTime (t : SystemTime) : SystemTime := (Value.binaryTimeOf t).time.getD t

/-- The point in time is the same for the other side. -/
def OnWire (t : SystemTime) : Prop := wireTime t = t
deriving Decidable

lemma time_binaryTimeBytes (t : SystemTime) : (Value.binaryTime (binaryTimeBytes t)).time = some (wireTime t) := rfl

variable {domain item : String} {stop : SystemTime} {place : JournalPlace}

def JournalPlace.query (domain item : String) (stop : SystemTime) : JournalPlace → JournalQuery
  | start t => { domain := domain, name := item, startTime := some (wireTime t), stopTime := some (wireTime stop) }
  | after t entryId =>
    { domain := domain, name := item, stopTime := some (wireTime stop), afterTime := some (wireTime t),
      afterEntry := some entryId }

lemma journalName_low (domain item : String) : (journalName domain item).AllLow :=
  cons_low (by decide) ⟨cons_low (by decide) ⟨prim_low (by decide) _, prim_low (by decide) _, trivial⟩, trivial⟩

lemma rangeStop_low (stop : SystemTime) : (rangeStop stop).AllLow :=
  cons_low (by decide) ⟨prim_low (by decide) _, trivial⟩

lemma JournalPlace.element_low (place : JournalPlace) : place.element.AllLow := by
  cases place with
  | start t => exact cons_low (by decide) ⟨prim_low (by decide) _, trivial⟩
  | after t entryId => exact cons_low (by decide) ⟨prim_low (by decide) _, prim_low (by decide) _, trivial⟩

def JournalPlace.parts (stop : SystemTime) (place : JournalPlace) : List Element :=
  match place with
  | .start _ => [place.element, rangeStop stop]
  | .after .. => [rangeStop stop, place.element]

lemma JournalPlace.parts_low (stop : SystemTime) (place : JournalPlace) : AllLows (place.parts stop) := by
  have hstop := rangeStop_low stop
  have hpl := place.element_low
  cases place with
  | start t => exact ⟨hpl, hstop, trivial⟩
  | after t entryId => exact ⟨hstop, hpl, trivial⟩

lemma journalRequest_low (domain item : String) (stop : SystemTime) (place : JournalPlace) :
    (journalRequest domain item stop place).AllLow :=
  cons_low (by decide) ⟨journalName_low domain item, place.parts_low stop⟩

lemma parseObjectName_pair (h : (cons (contextConstructed 1)
      [prim tagVisibleString (octets domain), prim tagVisibleString (octets item)]).Fits) :
    parseObjectName (encodeAll [cons (contextConstructed 1)
      [prim tagVisibleString (octets domain), prim tagVisibleString (octets item)]]) = .ok (domain, item) := by
  have hpair := h.parts
  generalize hnm : cons (contextConstructed 1)
    [prim tagVisibleString (octets domain), prim tagVisibleString (octets item)] = name at h ⊢
  have hrd : (new (encodeAll [name])).readTlv = .ok _ := readTlv_encode h.low h.length_lt
  have htag : name.tag = contextConstructed 1 := hnm ▸ rfl
  have hfst : (new name.content).expect tagVisibleString = .ok (octets domain,
      ⟨(prim tagVisibleString (octets domain)).size, encodeAll [prim tagVisibleString (octets item)]⟩) := by
    rw [← hnm]
    exact expect_first hpair.head rfl
  have hsnd : expect tagVisibleString ⟨(prim tagVisibleString (octets domain)).size,
      encodeAll [prim tagVisibleString (octets item)]⟩ = _ := expect_encode hpair.tail.head rfl
  unfold parseObjectName
  simp only [hrd, htag, hfst, hsnd, Except.mapError, bind, Except.bind, pure, Except.pure, if_true,
    content_prim, fromUtf8Lossy_octets]

lemma readTlv_time (t : SystemTime) (n : ℕ) :
    (new (cons (contextConstructed n) [prim (contextPrimitive 0) (binaryTimeBytes t)]).content).readTlv =
      .ok ((contextPrimitive 0, binaryTimeBytes t), ⟨8, []⟩) := by
  have hrd : (new (cons (contextConstructed n) [prim (contextPrimitive 0) (binaryTimeBytes t)]).content).readTlv =
      .ok _ := readTlv_encode (prim_low (by decide) _) (Nat.lt_of_lt_of_eq (by decide : 6 < 2 ^ 32) rfl)
  exact hrd

lemma withPart_start (q : JournalQuery) (t : SystemTime) :
    q.withPart ((JournalPlace.start t).element.tag, (JournalPlace.start t).element.content) =
      .ok { q with startTime := some (wireTime t) } := by
  have hpart (c : List UInt8) : q.withPart (contextConstructed 1, c) =
      ((new c).readTlv.mapError .asn1).bind fun first => q.withStart first.1 := if_pos rfl
  have hrd := readTlv_time t 1
  refine (hpart _).trans ?_
  dsimp only [JournalPlace.element]
  rw [hrd]
  rfl

lemma withPart_stop (q : JournalQuery) (stop : SystemTime) :
    q.withPart ((rangeStop stop).tag, (rangeStop stop).content) = .ok { q with stopTime := some (wireTime stop) } := by
  have hpart (c : List UInt8) : q.withPart (contextConstructed 2, c) =
      ((new c).readTlv.mapError .asn1).bind fun first => q.withStop first.1 := rfl
  have hrd := readTlv_time stop 2
  refine (hpart _).trans ?_
  dsimp only [rangeStop]
  rw [hrd]
  rfl

lemma withPart_after {q : JournalQuery} {t : SystemTime} {entryId : List UInt8}
    (h : (JournalPlace.after t entryId).element.Fits) :
    q.withPart ((JournalPlace.after t entryId).element.tag, (JournalPlace.after t entryId).element.content) =
      .ok { q with afterTime := some (wireTime t), afterEntry := some entryId } := by
  have hps := h.parts
  have hcnt : (JournalPlace.after t entryId).element.content.length = _ := length_content_cons hps.low
  have hfold : foldAll DecodeError.asn1 withAfter _
      ⟨0, encodeAll [prim (contextPrimitive 0) (binaryTimeBytes t), prim (contextPrimitive 1) entryId]⟩ q = _ :=
    foldAll_encodeAll hps (Nat.lt_succ_self _)
  have hpart (c : List UInt8) : q.withPart (contextConstructed 5, c) =
      foldAll .asn1 withAfter (c.length + 1) (new c) q := rfl
  refine (hpart _).trans ?_
  rw [hcnt]
  exact hfold

lemma parseJournalQuery_request (h : (journalRequest domain item stop place).Fits) :
    parseJournalQuery (journalRequest domain item stop place).content = .ok (place.query domain item stop) := by
  have hall : AllFit (journalName domain item :: place.parts stop) := h.parts
  have hps := hall.tail
  have hexpect : (new (journalRequest domain item stop place).content).expect (contextConstructed 0) =
      .ok ((journalName domain item).content, ⟨(journalName domain item).size, encodeAll (place.parts stop)⟩) :=
    expect_first hall.head rfl
  have hfold : foldAll DecodeError.asn1 withPart
      ((encodeAll (place.parts stop)).length + 1)
      ⟨(journalName domain item).size, encodeAll (place.parts stop)⟩ { domain := domain, name := item } =
        (parts (place.parts stop)).foldlM withPart { domain := domain, name := item } :=
    foldAll_encodeAll hps (by rw [length_encodeAll _ hps.low]; omega)
  have hobj : parseObjectName (journalName domain item).content = .ok (domain, item) :=
    parseObjectName_pair hall.head.parts.head
  unfold parseJournalQuery
  simp only [hexpect, hobj, hfold, Except.mapError, bind, Except.bind]
  cases place with
  | start t =>
    simp only [JournalPlace.parts, parts, map_cons, map_nil, foldlM_cons, foldlM_nil, withPart_start,
      withPart_stop, bind, Except.bind, pure, Except.pure, JournalPlace.query]
  | after t entryId =>
    have haft := hps.tail.head
    simp only [JournalPlace.parts, parts, map_cons, map_nil, foldlM_cons, foldlM_nil,
      withPart_stop, withPart_after haft, bind, Except.bind, pure, Except.pure, JournalPlace.query]

lemma room_element (hpl : ∀ t entryId, place = .after t entryId → entryId.length = 8) : place.element.room ≤ 35 := by
  cases place with
  | start t => exact Nat.le_of_ble_eq_true rfl
  | after t entryId =>
    have hlen := hpl t entryId rfl
    show 6 + 7 + (entryId.length + 7 + 0) + 7 ≤ 35
    omega

lemma request_fits {id : UInt32} (hnames : (octets domain).length + (octets item).length < 2 ^ 31)
    (hpl : ∀ t entryId, place = .after t entryId → entryId.length = 8) :
    (confirmedRequest id (journalRequest domain item stop place)).Fits := by
  have hlow : (confirmedRequest id (journalRequest domain item stop place)).AllLow :=
    confirmedRequest_low (journalRequest_low domain item stop place)
  have hid := length_uintElem_content tagInteger id.toUInt64
  have hfrom := room_element hpl
  have hps : rooms (place.parts stop) = place.element.room + 20 := by
    cases place with
    | start t => rfl
    | after t entryId => exact Nat.add_comm 20 _
  have hrm : (confirmedRequest id (journalRequest domain item stop place)).room =
      (uintElem tagInteger id.toUInt64).content.length + 7 +
        ((octets domain).length + 7 + ((octets item).length + 7 + 0) + 7 + 0 + 7 + rooms (place.parts stop) + 7 + 0) + 7 := rfl
  have hsz := size_le_room _ hlow
  exact ⟨hlow, by omega⟩

variable {q : JournalQuery} {e : LogEntry} {more : Bool}

lemma dataElement_toList_low (v : Value) : AllLows (dataElement v).toList := by
  cases hv : dataElement v with
  | none => trivial
  | some el => exact ⟨dataElement_low v el hv, trivial⟩

lemma varElement_low (var : String × Value) : (varElement var).AllLow :=
  ⟨by decide, prim_low (by decide) _, cons_low (by decide) (dataElement_toList_low var.2), trivial⟩

def dataOf (q : JournalQuery) (e : LogEntry) : Element :=
  cons (contextConstructed 2) [cons (contextConstructed 1) ((q.keepVars true e.vars).map varElement)]

lemma dataOf_low (q : JournalQuery) (e : LogEntry) : (dataOf q e).AllLow :=
  cons_low (by decide) ⟨cons_low (by decide) (allLows_map varElement_low _), trivial⟩

def received (q : JournalQuery) (e : LogEntry) : JournalEntry :=
  { entryId := e.id
    occurrenceTime := some (wireTime e.time)
    vars := parseJournalVariables ((dataOf q e).content.length + 1) (dataOf q e).content }

def contentOf (q : JournalQuery) (e : LogEntry) : List Element :=
  [prim (contextPrimitive 0) (binaryTimeBytes e.time), dataOf q e]

def entryParts (q : JournalQuery) (e : LogEntry) : List Element :=
  [prim (contextPrimitive 0) e.id, cons (contextConstructed 1) [], cons (contextConstructed 2) (contentOf q e)]

lemma entryElement_eq (q : JournalQuery) (e : LogEntry) : q.entryElement e = cons tagSequence (entryParts q e) := rfl

lemma entryElement_low (q : JournalQuery) (e : LogEntry) : (q.entryElement e).AllLow :=
  ⟨by decide, prim_low (by decide) _, cons_low (by decide) trivial,
    cons_low (by decide) ⟨prim_low (by decide) _, dataOf_low q e, trivial⟩, trivial⟩

lemma parseEntryContent_contentOf {entry : JournalEntry} (h : AllFit (contentOf q e)) :
    parseEntryContent (encodeAll (contentOf q e)) entry = { entry with
        occurrenceTime := some (wireTime e.time)
        vars := entry.vars ++ parseJournalVariables ((dataOf q e).content.length + 1) (dataOf q e).content } := by
  have hrd : readWhile _ ⟨0, encodeAll (contentOf q e)⟩ = _ := readWhile_encodeAll h (Nat.lt_succ_self _)
  unfold parseEntryContent
  rw [length_encodeAll _ h.low]
  show foldl _ entry (readWhile _ ⟨0, encodeAll (contentOf q e)⟩) = _
  rw [hrd]
  rfl

lemma parseJournalEntry_entryElement (h : (q.entryElement e).Fits) :
    parseJournalEntry (q.entryElement e).content = .ok (received q e) := by
  have hps : AllFit (entryParts q e) := h.parts
  have hlen : (q.entryElement e).content.length = _ := length_content_cons hps.low
  unfold parseJournalEntry
  rw [hlen, entryElement_eq]
  refine (foldAll_encodeAll hps (Nat.lt_succ_self _)).trans ?_
  show Except.ok (parseEntryContent (encodeAll (contentOf q e)) { entryId := e.id }) = _
  rw [parseEntryContent_contentOf hps.tail.tail.head.parts]
  rfl

lemma journalElement_low {page : List Element} (h : AllLows page) (more : Bool) :
    (journalElement page more).AllLow := cons_low (by decide) ⟨cons_low (by decide) h, prim_low (by decide) _, trivial⟩

lemma parseJournal_encode {es : List LogEntry} (h : (journalElement (es.map q.entryElement) more).Fits) :
    parseJournal (journalElement (es.map q.entryElement) more).encode = .ok (es.map (received q), more) := by
  have hps := h.parts
  have hes := hps.head.parts
  have hent : readAll (fun d => (d.expect tagSequence).bind fun part =>
      (parseJournalEntry part.1).bind fun e => .ok (e, part.2)) ((cons (contextConstructed 0) (es.map q.entryElement)).content.length + 1)
      (new (cons (contextConstructed 0) (es.map q.entryElement)).content) = .ok (es.map (received q)) := by
    rw [length_content_cons hes.low]
    apply readAll_encodeAll hes.low _ (Nat.lt_succ_self _)
    rw [forall₂_map_left_iff, forall₂_map_right_iff, forall₂_same]
    intro e he off rest
    have hfits := hes.of_mem (mem_map_of_mem he)
    have hexpect : expect tagSequence ⟨off, (q.entryElement e).encode ++ rest⟩ = _ := expect_encode hfits rfl
    simp only [hexpect, parseJournalEntry_entryElement hfits, Except.bind]
  have hsvc : (new (journalElement (es.map q.entryElement) more).encode).expect
      (contextConstructed svcReadJournal) = _ := expect_new h rfl
  have hpage : (new (journalElement (es.map q.entryElement) more).content).expect (contextConstructed 0) = _ :=
    expect_first hps.head rfl
  have hmo : optional (contextPrimitive 1)
      ⟨(cons (contextConstructed 0) (es.map q.entryElement)).size,
        encodeAll [boolElem (contextPrimitive 1) more]⟩ = _ := optional_encode hps.tail.head rfl
  unfold parseJournal
  simp only [hsvc, hpage, hmo, bind, Except.bind, pure, Except.pure] at hent ⊢
  rw [hent]
  cases more <;> rfl

variable {others : Request → Except HandlerError Element} {journals : Table JournalName (List LogEntry)}
  {maxPdu : ℕ} {id : UInt32}

lemma readJournalPage_ok {entries : List LogEntry} {batch : List JournalEntry}
    (hlog : journals.lookup (domain, item) = some entries)
    (hreq : (confirmedRequest id (journalRequest domain item stop place)).Fits) (hlimit : maxPdu < 2 ^ 32)
    (hunl : maxPdu = 0 →
      sizes (((place.query domain item stop).select entries).map (place.query domain item stop).entryElement) + 44 <
        2 ^ 32)
    (hrd : readJournalPage (call (journalHandler others journals maxPdu) maxPdu id) domain item stop place =
      .ok (batch, more)) : ∃ page rest, (place.query domain item stop).select entries = page ++ rest ∧
      batch = page.map (received (place.query domain item stop)) ∧ more = decide (rest ≠ []) ∧
      (rest ≠ [] → page ≠ []) := by
  generalize hq : place.query domain item stop = q at hunl ⊢
  obtain ⟨pageEls, restEls, hcut, hfill, -, hne⟩ := fillPage_spec ((q.select entries).map q.entryElement) maxPdu
  obtain ⟨page, rest, hsel, rfl, rfl⟩ := map_eq_append_iff.mp hcut
  simp only [ne_eq, map_eq_nil_iff] at hfill hne
  have hhandle : journalHandler others journals maxPdu
      ⟨id, (journalRequest domain item stop place).tag.number, (journalRequest domain item stop place).content⟩ =
        .ok (journalElement (page.map q.entryElement) (decide (rest ≠ []))) := by
    have hsvc : journalHandler others journals maxPdu
        ⟨id, (journalRequest domain item stop place).tag.number, (journalRequest domain item stop place).content⟩ =
          readJournal journals (journalRequest domain item stop place).content maxPdu := if_pos rfl
    have hnm : (q.domain, q.name) = (domain, item) := by
      rw [← hq]
      cases place <;> rfl
    rw [hsvc, readJournal, parseJournalQuery_request (fits_service hreq), hq]
    dsimp only
    rw [hnm, hlog]
    dsimp only [readJournalResponse]
    rw [hfill]
  have hpage := allLows_map (entryElement_low q) page
  have hsz : (confirmedResponse id (journalElement (page.map q.entryElement) (decide (rest ≠ [])))).size ≤ _ :=
    size_page_le (by decide) hpage _
  have hbound : maxPdu = 0 ∨
      (confirmedResponse id (journalElement (page.map q.entryElement) (decide (rest ≠ [])))).size ≤ maxPdu →
        (confirmedResponse id (journalElement (page.map q.entryElement) (decide (rest ≠ [])))).size < 2 ^ 32 := by
    rintro (hz | hle)
    · have hall := hunl hz
      rw [hsel, map_append, sizes_append] at hall
      omega
    · exact lt_of_le_of_lt hle hlimit
  refine ⟨page, rest, hsel, ?_⟩
  rw [readJournalPage] at hrd
  obtain ⟨-, hcall⟩ | ⟨hfits, hcall⟩ := call_cases hreq hhandle (journalElement_low hpage _) hbound
  · -- A page that does not fit is no page.
    rw [hcall] at hrd
    cases hrd
  rw [hcall] at hrd
  dsimp only at hrd
  rw [parseJournal_encode hfits] at hrd
  cases hrd
  exact ⟨rfl, rfl, fun h => (hne h).1⟩

end Iec61850.Mms
