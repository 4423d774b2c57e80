import Iec61850.JournalWire

/-! Read requests at the server. -/
namespace Iec61850.Server
open Asn1 Mms Snapshot Table

/-- A variable to read; one whose specification cannot be decoded has no name. -/
abbrev ReadTarget := Option (String × String)

def parseVarSpec (entry : List UInt8) : Except DecodeError (String × String) := do
  let (spec, _) ← ((Decoder.new entry).expect (contextConstructed 0)).mapError .asn1
  parseObjectName spec

/-- The variables that a request names, or the members of the data set that it names. -/
def readTargets (m : Model) (content : List UInt8) : Except DecodeError (List ReadTarget) := do
  -- Whether the specification is wanted in the response.
  let (_, dec) ← ((Decoder.new content).optional (contextPrimitive 0)).mapError .asn1
  let (vas, _) ← (dec.expect (contextConstructed 1)).mapError .asn1
  let (list, vd) ← ((Decoder.new vas).optional (contextConstructed 0)).mapError .asn1
  match list with
  | some list =>
    let entries ← ((Decoder.new list).expectAll tagSequence (list.length + 1)).mapError .asn1
    pure (entries.map fun entry => (parseVarSpec entry).toOption)
  | none =>
    let (name, _) ← (vd.optional (contextConstructed 1)).mapError .asn1
    match name with
    | some name =>
      let (domain, list) ← parseObjectName name
      pure ((datasetMembers m domain list).map fun member => some (member.domain, member.item))
    | none => .error (.protocol "unsupported read access specification")

def accessFailure (code : DataAccessError) : Element := uintElem (contextPrimitive 0) code.code.toUInt64

def readSbo (m : Model) (taken : Bool) (reference : ObjectReference) : Element :=
  let refused := (declaredCtlModel m reference).any fun declared => declared ≠ .sboNormal
  let name := if refused then "" else if taken then reference.text else ""
  (dataElement (.visibleText name)).getD (accessFailure .objectNonExistent)

def readOne (m : Model) (taken : Bool) : ReadTarget → Element
  | none => accessFailure .objectNonExistent
  | some (domain, item) =>
    match splitControl item with
    | some (base, .sbo) => readSbo m taken (controlRef domain base)
    | _ =>
      match m.node domain ((Text.split '$' item).headD "") with
      | none => accessFailure .objectNonExistent
      | some ln =>
        match Access.resolveReadErr ln item with
        | .ok v => (dataElement v).getD (accessFailure .typeInconsistent)
        | .error code => accessFailure code

/-- A model shows a client, as the result for a variable, certain octets. -/
def Shows (m : Model) (target : ReadTarget) (result : Element) : Prop :=
  ∃ taken, result.encode = (readOne m taken target).encode
deriving Decidable

abbrev ModelReading := Reading Model ReadTarget Element

/-- A server to its readers: the model, the reads in progress, and, kept for reasoning, those answered. -/
structure Readers where
  model : Model
  readings : Table ConnId ModelReading := ∅
  answered : List ModelReading := []

inductive ReadStep where
  | update (sets : List (ObjectReference × Fc × Value))
  /-- Something else changes the model: a write, a report, a control. -/
  | change (m : Model)
  | request (conn : ConnId) (content : List UInt8)
  | access (conn : ConnId) (taken : Bool)
  | respond (conn : ConnId)

namespace Readers

def put (s : Readers) (m : Model) : Readers :=
  { s with model := m, readings := Table.mapValues (Reading.observe · m) s.readings }

def step (s : Readers) : ReadStep → Readers
  | .update sets => s.put (Tx.setAll { model := s.model } sets).model
  | .change m => s.put m
  | .request conn content =>
    match s.readings.lookup conn, readTargets s.model content with
    | none, .ok targets => { s with readings := s.readings.insert conn { parts := targets, states := [s.model] } }
    | _, _ => s
  | .access conn taken =>
    match s.readings.lookup conn with
    | none => s
    | some r =>
      match r.next? with
      | none => s
      | some target => { s with readings := s.readings.insert conn (r.add (readOne s.model taken target)) }
  | .respond conn =>
    match s.readings.lookup conn with
    | none => s
    | some r =>
      if r.next? = none then { s with readings := s.readings.erase conn, answered := s.answered ++ [r] } else s

def run (s : Readers) (steps : List ReadStep) : Readers := steps.foldl step s

/-- All results of a response belong to one state that the model had while the request was served. -/
def Atomic (s : Readers) : Prop := ∀ r ∈ s.answered, r.Whole Shows
deriving Decidable

/-- A change to a model shows the same as before in what the reads in progress, unless complete, have read. -/
def Unseen (s : Readers) (m : Model) : Prop :=
  s.readings.All fun _ r => ∀ target ∈ r.seen, r.next?.isSome = true →
    ∀ taken, (readOne m taken target).encode = (readOne s.model taken target).encode

/-- No change is seen by a read in progress. -/
def Steady (s : Readers) : ReadStep → Prop
  | .update sets => s.Unseen (Tx.setAll { model := s.model } sets).model
  | .change m => s.Unseen m
  | _ => True

instance (s : Readers) (m : Model) : Decidable (s.Unseen m) := Table.decidableAll

instance (s : Readers) (x : ReadStep) : Decidable (s.Steady x) := by
  cases x <;> unfold Steady <;> infer_instance

variable {s : Readers} {m : Model} {x : ReadStep}

/-- What has been read so far belongs to the model as it is, and what was answered to one model. -/
structure Consistent (s : Readers) : Prop where
  reading : s.readings.All fun _ r => r.Current Shows s.model
  answered : s.Atomic

lemma consistent_put (h : s.Consistent) (hm : s.Unseen m) : (s.put m).Consistent := by
  refine ⟨?_, h.answered⟩
  intro conn r hr
  change (mapValues (Reading.observe · m) s.readings).lookup conn = some r at hr
  rw [lookup_mapValues] at hr
  obtain ⟨r0, hr0, rfl⟩ := Option.map_eq_some_iff.mp hr
  apply (h.reading conn r0 hr0).observe
  intro target hseen hnx result hshows
  obtain ⟨taken, htaken⟩ := hshows
  exact ⟨taken, htaken.trans (hm conn r0 hr0 target hseen hnx taken).symm⟩

lemma consistent_step (h : s.Consistent) (hx : s.Steady x) : (s.step x).Consistent := by
  cases x with
  | update | change => exact consistent_put h hx
  | request conn content =>
    rw [step]
    split
    · exact ⟨h.reading.insert (Reading.current_begin _), h.answered⟩
    · exact h
  | access conn taken =>
    rw [step]
    split
    · exact h
    next r hr =>
    split
    · exact h
    next target hnx =>
      exact ⟨h.reading.insert ((h.reading conn r hr).add hnx ⟨taken, rfl⟩), h.answered⟩
  | respond conn =>
    rw [step]
    split
    · exact h
    next r hr =>
    split
    next hnx =>
      refine ⟨?_, ?_⟩
      · intro conn' r' hr'
        exact h.reading conn' r' (lookup_erase_eq_some.mp hr').2
      intro r' hr'
      rcases List.mem_append.mp hr' with hr' | hr'
      · exact h.answered r' hr'
      · rw [List.mem_singleton.mp hr']
        exact (h.reading conn r hr).whole hnx
    · exact h

/-- In every run in which no update touches what a read in progress has already read, the results of a
response belong to one state of the model. -/
theorem reads_atomic (m : Model) (steps : List ReadStep) (hm : Runs.Admitted step Steady { model := m } steps) :
    (run { model := m } steps).Atomic := by
  have hsta : Consistent { model := m } := by
    refine ⟨all_empty, ?_⟩
    intro r hr
    cases hr
  have hrun : (run { model := m } steps).Consistent :=
    Runs.induction_admitted Consistent (fun _ _ h hx => consistent_step h hx) hsta hm
  exact hrun.answered

def indication (name : String) : DataObject :=
  { name := name, attributes := [{ name := "stVal", fc := .st, kind := some .boolean, value := some (.boolean false) }] }

def indications : Model :=
  { devices := [{ name := "LD", nodes := [{ name := "GGIO1", objects := [indication "Ind1", indication "Ind2"] }] }] }

def readBoth : List UInt8 :=
  let item (name : String) : Element := cons tagSequence [cons (contextConstructed 0) [cons (contextConstructed 1)
    [prim tagVisibleString (Text.octets "LD"), prim tagVisibleString (Text.octets ("GGIO1$ST$" ++ name ++ "$stVal"))]]]
  (cons (contextConstructed 1) [cons (contextConstructed 0) [item "Ind1", item "Ind2"]]).encode

def bothOn : ReadStep :=
  .update [(⟨"LD/GGIO1.Ind1.stVal"⟩, .st, .boolean true), (⟨"LD/GGIO1.Ind2.stVal"⟩, .st, .boolean true)]

def firstResults (s : Readers) : Option (List (List UInt8)) := s.answered.head?.map fun r => r.results.map Element.encode

/-- An update before the first variable is read shows as a whole. -/
theorem reads_atomic_updated :
    let s := run { model := indications } [.request 1 readBoth, bothOn, .access 1 false, .access 1 false, .respond 1]
    s.firstResults = some [[0x83, 1, 0xff], [0x83, 1, 0xff]] ∧ s.Atomic :=
  ⟨by decide +kernel, reads_atomic indications _ (by decide +kernel)⟩

/-- An update between the two variables shows in the second only. -/
theorem torn_read :
    let s := run { model := indications } [.request 1 readBoth, .access 1 false, bothOn, .access 1 false, .respond 1]
    s.firstResults = some [[0x83, 1, 0], [0x83, 1, 0xff]] ∧ ¬ s.Atomic := by
  decide +kernel

end Readers
end Iec61850.Server
