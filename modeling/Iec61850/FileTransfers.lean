import Iec61850.NameList
import Iec61850.Lookup
import Iec61850.Runs

/-! The file services over a directory on disk, and files read by several associations at once. -/
namespace Iec61850.Server
open Asn1 Mms Text

def svcFileOpen : ℕ := 72
def svcFileRead : ℕ := 73
def svcFileClose : ℕ := 74

def fileChunkSize : ℕ := 8000

/-- The parts of a path below the directory that is served. -/
abbrev Path := List String

inductive IoKind where
  | notFound
  | permissionDenied
  | invalidInput
  | alreadyExists
  | other

/-- What a path names: a directory, or a file by its identity. -/
inductive Node where
  | dir
  | file (inode : ℕ)

structure FileBody where
  data : List UInt8
  modified : Option SystemTime := none

/-- The directory on disk: its names, and the files they name. -/
structure Disk where
  nodes : Table Path Node := ∅
  bodies : Table ℕ FileBody := ∅

def Disk.read (disk : Disk) (path : Path) : Except IoKind FileBody :=
  match disk.nodes.lookup path with
  | none => .error .notFound
  | some .dir => .error .invalidInput
  | some (.file inode) =>
    match disk.bodies.lookup inode with
    | none => .error .notFound
    | some body => .ok body

/-- A filestore; `outside` are the paths that a symbolic link leads out of it. -/
structure FileStore where
  writable : Bool := true
  outside : Path → Bool := fun _ => false

structure OpenFile where
  data : List UInt8
  pos : ℕ
deriving DecidableEq

structure FileStoreState where
  next : Int32 := 1
  opened : Table Int32 OpenFile := ∅

namespace FileStore

def resolve (files : FileStore) (name : String) : Option Path :=
  let parts := (split '/' (replace '\\' '/' name)).filter fun c => c ≠ "" ∧ c ≠ "."
  if parts.contains ".." then none else if files.outside parts then none else some parts

def resolveFile (files : FileStore) (name : String) : Except IoKind Path :=
  match files.resolve name with
  | none => .error .permissionDenied
  | some path => if path = [] then .error .invalidInput else .ok path

/-- Opens a file: its id, its content and its modification time. -/
def openFile (files : FileStore) (disk : Disk) (name : String) (st : FileStoreState) :
    Except IoKind (Int32 × List UInt8 × Option SystemTime) × FileStoreState :=
  match files.resolve name with
  | none => (.error .permissionDenied, st)
  | some path =>
    match disk.read path with
    | .error e => (.error e, st)
    | .ok body =>
      let id := st.next
      (.ok (id, body.data, body.modified),
        { next := max (id + 1) 1, opened := st.opened.insert id { data := body.data, pos := 0 } })

def readFile (id : Int32) (maxChunk : ℕ) (st : FileStoreState) : Option (List UInt8 × Bool) × FileStoreState :=
  match st.opened.lookup id with
  | none => (none, st)
  | some f =>
    let stop := min (f.pos + max maxChunk 1) f.data.length
    let chunk := (f.data.drop f.pos).take (stop - f.pos)
    (some (chunk, decide (stop < f.data.length)), { st with opened := st.opened.insert id { f with pos := stop } })

def closeFile (id : Int32) (st : FileStoreState) : FileStoreState := { st with opened := st.opened.erase id }

end FileStore

def parseFileName (content : List UInt8) : Except DecodeError String :=
  Decoder.foldAll .asn1 (fun name part =>
    if part.1 ≠ tagGraphicString ∧ part.1 ≠ tagVisibleString then
      .error (.protocol ("file name part of tag " ++ part.1.text))
    else .ok (name ++ fromUtf8Lossy part.2)) (content.length + 1) (Decoder.new content) ""

def generalizedTime (t : SystemTime) : String :=
  let secs := (TimeUtil.unixParts t).1
  let rem := (secs % 86400).toNat
  let (y, mo, d) := TimeUtil.civilFromDays (secs / 86400)
  paddedInt 4 y ++ padded 2 mo ++ padded 2 d ++ padded 2 (rem / 3600) ++
    padded 2 (rem % 3600 / 60) ++ padded 2 (rem % 60) ++ "Z"

def fileOpenError : IoKind → DataAccessError
  | .invalidInput => .objectAccessUnsupported
  | .permissionDenied => .objectAccessDenied
  | _ => .objectNonExistent

def fileSize (data : List UInt8) : UInt64 := UInt64.ofNat (min data.length (2 ^ 32 - 1))

def fileOpenElement (id : Int32) (data : List UInt8) (modified : Option SystemTime) : Element :=
  cons (contextConstructed svcFileOpen)
    [ intElem (contextPrimitive 0) id.toInt64,
      cons (contextConstructed 1)
        (uintElem (contextPrimitive 0) (fileSize data) ::
          (modified.map fun t => prim (contextPrimitive 1) (octets (generalizedTime t))).toList) ]

def fileReadElement (chunk : List UInt8) (more : Bool) : Element :=
  cons (contextConstructed svcFileRead) [prim (contextPrimitive 0) chunk, boolElem (contextPrimitive 1) more]

def frsmOf (content : List UInt8) : Int32 :=
  match decodeInt content with
  | .ok n => Int32.ofInt n
  | .error _ => 0

def openName (content : List UInt8) : Except DecodeError String :=
  match (Decoder.new content).expect (contextConstructed 0) with
  | .error e => .error (.asn1 e)
  | .ok (seq, _) => .ok ((parseFileName seq).toOption.getD "")

def chunkLimit (maxPdu : ℕ) : ℕ := if maxPdu = 0 then fileChunkSize else max (maxPdu - pageEnvelope) 1

/-- The services that open, read and close a file; `others` are the other ones. -/
def fileService (files : Option FileStore) (disk : Disk) (others : Request → Except HandlerError Element)
    (maxPdu : ℕ) (req : Request) (st : FileStoreState) : Except HandlerError Element × FileStoreState :=
  match files with
  | none => (.error (.access .objectAccessUnsupported), st)
  | some files =>
    if req.service = svcFileOpen then
      match openName req.content with
      | .error _ => (.error .other, st)
      | .ok name =>
        match files.openFile disk name st with
        | (.error e, st) => (.error (.access (fileOpenError e)), st)
        | (.ok (id, data, modified), st) => (.ok (fileOpenElement id data modified), st)
    else if req.service = svcFileRead then
      match FileStore.readFile (frsmOf req.content) (chunkLimit maxPdu) st with
      | (none, st) => (.error (.access .objectNonExistent), st)
      | (some (chunk, more), st) => (.ok (fileReadElement chunk more), st)
    else if req.service = svcFileClose then
      (.ok (prim (contextPrimitive svcFileClose) []), FileStore.closeFile (frsmOf req.content) st)
    else (others req, st)

open Decoder List Except Option AList

def fileOpenResult (resp : List UInt8) : Except Asn1.Error Int32 := do
  let (content, _) ← (new resp).expect (contextConstructed svcFileOpen)
  let (id, _) ← (new content).expect (contextPrimitive 0)
  pure (frsmOf id)

def fileReadResult (resp : List UInt8) : Except Asn1.Error (List UInt8 × Bool) := do
  let (content, _) ← (new resp).expect (contextConstructed svcFileRead)
  let (data, d) ← (new content).expect (contextPrimitive 0)
  let (mf, _) ← d.optional (contextPrimitive 1)
  let more := match mf.map decodeBool with
    | some (.ok more) => more
    | _ => true
  pure (data, more)

lemma fileOpenElement_low (id : Int32) (data : List UInt8) (modified : Option SystemTime) :
    (fileOpenElement id data modified).AllLow := by
  refine cons_low (by decide) ⟨intElem_low (by decide) _, cons_low (by decide) ⟨uintElem_low (by decide) _, ?_⟩, trivial⟩
  cases modified with
  | none => trivial
  | some t => exact ⟨prim_low (by decide) _, trivial⟩

lemma fileReadElement_low (chunk : List UInt8) (more : Bool) : (fileReadElement chunk more).AllLow :=
  cons_low (by decide) ⟨prim_low (by decide) _, prim_low (by decide) _, trivial⟩

variable {chunk : List UInt8} {more : Bool}

lemma fileReadResult_encode (h : (fileReadElement chunk more).Fits) :
    fileReadResult (fileReadElement chunk more).encode = .ok (chunk, more) := by
  have hps := h.parts
  have hsvc : (new (fileReadElement chunk more).encode).expect (contextConstructed svcFileRead) = _ :=
    expect_new h rfl
  have hdata : (new (fileReadElement chunk more).content).expect (contextPrimitive 0) = _ :=
    expect_first hps.head rfl
  have hmo : optional (contextPrimitive 1) ⟨(prim (contextPrimitive 0) chunk).size,
      Element.encodeAll [boolElem (contextPrimitive 1) more]⟩ = _ := optional_encode hps.tail.head rfl
  unfold fileReadResult
  simp only [hsvc, hdata, hmo, bind, Except.bind, pure, Except.pure, Option.map_some, decodeBool_boolElem]
  rfl

lemma frsmOf_intElem (t : Tag) (id : Int32) : frsmOf (intElem t id.toInt64).content = id := by
  unfold frsmOf
  rw [decodeInt_intElem]
  simp

lemma fileOpenResult_encode {id : Int32} {data : List UInt8} {modified : Option SystemTime}
    (h : (fileOpenElement id data modified).Fits) :
    fileOpenResult (fileOpenElement id data modified).encode = .ok id := by
  have hps := h.parts
  have hsvc : (new (fileOpenElement id data modified).encode).expect (contextConstructed svcFileOpen) = _ :=
    expect_new h rfl
  have hfst : (new (fileOpenElement id data modified).content).expect (contextPrimitive 0) = _ :=
    expect_first hps.head rfl
  unfold fileOpenResult
  simp only [hsvc, hfst, bind, Except.bind, pure, Except.pure, frsmOf_intElem]

def namedContent (files : Option FileStore) (disk : Disk) (content : List UInt8) : Option (List UInt8) :=
  match files, openName content with
  | some files, .ok name =>
    match (files.resolve name).map disk.read with
    | some (.ok body) => some body.data
    | _ => none
  | _, _ => none

def initialPosition (content : List UInt8) : ℕ :=
  match (new content).expect (contextConstructed 0) with
  | .error _ => 0
  | .ok (_, d) =>
    match d.optional (contextPrimitive 1) with
    | .ok (some position, _) => (decodeUint position).toOption.getD 0
    | _ => 0

/-- What an association got on a state machine it opened, up to the response after which nothing
follows. -/
structure Transfer where
  data : List UInt8
  initial : ℕ
  received : List UInt8 := []
  finished : Bool := false
deriving DecidableEq

def Transfer.take (tr : Transfer) (chunk : List UInt8) (more : Bool) : Transfer :=
  if tr.finished then tr else { tr with received := tr.received ++ chunk, finished := !more }

/-- A filestore in use; `transfers` is what the associations see, which no function reads. -/
structure Filing where
  st : FileStoreState := {}
  disk : Disk := {}
  transfers : Table (ConnId × Int32) Transfer := ∅

inductive FileEvent where
  /-- An association makes a request; `maxPdu` is its PDU size. -/
  | request (conn : ConnId) (maxPdu : ℕ) (req : Request)
  | disk (d : Disk)

def delivered (maxPdu : ℕ) (invokeId : UInt32) (resp : Except HandlerError Element) : Option Element :=
  match resp with
  | .error _ => none
  | .ok el =>
    let size := (confirmedResponse invokeId el).size
    if (0 < maxPdu ∧ maxPdu < size) ∨ 2 ^ 32 ≤ size then none else some el

namespace Filing

def observe (files : Option FileStore) (s : Filing) (conn : ConnId) (req : Request) (answer : Option Element) :
    Table (ConnId × Int32) Transfer :=
  if req.service = svcFileClose then s.transfers.erase (conn, frsmOf req.content)
  else
    match answer with
    | none => s.transfers
    | some el =>
      if req.service = svcFileOpen then
        match fileOpenResult el.encode, namedContent files s.disk req.content with
        | .ok id, some data =>
          s.transfers.insert (conn, id) { data := data, initial := initialPosition req.content }
        | _, _ => s.transfers
      else if req.service = svcFileRead then
        match s.transfers.lookup (conn, frsmOf req.content), fileReadResult el.encode with
        | some tr, .ok (chunk, more) => s.transfers.insert (conn, frsmOf req.content) (tr.take chunk more)
        | _, _ => s.transfers
      else s.transfers

def step (files : Option FileStore) (others : Request → Except HandlerError Element) (s : Filing) : FileEvent → Filing
  | .disk d => { s with disk := d }
  | .request conn maxPdu req =>
    let (resp, st) := fileService files s.disk others maxPdu req s.st
    { s with st := st, transfers := s.observe files conn req (delivered maxPdu req.invokeId resp) }

def run (files : Option FileStore) (others : Request → Except HandlerError Element) (s : Filing)
    (events : List FileEvent) : Filing := events.foldl (step files others) s

/-- Each association that read a file to its end got its content from the position it asked for, and what it
opened is there. -/
structure Isolated (s : Filing) : Prop where
  complete : s.transfers.All fun _ tr => tr.finished = true → tr.received = tr.data.drop tr.initial
  available : s.transfers.All fun key _ => (s.st.opened.lookup key.2).isSome

/-- A request asks for the whole file and gets an unused id, or names a state machine that no other
association opened and has room for an octet in its answer. -/
def Separate (s : Filing) : FileEvent → Prop
  | .disk _ => True
  | .request conn maxPdu req =>
    if req.service = svcFileOpen then initialPosition req.content = 0 ∧ s.st.opened.lookup s.st.next = none
    else if req.service = svcFileRead then
      (maxPdu = 0 ∨ 18 ≤ maxPdu) ∧ maxPdu < 2 ^ 32 ∧
        s.transfers.All fun key _ => key.2 = frsmOf req.content → key.1 = conn
    else if req.service = svcFileClose then s.transfers.All fun key _ => key.2 = frsmOf req.content → key.1 = conn
    else True

instance (s : Filing) (e : FileEvent) : Decidable (s.Separate e) :=
  match e with
  | .disk _ => .isTrue trivial
  | .request _ _ _ => inferInstanceAs (Decidable (ite _ _ _))

end Filing

variable (files : Option FileStore) (disk : Disk) (others : Request → Except HandlerError Element) (maxPdu : ℕ)
  (st : FileStoreState) {req : Request}

lemma fileService_open (hsvc : req.service = svcFileOpen) :
    (∃ e, fileService files disk others maxPdu req st = (.error e, st)) ∨
      ∃ data modified next, namedContent files disk req.content = some data ∧
        fileService files disk others maxPdu req st = (.ok (fileOpenElement st.next data modified),
          { next := next, opened := st.opened.insert st.next { data := data, pos := 0 } }) := by
  unfold fileService namedContent
  rcases files with _ | files
  · exact .inl ⟨_, rfl⟩
  dsimp only
  rw [if_pos hsvc]
  rcases openName req.content with e | name
  · exact .inl ⟨_, rfl⟩
  dsimp only
  unfold FileStore.openFile
  rcases files.resolve name with _ | path
  · exact .inl ⟨_, rfl⟩
  dsimp only [map_some]
  cases disk.read path with
  | error e => exact .inl ⟨_, rfl⟩
  | ok body => exact .inr ⟨body.data, body.modified, _, rfl, rfl⟩

def readStop (maxPdu : ℕ) (f : OpenFile) : ℕ := min (f.pos + max (chunkLimit maxPdu) 1) f.data.length

lemma fileService_read (hsvc : req.service = svcFileRead) :
    (∃ e, fileService files disk others maxPdu req st = (.error e, st)) ∨
      ∃ f, st.opened.lookup (frsmOf req.content) = some f ∧ fileService files disk others maxPdu req st =
          (.ok (fileReadElement ((f.data.drop f.pos).take (readStop maxPdu f - f.pos))
              (decide (readStop maxPdu f < f.data.length))),
            { st with opened := st.opened.insert (frsmOf req.content) { f with pos := readStop maxPdu f } }) := by
  unfold fileService
  rcases files with _ | files
  · exact .inl ⟨_, rfl⟩
  have hop : req.service ≠ svcFileOpen := by
    rw [hsvc]
    decide
  dsimp only
  rw [if_neg hop, if_pos hsvc]
  unfold FileStore.readFile
  cases hf : st.opened.lookup (frsmOf req.content) with
  | none => exact .inl ⟨_, rfl⟩
  | some f => exact .inr ⟨f, rfl, rfl⟩

lemma fileService_close (hsvc : req.service = svcFileClose) :
    (fileService files disk others maxPdu req st).2 = st ∨
      (fileService files disk others maxPdu req st).2 = FileStore.closeFile (frsmOf req.content) st := by
  unfold fileService
  rcases files with _ | files
  · exact .inl rfl
  right
  dsimp only
  rw [if_neg (by rw [hsvc]; decide), if_neg (by rw [hsvc]; decide), if_pos hsvc]

lemma fileService_other (hop : req.service ≠ svcFileOpen) (hrd : req.service ≠ svcFileRead)
    (hcls : req.service ≠ svcFileClose) : (fileService files disk others maxPdu req st).2 = st := by
  unfold fileService
  cases files with
  | none => rfl
  | some files =>
    dsimp only
    rw [if_neg hop, if_neg hrd, if_neg hcls]

lemma lengthSize_short {n : ℕ} (h : n ≤ 127) : lengthSize n = 1 := if_pos h

lemma size_fileRead {maxPdu : ℕ} {id : UInt32} (hrm : 18 ≤ maxPdu) (hchunk : chunk.length ≤ chunkLimit maxPdu) :
    (confirmedResponse id (fileReadElement chunk more)).size ≤ maxPdu := by
  have hmo : (boolElem (contextPrimitive 1) more).size = 3 := by cases more <;> rfl
  have hdata : (prim (contextPrimitive 0) chunk).size = 1 + lengthSize chunk.length + chunk.length := rfl
  have hsvc : (fileReadElement chunk more).size =
      2 + lengthSize ((prim (contextPrimitive 0) chunk).size + ((boolElem (contextPrimitive 1) more).size + 0)) +
        ((prim (contextPrimitive 0) chunk).size + ((boolElem (contextPrimitive 1) more).size + 0)) := rfl
  have hpdu : (confirmedResponse id (fileReadElement chunk more)).size =
      1 + lengthSize ((uintElem tagInteger id.toUInt64).size + ((fileReadElement chunk more).size + 0)) +
        ((uintElem tagInteger id.toUInt64).size + ((fileReadElement chunk more).size + 0)) := rfl
  have hid := size_invokeId id
  have hlimit : chunkLimit maxPdu = max (maxPdu - 32) 1 := if_neg (by omega)
  rw [hmo] at hsvc
  by_cases hsmall : maxPdu ≤ 33
  · -- A chunk of one octet has lengths of one octet.
    rw [lengthSize_short (by omega)] at hdata
    rw [lengthSize_short (by omega)] at hsvc
    rw [lengthSize_short (by omega)] at hpdu
    omega
  have h1 := lengthSize_le chunk.length
  have h2 := lengthSize_le ((prim (contextPrimitive 0) chunk).size + (3 + 0))
  have h3 := lengthSize_le ((uintElem tagInteger id.toUInt64).size + ((fileReadElement chunk more).size + 0))
  omega

namespace Filing
variable {files : Option FileStore} {others : Request → Except HandlerError Element} {s : Filing}

/-- The state machine of a transfer has what is missing of it. -/
def Carries (st : FileStoreState) (id : Int32) (tr : Transfer) : Prop :=
  ∃ f, st.opened.lookup id = some f ∧ f.data = tr.data ∧
    if tr.finished then tr.received = tr.data.drop tr.initial
    else tr.received ++ f.data.drop f.pos = tr.data.drop tr.initial

/-- What holds along a run: each transfer goes on with its state machine. -/
def Carried (s : Filing) : Prop := s.transfers.All fun key tr => Carries s.st key.2 tr

lemma Carried.isolated (h : s.Carried) : s.Isolated := by
  constructor
  · intro key tr hkey hfin
    obtain ⟨f, -, -, hrs⟩ := h key tr hkey
    rwa [if_pos hfin] at hrs
  intro key tr hkey
  obtain ⟨f, hf, -⟩ := h key tr hkey
  rw [hf]
  rfl

variable {st : FileStoreState} {f : OpenFile} {id next : Int32} {tr : Transfer}

lemma Carries.insert_ne {other : Int32}
    (h : Carries st id tr) (hne : id ≠ other) : Carries { next := next, opened := st.opened.insert other f } id tr := by
  obtain ⟨g, hg, hrs⟩ := h
  refine ⟨g, ?_, hrs⟩
  rw [lookup_insert_ne hne]
  exact hg

lemma carries_new (data : List UInt8) :
    Carries { next := next, opened := st.opened.insert st.next { data := data, pos := 0 } } st.next
      { data := data, initial := 0 } :=
  ⟨_, lookup_insert _, rfl, rfl⟩

lemma drop_readStop (maxPdu : ℕ) (f : OpenFile) :
    f.data.drop f.pos = (f.data.drop f.pos).take (readStop maxPdu f - f.pos) ++ f.data.drop (readStop maxPdu f) := by
  by_cases hend : f.data.length ≤ f.pos
  · have hstop : f.data.length ≤ readStop maxPdu f := by
      unfold readStop
      omega
    rw [drop_eq_nil_of_le hend, drop_eq_nil_of_le hstop, take_nil, append_nil]
  have hstop : readStop maxPdu f = f.pos + (readStop maxPdu f - f.pos) := by
    unfold readStop
    omega
  have hrs : f.data.drop (readStop maxPdu f) = (f.data.drop f.pos).drop (readStop maxPdu f - f.pos) := by
    rw [drop_drop, ← hstop]
  rw [hrs, take_append_drop]

lemma Carries.read {maxPdu : ℕ} (h : Carries st id tr) (hf : st.opened.lookup id = some f) :
    Carries { st with opened := st.opened.insert id { f with pos := readStop maxPdu f } } id
      (tr.take ((f.data.drop f.pos).take (readStop maxPdu f - f.pos)) (decide (readStop maxPdu f < f.data.length))) := by
  obtain ⟨g, hg, hdata, hrs⟩ := h
  obtain rfl := mem_unique hg hf
  refine ⟨_, lookup_insert _, ?_, ?_⟩
  · unfold Transfer.take
    split
    · exact hdata
    · exact hdata
  unfold Transfer.take
  by_cases hfin : tr.finished
  · rw [if_pos hfin] at hrs
    simpa [hfin] using hrs
  rw [if_neg hfin] at hrs
  simp only [hfin, Bool.false_eq_true, if_false]
  have hsp := drop_readStop maxPdu g
  by_cases hmo : readStop maxPdu g < g.data.length
  · simp only [hmo, decide_true, Bool.not_true, Bool.false_eq_true, if_false]
    rw [append_assoc, ← hsp]
    exact hrs
  have hnil : g.data.drop (readStop maxPdu g) = [] := drop_eq_nil_of_le (by omega)
  simp only [hmo, decide_false, Bool.not_false, if_true]
  rw [hnil, append_nil] at hsp
  rw [← hsp]
  exact hrs

variable {conn : ConnId} {maxPdu : ℕ}

lemma step_request (files : Option FileStore) (others : Request → Except HandlerError Element) (s : Filing)
    (conn : ConnId) (maxPdu : ℕ) (req : Request) : s.step files others (.request conn maxPdu req) = { s with
        st := (fileService files s.disk others maxPdu req s.st).2
        transfers := s.observe files conn req
          (delivered maxPdu req.invokeId (fileService files s.disk others maxPdu req s.st).1) } := rfl

lemma delivered_eq_some {id : UInt32} {el el' : Element} (h : delivered maxPdu id (.ok el) = some el') :
    el' = el ∧ (confirmedResponse id el).size < 2 ^ 32 := by
  unfold delivered at h
  dsimp only at h
  split at h
  · cases h
  · exact ⟨(some.inj h).symm, by omega⟩

section
variable (h : s.Carried)
include h

lemma carried_open (hsvc : req.service = svcFileOpen) (hinitial : initialPosition req.content = 0)
    (hfre : s.st.opened.lookup s.st.next = none) : (s.step files others (.request conn maxPdu req)).Carried := by
  have hcls : req.service ≠ svcFileClose := by
    rw [hsvc]
    decide
  rw [step_request]
  obtain ⟨e, heq⟩ | ⟨data, modified, next, hnmd, heq⟩ := fileService_open files s.disk others maxPdu s.st hsvc
  · rw [heq]
    unfold observe
    rw [if_neg hcls]
    exact h
  rw [heq]
  dsimp only
  -- No transfer has the id that the new one gets.
  have hkp : s.transfers.All fun key tr =>
      Carries { next := next, opened := s.st.opened.insert s.st.next { data := data, pos := 0 } } key.2 tr := by
    intro key tr hkey
    have hcar := h key tr hkey
    apply hcar.insert_ne
    intro hid
    obtain ⟨f, hf, -⟩ := hcar
    rw [hid, hfre] at hf
    cases hf
  unfold observe
  rw [if_neg hcls]
  split
  · exact hkp
  next el hel =>
  obtain ⟨rfl, hsz⟩ := delivered_eq_some hel
  have hid := fileOpenResult_encode
    (fits_response ⟨confirmedResponse_low (fileOpenElement_low s.st.next data modified), hsz⟩)
  rw [if_pos hsvc, hid, hnmd, hinitial]
  exact hkp.insert (carries_new data)

lemma carried_read (hsvc : req.service = svcFileRead) (hrm : maxPdu = 0 ∨ 18 ≤ maxPdu)
    (hlimit : maxPdu < 2 ^ 32) (hown : s.transfers.All fun key _ => key.2 = frsmOf req.content → key.1 = conn) :
    (s.step files others (.request conn maxPdu req)).Carried := by
  have hcls : req.service ≠ svcFileClose := by
    rw [hsvc]
    decide
  have hop : req.service ≠ svcFileOpen := by
    rw [hsvc]
    decide
  rw [step_request]
  obtain ⟨e, heq⟩ | ⟨f, hf, heq⟩ := fileService_read files s.disk others maxPdu s.st hsvc
  · rw [heq]
    unfold observe
    rw [if_neg hcls]
    exact h
  rw [heq]
  generalize hchunk : (f.data.drop f.pos).take (readStop maxPdu f - f.pos) = chunk
  generalize hmo : decide (readStop maxPdu f < f.data.length) = more
  have hlen : chunk.length ≤ chunkLimit maxPdu := by
    rw [← hchunk, length_take]
    have hpos : 1 ≤ chunkLimit maxPdu := by
      unfold chunkLimit fileChunkSize
      split <;> omega
    unfold readStop
    omega
  have hsz : (confirmedResponse req.invokeId (fileReadElement chunk more)).size < 2 ^ 32 ∧
      ¬ (0 < maxPdu ∧ maxPdu < (confirmedResponse req.invokeId (fileReadElement chunk more)).size) := by
    rcases hrm with hz | hrm
    · rw [hz] at hlen
      have hlen' : chunk.length ≤ chunkLimit 8032 := hlen
      have hfit : (confirmedResponse req.invokeId (fileReadElement chunk more)).size ≤ 8032 :=
        size_fileRead (by decide) hlen'
      omega
    have hfit : (confirmedResponse req.invokeId (fileReadElement chunk more)).size ≤ maxPdu :=
      size_fileRead hrm hlen
    omega
  have hdelivered : delivered maxPdu req.invokeId (.ok (fileReadElement chunk more)) =
      some (fileReadElement chunk more) := if_neg (by omega)
  have hres := fileReadResult_encode (fits_response ⟨confirmedResponse_low (fileReadElement_low chunk more), hsz.1⟩)
  unfold observe
  rw [if_neg hcls, hdelivered]
  dsimp only
  rw [if_neg hop, if_pos hsvc, hres]
  -- The transfers of other state machines go on as before.
  have hoths {key : ConnId × Int32} {tr : Transfer} (hkey : s.transfers.lookup key = some tr)
      (hne : key ≠ (conn, frsmOf req.content)) :
      Carries { s.st with opened := s.st.opened.insert (frsmOf req.content) { f with pos := readStop maxPdu f } }
        key.2 tr := by
    apply (h key tr hkey).insert_ne
    intro hid
    exact hne (Prod.ext (hown key tr hkey hid) hid)
  cases htr : s.transfers.lookup (conn, frsmOf req.content) with
  | none =>
    intro key tr hkey
    apply hoths hkey
    rintro rfl
    rw [htr] at hkey
    cases hkey
  | some tr =>
    intro key tr' hkey
    rcases Table.lookup_insert_eq_some.mp hkey with ⟨rfl, rfl⟩ | ⟨hne, hkey⟩
    · rw [← hchunk, ← hmo]
      exact (h _ tr htr).read hf
    · exact hoths hkey hne

lemma carried_close (hsvc : req.service = svcFileClose)
    (hown : s.transfers.All fun key _ => key.2 = frsmOf req.content → key.1 = conn) :
    (s.step files others (.request conn maxPdu req)).Carried := by
  rw [step_request]
  unfold observe
  rw [if_pos hsvc]
  intro key tr hkey
  obtain ⟨hne, hkey⟩ := Table.lookup_erase_eq_some.mp hkey
  have hid : key.2 ≠ frsmOf req.content := fun hid => hne (Prod.ext (hown key tr hkey hid) hid)
  obtain heq | heq := fileService_close files s.disk others maxPdu s.st hsvc
  · rw [heq]
    exact h key tr hkey
  rw [heq]
  obtain ⟨f, hf, hrs⟩ := h key tr hkey
  refine ⟨f, ?_, hrs⟩
  show (s.st.opened.erase (frsmOf req.content)).lookup key.2 = some f
  rw [lookup_erase_ne hid]
  exact hf

lemma carried_step {e : FileEvent} (he : s.Separate e) : (s.step files others e).Carried := by
  cases e with
  | disk d => exact h
  | request conn maxPdu req =>
    unfold Separate at he
    dsimp only at he
    split at he
    · next hsvc => exact carried_open h hsvc he.1 he.2
    split at he
    · next hsvc => exact carried_read h hsvc he.1 he.2.1 he.2.2
    split at he
    · next hsvc => exact carried_close h hsvc he
    next hop hrd hcls =>
    have hst := fileService_other files s.disk others maxPdu s.st hop hrd hcls
    have htransfers (answer : Option Element) : s.observe files conn req answer = s.transfers := by
      unfold observe
      rw [if_neg hcls]
      cases answer with
      | none => rfl
      | some el =>
        dsimp only
        rw [if_neg hop, if_neg hrd]
    rw [step_request, hst, htransfers]
    exact h

end

def sampleDisk : Disk where
  nodes := (∅ : Table Path Node).insert ["settings.cid"] (.file 1)
  bodies := (∅ : Table ℕ FileBody).insert 1 { data := [1, 2, 3, 4, 5] }

def sampleRun (events : List FileEvent) : Filing := Filing.run (some {}) (fun _ => .error .other) { disk := sampleDisk } events

def openRequest (position : UInt64) : Request :=
  { invokeId := 1
    service := svcFileOpen
    content := Element.encodeAll
      [ cons (contextConstructed 0) [prim tagGraphicString (Text.octets "settings.cid")],
        uintElem (contextPrimitive 1) position ] }

def readRequest (id : Int64) : Request :=
  { invokeId := 2, service := svcFileRead, content := (intElem (contextPrimitive svcFileRead) id).content }

def closeRequest (id : Int64) : Request :=
  { invokeId := 3, service := svcFileClose, content := (intElem (contextPrimitive svcFileClose) id).content }

def readInTurns : List FileEvent :=
  [ .request 1 35 (openRequest 0), .request 2 35 (openRequest 0), .request 1 35 (readRequest 1), .disk {},
    .request 2 35 (readRequest 2), .request 2 35 (closeRequest 2), .request 1 35 (readRequest 1) ]

def readByOther : List FileEvent :=
  [.request 1 35 (openRequest 0), .request 2 35 (readRequest 1), .request 1 35 (readRequest 1)]

def readFromThird : List FileEvent := [.request 1 0 (openRequest 2), .request 1 0 (readRequest 1)]

/-- In every run whose requests are separate, the associations get the files they opened. -/
theorem transfers_isolated (files : Option FileStore) (others : Request → Except HandlerError Element) (disk : Disk)
    (events : List FileEvent) (hm : Runs.Admitted (step files others) Separate { disk := disk } events) :
    ((Filing.run files others { disk := disk } events)).Isolated := by
  have hsta : Carried { disk := disk } := Table.all_empty
  have hrun : (Filing.run files others { disk := disk } events).Carried :=
    Runs.induction_admitted Carried (fun _ _ h he => carried_step h he) hsta hm
  exact hrun.isolated

/-- The first of two associations has the whole file. -/
theorem read_in_turns : (sampleRun readInTurns).transfers.lookup (1, 1) =
        some { data := [1, 2, 3, 4, 5], initial := 0, received := [1, 2, 3, 4, 5], finished := true } ∧
      (sampleRun readInTurns).Isolated :=
  ⟨by decide +kernel, transfers_isolated (some {}) (fun _ => .error .other) sampleDisk readInTurns (by decide +kernel)⟩

/-- Another association's read takes octets away, and the position that a request asks for is ignored. -/
theorem read_by_other : ((sampleRun readByOther).transfers.lookup (1, 1) =
        some { data := [1, 2, 3, 4, 5], initial := 0, received := [4, 5], finished := true } ∧
      ¬ (sampleRun readByOther).Isolated) ∧
    (sampleRun readFromThird).transfers.lookup (1, 1) =
        some { data := [1, 2, 3, 4, 5], initial := 2, received := [1, 2, 3, 4, 5], finished := true } ∧
      ¬ (sampleRun readFromThird).Isolated := by
  have hoth : (sampleRun readByOther).transfers.lookup (1, 1) =
      some { data := [1, 2, 3, 4, 5], initial := 0, received := [4, 5], finished := true } := by decide +kernel
  have hthird : (sampleRun readFromThird).transfers.lookup (1, 1) =
      some { data := [1, 2, 3, 4, 5], initial := 2, received := [1, 2, 3, 4, 5], finished := true } := by decide +kernel
  refine ⟨⟨hoth, ?_⟩, hthird, ?_⟩
  · intro h
    have hrcvd := h.complete _ _ hoth rfl
    cases hrcvd
  intro h
  have hrcvd := h.complete _ _ hthird rfl
  cases hrcvd

end Filing
end Iec61850.Server
