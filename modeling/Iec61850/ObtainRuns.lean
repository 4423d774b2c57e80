import Iec61850.FileTransfers

/-! The services that change the filestore, and SetFile requests that fail among them. -/
namespace Iec61850.Server
open Asn1 Mms Decoder

inductive FileErr where
  | nameSyntax
  | accessDenied
  | nonExistent
  | duplicateName
  | insufficientSpace

def FileErr.code : FileErr → UInt8
  | nameSyntax => 3
  | accessDenied => 6
  | nonExistent => 7
  | duplicateName => 8
  | insufficientSpace => 9

def fileError (e : FileErr) : HandlerError := .service { cls := 11, code := e.code }

def svcObtainFile : ℕ := 46
def svcFileRename : ℕ := 75
def svcFileDelete : ℕ := 76

def maxObtainedFile : ℕ := 256 * 2 ^ 20

namespace Disk

def createNew (disk : Disk) (path : Path) (inode : ℕ) : Except IoKind Disk :=
  match disk.nodes.lookup path with
  | some _ => .error .alreadyExists
  | none =>
    .ok { nodes := disk.nodes.insert path (.file inode), bodies := disk.bodies.insert inode { data := [] } }

def append (disk : Disk) (inode : ℕ) (data : List UInt8) : Disk :=
  match disk.bodies.lookup inode with
  | none => disk
  | some body => { disk with bodies := disk.bodies.insert inode { body with data := body.data ++ data } }

def removeFile (disk : Disk) (path : Path) : Except IoKind Disk :=
  match disk.nodes.lookup path with
  | none => .error .notFound
  | some .dir => .error .other
  | some (.file _) => .ok { disk with nodes := disk.nodes.erase path }

def hardLink (disk : Disk) (source target : Path) : Except IoKind Disk :=
  match disk.nodes.lookup source, disk.nodes.lookup target with
  | none, _ => .error .notFound
  | some .dir, _ => .error .permissionDenied
  | some (.file _), some _ => .error .alreadyExists
  | some (.file inode), none => .ok { disk with nodes := disk.nodes.insert target (.file inode) }

end Disk

namespace FileStore

def «exists» (files : FileStore) (disk : Disk) (name : String) : Bool :=
  ((files.resolve name).bind disk.nodes.lookup).isSome

def createNew (files : FileStore) (disk : Disk) (inode : ℕ) (name : String) : Except IoKind Disk :=
  (files.resolveFile name).bind fun path => disk.createNew path inode

def delete (files : FileStore) (disk : Disk) (name : String) : Except IoKind Disk :=
  (files.resolveFile name).bind disk.removeFile

def inode (files : FileStore) (disk : Disk) (name : String) : Option ℕ :=
  match (files.resolve name).bind disk.nodes.lookup with
  | some (.file inode) => some inode
  | _ => none

end FileStore

/-- How far an ObtainFile has come; `frsm` is the client's number for the open file. -/
inductive ObtainStage where
  | opening
  | copying (frsm : Int) (inode written : ℕ)
  | closing (result : Except HandlerError Unit)
  /-- The transfer failed, and what it left is still to be deleted. -/
  | failed (e : HandlerError)

/-- An ObtainFile in progress; `created` is the file it created, which no function reads. -/
structure ObtainTask where
  dst : String
  stage : ObtainStage
  created : Option ℕ := none

/-- A FileRename in progress, and whether the file has its new name. -/
structure RenameTask where
  source : Path
  target : Path
  linked : Bool := false

/-- A name that an ObtainFile removed: the file it named, and the file that the request had created. -/
structure Removal where
  inode : ℕ
  created : Option ℕ
deriving DecidableEq

/-- A filestore that is written to. Requests are known by a number: `asked` is what the clients are asked,
`answers` what they are answered. `removals`, kept for reasoning, is what failed requests removed. -/
structure Obtaining where
  disk : Disk
  nextInode : ℕ
  obtains : Table ℕ ObtainTask := ∅
  renames : Table ℕ RenameTask := ∅
  asked : List (ℕ × Element) := []
  answers : List (ℕ × Except HandlerError Element) := []
  removals : List Removal := []

def parseObtain (content : List UInt8) : Except HandlerError (String × String) :=
  match (new content).optional (contextConstructed 0) with
  | .error _ => .error .other
  -- A file of a third party: this server can only read from the client that asked.
  | .ok (some _, _) => .error (.service { cls := 1, code := 3 })
  | .ok (none, d) =>
    match d.expect (contextConstructed 1) with
    | .error _ => .error (fileError .nameSyntax)
    | .ok (src, d) =>
      match parseFileName src, d.expect (contextConstructed 2) with
      | .ok src, .ok (dst, _) =>
        match parseFileName dst with
        | .error _ => .error (fileError .nameSyntax)
        | .ok dst => .ok (src, dst)
      | _, _ => .error (fileError .nameSyntax)

def parseFileDelete (content : List UInt8) : Except HandlerError String :=
  let name := match (new content).optional (contextConstructed 0) with
    | .ok (some name, _) => name
    | _ => content
  (parseFileName name).mapError fun _ => fileError .nameSyntax

def parseFileRename (content : List UInt8) : Except DecodeError (String × String) := do
  let (old, d) ← ((new content).expect (contextConstructed 0)).mapError .asn1
  let old ← parseFileName old
  let (new, _) ← (d.expect (contextConstructed 1)).mapError .asn1
  let new ← parseFileName new
  pure (old, new)

def obtainFrsm (resp : List UInt8) : Except Asn1.Error Int := do
  let (content, _) ← (new resp).expect (contextConstructed svcFileOpen)
  let (frsm, _) ← (new content).expect (contextPrimitive 0)
  decodeInt frsm

/-- The octets in a client's answer, and whether more follow; that is so unless it says otherwise. -/
def obtainChunk (resp : List UInt8) : Except Asn1.Error (List UInt8 × Bool) := do
  let (content, _) ← (new resp).expect (contextConstructed svcFileRead)
  let (data, d) ← (new content).expect (contextPrimitive 0)
  let (mf, _) ← d.optional (contextPrimitive 1)
  let more := match mf with
    | some [b] => b != 0
    | some _ => false
    | none => true
  pure (data, more)

def deleteError : IoKind → HandlerError
  | .notFound => fileError .nonExistent
  | .invalidInput => fileError .nameSyntax
  | _ => fileError .accessDenied

def renameError : IoKind → HandlerError
  | .notFound => fileError .nonExistent
  | .alreadyExists => fileError .duplicateName
  | .invalidInput => fileError .nameSyntax
  | _ => fileError .accessDenied

def createError : IoKind → HandlerError
  | .alreadyExists => fileError .duplicateName
  | _ => fileError .accessDenied

def hosted {α : Type} (host : Option IoKind) (r : Except IoKind α) : Except IoKind α :=
  match host with
  | some e => .error e
  | none => r

def writableStore : Option FileStore → Except HandlerError FileStore
  | some files => if files.writable then .ok files else .error (fileError .accessDenied)
  | none => .error (fileError .accessDenied)

def obtainError : HandlerError → HandlerError
  | .service e => .service e
  | _ => fileError .accessDenied

/-- What happens to a filestore. `answer` is what a client answers, or why it does not; `host` is why the
host refuses, where it does. -/
inductive ObtainStep where
  | obtain (id : ℕ) (content : List UInt8)
  | opened (id : ℕ) (answer : Except HandlerError (List UInt8)) (host : Option IoKind)
  /-- A client answers with octets; `full` is how many of them could be written, where not all could. -/
  | chunk (id : ℕ) (answer : Except HandlerError (List UInt8)) (full : Option ℕ)
  | closed (id : ℕ)
  | timeout (id : ℕ)
  /-- A failed transfer deletes its destination and is answered. -/
  | cleanup (id : ℕ) (host : Option IoKind)
  /-- The association ends, and its ObtainFile with it. -/
  | dropped (id : ℕ)
  | delete (id : ℕ) (content : List UInt8) (host : Option IoKind)
  | rename (id : ℕ) (content : List UInt8)
  | link (id : ℕ) (host : Option IoKind)
  | unlink (id : ℕ) (host : Option IoKind)

def ObtainStep.request : ObtainStep → Option ℕ
  | .obtain id _ | .delete id _ _ | .rename id _ => some id
  | _ => none

namespace Obtaining

def answer (id : ℕ) (r : Except HandlerError Element) (s : Obtaining) : Obtaining :=
  { s with answers := s.answers ++ [(id, r)] }

def ask (id : ℕ) (el : Element) (s : Obtaining) : Obtaining := { s with asked := s.asked ++ [(id, el)] }

def goOn (id : ℕ) (task : ObtainTask) (stage : ObtainStage) (s : Obtaining) : Obtaining :=
  { s with obtains := s.obtains.insert id { task with stage := stage } }

def finish (id : ℕ) (s : Obtaining) : Obtaining := { s with obtains := s.obtains.erase id }

/-- The first part of an ObtainFile, up to the request to open the file. -/
def obtainFile (files : FileStore) (id : ℕ) (content : List UInt8) (s : Obtaining) : Obtaining :=
  match parseObtain content with
  | .error e => s.answer id (.error e)
  | .ok (src, dst) =>
    if (files.resolve dst).isNone then s.answer id (.error (fileError .nameSyntax))
    else if files.exists s.disk dst then s.answer id (.error (fileError .duplicateName))
    else
      (s.goOn id { dst := dst, stage := .opening } .opening).ask id
        (cons (contextConstructed svcFileOpen)
          [ cons (contextConstructed 0) [prim tagGraphicString (Text.octets src)], uintElem (contextPrimitive 1) 0 ])

def fileOpened (files : FileStore) (id : ℕ) (answer : Except HandlerError (List UInt8)) (host : Option IoKind)
    (task : ObtainTask) (s : Obtaining) : Obtaining :=
  match answer.bind fun resp => (obtainFrsm resp).mapError fun _ => .other with
  | .error e => s.goOn id task (.failed e)
  | .ok frsm =>
    match hosted host (files.createNew s.disk s.nextInode task.dst) with
    | .error e =>
      (s.goOn id task (.closing (.error (createError e)))).ask id
        (intElem (contextPrimitive svcFileClose) (Int64.ofInt frsm))
    | .ok disk =>
      ({ s with disk := disk, nextInode := s.nextInode + 1 }.goOn id { task with created := some s.nextInode }
        (.copying frsm s.nextInode 0)).ask id (intElem (contextPrimitive svcFileRead) (Int64.ofInt frsm))

/-- The client has answered with octets: they are written, and it is asked for more or to close. -/
def fileRead (id : ℕ) (answer : Except HandlerError (List UInt8)) (full : Option ℕ) (task : ObtainTask)
    (frsm : Int) (inode written : ℕ) (s : Obtaining) : Obtaining :=
  let close (result : Except HandlerError Unit) (s : Obtaining) :=
    (s.goOn id task (.closing result)).ask id (intElem (contextPrimitive svcFileClose) (Int64.ofInt frsm))
  match answer.bind fun resp => (obtainChunk resp).mapError fun _ => .other with
  | .error e => close (.error e) s
  | .ok (data, more) =>
    if maxObtainedFile < written + data.length then close (.error (fileError .insufficientSpace)) s
    else
      match full with
      | some n =>
        close (.error (fileError .insufficientSpace)) { s with disk := s.disk.append inode (data.take n) }
      | none =>
        let s := { s with disk := s.disk.append inode data }
        if more then
          (s.goOn id task (.copying frsm inode (written + data.length))).ask id
            (intElem (contextPrimitive svcFileRead) (Int64.ofInt frsm))
        else close (.ok ()) s

def fileClosed (id : ℕ) (task : ObtainTask) (result : Except HandlerError Unit) (s : Obtaining) : Obtaining :=
  match result with
  | .error e => s.goOn id task (.failed e)
  | .ok () => (s.finish id).answer id (.ok (prim (contextPrimitive svcObtainFile) []))

/-- The last part of an ObtainFile that failed: its destination is deleted, by name. -/
def cleanUp (files : FileStore) (id : ℕ) (host : Option IoKind) (task : ObtainTask) (e : HandlerError)
    (s : Obtaining) : Obtaining :=
  let s := match hosted host (files.delete s.disk task.dst) with
    | .error _ => s
    | .ok disk =>
      { s with
        disk := disk
        removals := s.removals ++ ((files.inode s.disk task.dst).map fun i => Removal.mk i task.created).toList }
  (s.finish id).answer id (.error (obtainError e))

def fileDelete (files : FileStore) (id : ℕ) (content : List UInt8) (host : Option IoKind) (s : Obtaining) :
    Obtaining :=
  match parseFileDelete content with
  | .error e => s.answer id (.error e)
  | .ok name =>
    match hosted host (files.delete s.disk name) with
    | .error e => s.answer id (.error (deleteError e))
    | .ok disk => { s with disk := disk }.answer id (.ok (prim (contextPrimitive svcFileDelete) []))

/-- The first part of a FileRename, up to the look at the new name. -/
def fileRename (files : FileStore) (id : ℕ) (content : List UInt8) (s : Obtaining) : Obtaining :=
  match parseFileRename content with
  | .error _ => s.answer id (.error (fileError .nameSyntax))
  | .ok (old, new) =>
    match files.resolveFile old, files.resolveFile new with
    | .error e, _ => s.answer id (.error (renameError e))
    | .ok _, .error e => s.answer id (.error (renameError e))
    | .ok source, .ok target =>
      if (s.disk.nodes.lookup target).isSome then s.answer id (.error (fileError .duplicateName))
      else { s with renames := s.renames.insert id { source := source, target := target } }

def fileLink (id : ℕ) (host : Option IoKind) (task : RenameTask) (s : Obtaining) : Obtaining :=
  match hosted host (s.disk.hardLink task.source task.target) with
  | .error e => { s with renames := s.renames.erase id }.answer id (.error (renameError e))
  | .ok disk => { s with disk := disk, renames := s.renames.insert id { task with linked := true } }

def fileUnlink (id : ℕ) (host : Option IoKind) (task : RenameTask) (s : Obtaining) : Obtaining :=
  match hosted host (s.disk.removeFile task.source) with
  | .error e => { s with renames := s.renames.erase id }.answer id (.error (renameError e))
  | .ok disk =>
    { s with disk := disk, renames := s.renames.erase id }.answer id (.ok (prim (contextPrimitive svcFileRename) []))

/-- One step of the filestore; a step that no request is ready for changes nothing. -/
def serve (files : FileStore) (s : Obtaining) : ObtainStep → Obtaining
  | .obtain id content => s.obtainFile files id content
  | .opened id answer host =>
    match s.obtains.lookup id with
    | some task@⟨_, .opening, _⟩ => s.fileOpened files id answer host task
    | _ => s
  | .chunk id answer full =>
    match s.obtains.lookup id with
    | some task@⟨_, .copying frsm inode written, _⟩ => s.fileRead id answer full task frsm inode written
    | _ => s
  | .closed id =>
    match s.obtains.lookup id with
    | some task@⟨_, .closing result, _⟩ => s.fileClosed id task result
    | _ => s
  | .timeout id =>
    match s.obtains.lookup id with
    | some ⟨_, .failed _, _⟩ | none => s
    | some task => s.goOn id task (.failed (fileError .accessDenied))
  | .cleanup id host =>
    match s.obtains.lookup id with
    | some task@⟨_, .failed e, _⟩ => s.cleanUp files id host task e
    | _ => s
  | .dropped id => s.finish id
  | .delete id content host => s.fileDelete files id content host
  | .rename id content => s.fileRename files id content
  | .link id host =>
    match s.renames.lookup id with
    | some task@⟨_, _, false⟩ => s.fileLink id host task
    | _ => s
  | .unlink id host =>
    match s.renames.lookup id with
    | some task@⟨_, _, true⟩ => s.fileUnlink id host task
    | _ => s

def step (files : Option FileStore) (s : Obtaining) (x : ObtainStep) : Obtaining :=
  match writableStore files with
  | .ok files => s.serve files x
  | .error e =>
    match x.request with
    | some id => s.answer id (.error e)
    | none => s

def run (files : Option FileStore) (s : Obtaining) (steps : List ObtainStep) : Obtaining :=
  steps.foldl (step files) s

end Obtaining

open Table List FileStore Except Disk

namespace Obtaining

/-- The requests that failed removed only what they had created. -/
def Clean (s : Obtaining) : Prop := ∀ r ∈ s.removals, r.created = some r.inode
deriving Decidable

/-- A destination is opened, or a name linked into place, only while no other transfer writes to it. -/
def Undisturbed (files : Option FileStore) (s : Obtaining) : ObtainStep → Prop
  | .opened id (.ok _) none =>
    ∀ store ∈ files, ∀ task ∈ s.obtains.lookup id, s.obtains.All fun other t =>
      store.resolve t.dst = store.resolve task.dst → other = id
  | .link id none =>
    ∀ store ∈ files, ∀ task ∈ s.renames.lookup id, s.obtains.All fun _ t => store.resolve t.dst ≠ some task.target
  | _ => True

instance (files : Option FileStore) (s : Obtaining) (x : ObtainStep) : Decidable (s.Undisturbed files x) := by
  unfold Undisturbed
  split <;> infer_instance

def Fewer (disk disk' : Disk) : Prop := ∀ path node, disk.nodes.lookup path = some node → disk'.nodes.lookup path = some node

/-- The ObtainFile requests in progress were in progress before, with what they had created. -/
def Continues (s s' : Obtaining) : Prop :=
  s'.obtains.All fun id t => ∃ t₀, s.obtains.lookup id = some t₀ ∧ t.dst = t₀.dst ∧ t.created = t₀.created

/-- What a step does to the names of files, the requests in progress and the history. -/
inductive Effect (files : FileStore) (s : Obtaining) : ObtainStep → Obtaining → Prop
  | kept {x : ObtainStep} {s' : Obtaining} (nodes : Fewer s'.disk s.disk) (tasks : s.Continues s')
      (removals : s'.removals = s.removals) (next : s'.nextInode = s.nextInode) : Effect files s x s'
  | began {id : ℕ} {content : List UInt8} {dst : String} {s' : Obtaining}
      (absent : ∀ path, files.resolve dst = some path → s.disk.nodes.lookup path = none)
      (nodes : s'.disk = s.disk) (tasks : s'.obtains = s.obtains.insert id { dst := dst, stage := .opening })
      (removals : s'.removals = s.removals) (next : s'.nextInode = s.nextInode) :
      Effect files s (.obtain id content) s'
  | created {id : ℕ} {resp : List UInt8} {task : ObtainTask} {stage : ObtainStage} {path : Path} {s' : Obtaining}
      (task_eq : s.obtains.lookup id = some task) (path_eq : files.resolve task.dst = some path)
      (nodes : s'.disk.nodes = s.disk.nodes.insert path (.file s.nextInode))
      (tasks : s'.obtains = s.obtains.insert id { task with created := some s.nextInode, stage := stage })
      (removals : s'.removals = s.removals) (next : s'.nextInode = s.nextInode + 1) :
      Effect files s (.opened id (.ok resp) none) s'
  | linked {id inode : ℕ} {task : RenameTask} {s' : Obtaining} (task_eq : s.renames.lookup id = some task)
      (source : s.disk.nodes.lookup task.source = some (.file inode))
      (nodes : s'.disk.nodes = s.disk.nodes.insert task.target (.file inode)) (tasks : s'.obtains = s.obtains)
      (removals : s'.removals = s.removals) (next : s'.nextInode = s.nextInode) :
      Effect files s (.link id none) s'
  | removed {id inode : ℕ} {host : Option IoKind} {task : ObtainTask} {path : Path} {s' : Obtaining}
      (task_eq : s.obtains.lookup id = some task) (path_eq : files.resolve task.dst = some path)
      (file : s.disk.nodes.lookup path = some (.file inode)) (nodes : Fewer s'.disk s.disk)
      (tasks : s.Continues s') (removals : s'.removals = s.removals ++ [⟨inode, task.created⟩])
      (next : s'.nextInode = s.nextInode) :
      Effect files s (.cleanup id host) s'

end Obtaining

variable {files : FileStore} {disk disk' : Disk} {name : String} {path : Path}

lemma resolveFile_eq_ok (h : files.resolveFile name = .ok path) : files.resolve name = some path := by
  unfold resolveFile at h
  split at h
  · cases h
  next p hp =>
  split at h
  · cases h
  · rw [hp, ok.inj h]

lemma hosted_eq_ok {α : Type} {host : Option IoKind} {r : Except IoKind α} {a : α} (h : hosted host r = .ok a) :
    host = none ∧ r = .ok a := by
  cases host with
  | none => exact ⟨rfl, h⟩
  | some e => cases h

lemma createNew_eq_ok {inode : ℕ} (h : files.createNew disk inode name = .ok disk') :
    ∃ path, files.resolve name = some path ∧ disk'.nodes = disk.nodes.insert path (.file inode) := by
  unfold FileStore.createNew at h
  rcases hpath : files.resolveFile name with e | path
  · rw [hpath] at h
    cases h
  rw [hpath] at h
  have h : disk.createNew path inode = .ok disk' := h
  refine ⟨path, resolveFile_eq_ok hpath, ?_⟩
  unfold Disk.createNew at h
  split at h
  · cases h
  · rw [← Except.ok.inj h]

section
variable (h : disk.removeFile path = .ok disk')
include h

lemma removeFile_eq_ok :
    (∃ inode, disk.nodes.lookup path = some (.file inode)) ∧ disk'.nodes = disk.nodes.erase path := by
  unfold removeFile at h
  split at h
  · cases h
  · cases h
  · next inode hfile => exact ⟨⟨inode, hfile⟩, by rw [← ok.inj h]⟩

lemma fewer_removeFile : Obtaining.Fewer disk' disk := by
  obtain ⟨-, hnds⟩ := removeFile_eq_ok h
  intro p node hp
  rw [hnds] at hp
  exact (lookup_erase_eq_some.mp hp).2

end

lemma delete_eq_ok (h : files.delete disk name = .ok disk') :
    ∃ path, files.resolve name = some path ∧ disk.removeFile path = .ok disk' := by
  unfold delete at h
  cases hpath : files.resolveFile name with
  | error e =>
    rw [hpath] at h
    cases h
  | ok path =>
    rw [hpath] at h
    exact ⟨path, resolveFile_eq_ok hpath, h⟩

lemma hardLink_eq_ok {source target : Path} (h : disk.hardLink source target = .ok disk') :
    ∃ inode, disk.nodes.lookup source = some (.file inode) ∧ disk'.nodes = disk.nodes.insert target (.file inode) := by
  unfold hardLink at h
  split at h
  · cases h
  · cases h
  · cases h
  · next inode hsource _ => exact ⟨inode, hsource, by rw [← ok.inj h]⟩

@[simp] lemma append_nodes (inode : ℕ) (data : List UInt8) : (disk.append inode data).nodes = disk.nodes := by
  unfold append
  split <;> rfl

namespace Obtaining
variable {s s' : Obtaining} {x : ObtainStep} {id : ℕ} {task : ObtainTask}

lemma Fewer.of_eq (h : disk.nodes = disk'.nodes) : Fewer disk disk' := by
  intro path node hp
  rwa [h] at hp

lemma Continues.of_eq (h : s'.obtains = s.obtains) : s.Continues s' := by
  intro id t ht
  rw [h] at ht
  exact ⟨t, ht, rfl, rfl⟩

lemma continues_goOn (htask : s.obtains.lookup id = some task) (stage : ObtainStage) :
    s.Continues (s.goOn id task stage) := by
  intro other t ht
  rcases lookup_insert_eq_some.mp ht with ⟨rfl, rfl⟩ | ⟨-, ht⟩
  · exact ⟨task, htask, rfl, rfl⟩
  · exact ⟨t, ht, rfl, rfl⟩

lemma continues_finish (s : Obtaining) (id : ℕ) : s.Continues (s.finish id) := by
  intro other t ht
  exact ⟨t, (lookup_erase_eq_some.mp ht).2, rfl, rfl⟩

lemma Effect.same (hnds : s'.disk.nodes = s.disk.nodes) (htasks : s'.obtains = s.obtains)
    (hremovals : s'.removals = s.removals) (hnx : s'.nextInode = s.nextInode) : Effect files s x s' :=
  .kept (.of_eq hnds) (.of_eq htasks) hremovals hnx

lemma effect_goOn (htask : s.obtains.lookup id = some task) (stage : ObtainStage) {asked : List (ℕ × Element)}
    (hnds : disk.nodes = s.disk.nodes) :
    Effect files s x { s.goOn id task stage with asked := asked, disk := disk } :=
  .kept (.of_eq hnds) (continues_goOn htask stage) rfl rfl

lemma effect_obtainFile (files : FileStore) (s : Obtaining) (id : ℕ) (content : List UInt8) :
    Effect files s (.obtain id content) (s.obtainFile files id content) := by
  unfold obtainFile
  split
  · exact .same rfl rfl rfl rfl
  next src dst _ =>
  split
  · exact .same rfl rfl rfl rfl
  split
  · exact .same rfl rfl rfl rfl
  next hexists =>
  have habsent (path : Path) (hpath : files.resolve dst = some path) : s.disk.nodes.lookup path = none := by
    unfold FileStore.exists at hexists
    rw [hpath] at hexists
    simpa using hexists
  exact .began habsent rfl rfl rfl rfl

section
variable (htask : s.obtains.lookup id = some task)
include htask

section
variable (answer : Except HandlerError (List UInt8))
include answer

lemma effect_fileOpened
    (host : Option IoKind) : Effect files s (.opened id answer host) (s.fileOpened files id answer host task) := by
  unfold fileOpened
  split
  · exact effect_goOn htask _ rfl
  next frsm hfrsm =>
  split
  · exact effect_goOn htask _ rfl
  next disk hdisk =>
  obtain ⟨rfl, hcreate⟩ := hosted_eq_ok hdisk
  obtain ⟨path, hpath, hnds⟩ := createNew_eq_ok hcreate
  cases answer with
  | error e => cases hfrsm
  | ok resp => exact .created htask hpath hnds rfl rfl rfl

lemma effect_fileRead (full : Option ℕ) (frsm : Int) (inode written : ℕ) :
    Effect files s (.chunk id answer full) (s.fileRead id answer full task frsm inode written) := by
  unfold fileRead
  split
  · exact effect_goOn htask _ rfl
  split
  · exact effect_goOn htask _ rfl
  split
  · exact effect_goOn htask _ (append_nodes inode _)
  split
  · exact effect_goOn htask _ (append_nodes inode _)
  · exact effect_goOn htask _ (append_nodes inode _)

end

lemma effect_fileClosed (result : Except HandlerError Unit) : Effect files s x (s.fileClosed id task result) := by
  cases result with
  | error e => exact effect_goOn htask _ rfl
  | ok _ => exact .kept (.of_eq rfl) (continues_finish s id) rfl rfl

lemma effect_cleanUp (host : Option IoKind) (e : HandlerError) :
    Effect files s (.cleanup id host) (s.cleanUp files id host task e) := by
  unfold cleanUp
  rcases hdelete : hosted host (files.delete s.disk task.dst) with e | disk
  · exact .kept (.of_eq rfl) (continues_finish s id) rfl rfl
  obtain ⟨-, hdisk⟩ := hosted_eq_ok hdelete
  obtain ⟨path, hpath, hremove⟩ := delete_eq_ok hdisk
  obtain ⟨⟨inode, hfile⟩, -⟩ := removeFile_eq_ok hremove
  have hinode : files.inode s.disk task.dst = some inode := by
    unfold FileStore.inode
    rw [hpath, Option.bind_some, hfile]
  refine .removed htask hpath hfile (fewer_removeFile hremove) (continues_finish s id) ?_ rfl
  rw [hinode]
  rfl

end

lemma effect_fileDelete (content : List UInt8) (host : Option IoKind) :
    Effect files s x (s.fileDelete files id content host) := by
  unfold fileDelete
  split
  · exact .same rfl rfl rfl rfl
  split
  · exact .same rfl rfl rfl rfl
  next disk hdisk =>
    obtain ⟨path, -, hremove⟩ := delete_eq_ok (hosted_eq_ok hdisk).2
    exact .kept (fewer_removeFile hremove) (.of_eq rfl) rfl rfl

lemma effect_fileRename (content : List UInt8) : Effect files s x (s.fileRename files id content) := by
  unfold fileRename
  split
  · exact .same rfl rfl rfl rfl
  split
  · exact .same rfl rfl rfl rfl
  · exact .same rfl rfl rfl rfl
  split
  · exact .same rfl rfl rfl rfl
  · exact .same rfl rfl rfl rfl

lemma effect_fileLink {task : RenameTask} (htask : s.renames.lookup id = some task) (host : Option IoKind) :
    Effect files s (.link id host) (s.fileLink id host task) := by
  unfold fileLink
  split
  · exact .same rfl rfl rfl rfl
  next disk hdisk =>
  obtain ⟨rfl, hlink⟩ := hosted_eq_ok hdisk
  obtain ⟨inode, hsource, hnds⟩ := hardLink_eq_ok hlink
  exact .linked htask hsource hnds rfl rfl rfl

lemma effect_fileUnlink {task : RenameTask} (host : Option IoKind) :
    Effect files s x (s.fileUnlink id host task) := by
  unfold fileUnlink
  split
  · exact .same rfl rfl rfl rfl
  · next disk hdisk => exact .kept (fewer_removeFile (hosted_eq_ok hdisk).2) (.of_eq rfl) rfl rfl

lemma effect_serve (files : FileStore) (s : Obtaining) (x : ObtainStep) : Effect files s x (s.serve files x) := by
  have hno : Effect files s x s := .same rfl rfl rfl rfl
  cases x with
  | obtain id content => exact effect_obtainFile files s id content
  | opened id answer host =>
    dsimp only [serve]
    split
    · next htask => exact effect_fileOpened htask answer host
    · exact hno
  | chunk id answer full =>
    dsimp only [serve]
    split
    · next htask => exact effect_fileRead htask answer full _ _ _
    · exact hno
  | closed id =>
    dsimp only [serve]
    split
    · next htask => exact effect_fileClosed htask _
    · exact hno
  | timeout id =>
    dsimp only [serve]
    split
    · exact hno
    · exact hno
    · next htask => exact effect_goOn htask _ rfl
  | cleanup id host =>
    dsimp only [serve]
    split
    · next htask => exact effect_cleanUp htask host _
    · exact hno
  | dropped id => exact .kept (.of_eq rfl) (continues_finish s id) rfl rfl
  | delete id content host => exact effect_fileDelete content host
  | rename id content => exact effect_fileRename content
  | link id host =>
    dsimp only [serve]
    split
    · next htask => exact effect_fileLink htask host
    · exact hno
  | unlink id host =>
    dsimp only [serve]
    split
    · exact effect_fileUnlink host
    · exact hno

/-- Whatever the destination of a request names is what the request created. -/
def Owns (files : FileStore) (disk : Disk) (task : ObtainTask) : Prop :=
  ∀ path node, files.resolve task.dst = some path → disk.nodes.lookup path = some node →
    ∃ inode, node = .file inode ∧ task.created = some inode

/-- What holds along a run: the history is clean, and each request in progress can only remove what it
created. -/
structure Tidy (files : FileStore) (s : Obtaining) : Prop where
  clean : s.Clean
  owned : s.obtains.All fun _ task => Owns files s.disk task

lemma Clean.of_eq (h : s.Clean) (heq : s'.removals = s.removals) : s'.Clean := by
  intro r hr
  rw [heq] at hr
  exact h r hr

lemma Owns.mono {task' : ObtainTask} (h : Owns files disk task) (hfewer : Fewer disk' disk)
    (hdst : task'.dst = task.dst) (hcreated : task'.created = task.created) : Owns files disk' task' := by
  intro path node hpath hnd
  rw [hdst] at hpath
  rw [hcreated]
  exact h path node hpath (hfewer path node hnd)

lemma owned_continues (h : s.obtains.All fun _ task => Owns files s.disk task) (hfewer : Fewer s'.disk s.disk)
    (htasks : s.Continues s') : s'.obtains.All fun _ task => Owns files s'.disk task := by
  intro id t ht
  obtain ⟨t0, ht0, hdst, hcreated⟩ := htasks id t ht
  exact (h id t0 ht0).mono hfewer hdst hcreated

lemma Owns.insert {node : Node} (h : Owns files disk task)
    (hnds : disk'.nodes = disk.nodes.insert path node) (hne : files.resolve task.dst ≠ some path) :
    Owns files disk' task := by
  intro p n hp hn
  have hpath : p ≠ path := by
    intro heq
    exact hne (heq ▸ hp)
  rw [hnds, AList.lookup_insert_ne hpath] at hn
  exact h p n hp hn

lemma Tidy.effect (h : s.Tidy files) (hx : Effect files s x s') (hu : s.Undisturbed (some files) x) :
    s'.Tidy files := by
  cases hx with
  | kept nodes tasks removals next =>
    exact ⟨h.clean.of_eq removals, owned_continues h.owned nodes tasks⟩
  | began absent nodes tasks removals next =>
    refine ⟨h.clean.of_eq removals, ?_⟩
    rw [nodes, tasks]
    apply h.owned.insert
    intro path node hpath hnd
    rw [absent path hpath] at hnd
    cases hnd
  | @created id resp task stage path s' task_eq path_eq nodes tasks removals next =>
    refine ⟨h.clean.of_eq removals, ?_⟩
    intro other t ht
    rw [tasks] at ht
    rcases lookup_insert_eq_some.mp ht with ⟨rfl, rfl⟩ | ⟨heq, ht⟩
    · intro p node hp hnd
      obtain rfl : path = p := Option.mem_unique path_eq hp
      rw [nodes, AList.lookup_insert] at hnd
      exact ⟨_, (Option.some.inj hnd).symm, rfl⟩
    apply (h.owned other t ht).insert nodes
    intro hpath
    -- Another request in progress has this destination.
    exact heq (hu files rfl task task_eq other t ht (hpath.trans path_eq.symm))
  | @linked id inode task s' task_eq source nodes tasks removals next =>
    refine ⟨h.clean.of_eq removals, ?_⟩
    rw [tasks]
    intro other t ht
    exact (h.owned other t ht).insert nodes (hu files rfl task task_eq other t ht)
  | @removed id inode host task path s' task_eq path_eq file nodes tasks removals next =>
    refine ⟨?_, owned_continues h.owned nodes tasks⟩
    intro r hr
    rw [removals, mem_append, mem_singleton] at hr
    rcases hr with hr | rfl
    · exact h.clean r hr
    obtain ⟨i, hi, hcreated⟩ := h.owned id task task_eq path _ path_eq file
    cases hi
    exact hcreated

/-- Every file has a number below the next one, so that a new file is known by its number. -/
def Numbered (s : Obtaining) : Prop := s.disk.nodes.All fun _ node => ∀ inode, node = .file inode → inode < s.nextInode

lemma Numbered.effect (h : s.Numbered) (hx : Effect files s x s') : s'.Numbered := by
  have hfewer (hnds : Fewer s'.disk s.disk) (hnx : s'.nextInode = s.nextInode) : s'.Numbered := by
    intro path node hnd inode hinode
    rw [hnx]
    exact h path node (hnds path node hnd) inode hinode
  cases hx with
  | kept nodes _ _ next | removed _ _ _ nodes _ _ next => exact hfewer nodes next
  | began absent nodes tasks removals next => exact hfewer (.of_eq (congrArg Disk.nodes nodes)) next
  | created task_eq path_eq nodes tasks removals next =>
    unfold Numbered
    rw [nodes, next]
    apply All.insert
    · intro path node hnd inode hinode
      have hlt := h path node hnd inode hinode
      omega
    intro inode hinode
    cases hinode
    omega
  | linked task_eq source nodes tasks removals next =>
    unfold Numbered
    rw [nodes, next]
    apply All.insert h
    intro inode hinode
    cases hinode
    exact h _ _ source _ rfl

def start (disk : Disk) : Obtaining :=
  { disk := disk
    nextInode := disk.nodes.entries.foldr (fun e n => match e.2 with | .file inode => max n (inode + 1) | .dir => n) 0 }

lemma numbered_start (disk : Disk) : (start disk).Numbered := by
  apply all_of_entries
  unfold start
  generalize disk.nodes.entries = entries
  induction entries with
  | nil =>
    intro e he
    cases he
  | cons d rest ih =>
    intro e he inode hinode
    simp only [foldr_cons]
    rcases mem_cons.mp he with rfl | hrs
    · rw [hinode]
      exact lt_max_of_lt_right (Nat.lt_succ_self inode)
    have hlt := ih e hrs inode hinode
    cases d.2 with
    | dir => exact hlt
    | file other => exact lt_max_of_lt_left hlt

lemma effect_refused (files : FileStore) (s : Obtaining) (x : ObtainStep) (e : HandlerError) :
    Effect files s x (match x.request with | some id => s.answer id (.error e) | none => s) := by
  cases x.request with
  | none | some => exact .same rfl rfl rfl rfl

lemma effect_step (store : FileStore) (s : Obtaining) (x : ObtainStep) :
    Effect store s x (s.step (some store) x) := by
  dsimp only [step, writableStore]
  cases store.writable with
  | true => exact effect_serve store s x
  | false => exact effect_refused store s x _

lemma effect_step_none (files : FileStore) (s : Obtaining) (x : ObtainStep) : Effect files s x (s.step none x) :=
  effect_refused files s x _

lemma numbered_run (files : Option FileStore) (disk : Disk) (steps : List ObtainStep) :
    (run files (start disk) steps).Numbered := by
  refine Runs.invariant Numbered (fun s x h => ?_) (numbered_start disk) steps
  cases files with
  | none => exact h.effect (effect_step_none {} s x)
  | some store => exact h.effect (effect_step store s x)

def setFile (src dst : String) : List UInt8 :=
  Element.encodeAll
    [ cons (contextConstructed 1) [prim tagGraphicString (Text.octets src)],
      cons (contextConstructed 2) [prim tagGraphicString (Text.octets dst)] ]

def renameFile (old new : String) : List UInt8 :=
  Element.encodeAll
    [ cons (contextConstructed 0) [prim tagGraphicString (Text.octets old)],
      cons (contextConstructed 1) [prim tagGraphicString (Text.octets new)] ]

def openAnswer : List UInt8 := (cons (contextConstructed svcFileOpen) [intElem (contextPrimitive 0) 7]).encode

def lastChunk : List UInt8 := (fileReadElement [1, 2, 3] false).encode

def failedOnce : List ObtainStep :=
  [ .obtain 1 (setFile "a" "b"), .opened 1 (.ok openAnswer) none, .chunk 1 (.error .other) none, .closed 1,
    .cleanup 1 none, .rename 2 (renameFile "settings.cid" "b"), .link 2 none, .unlink 2 none ]

def setTwice : List ObtainStep :=
  [ .obtain 1 (setFile "a" "b"), .obtain 2 (setFile "a" "b"), .opened 1 (.ok openAnswer) none,
    .opened 2 (.ok openAnswer) none, .closed 2, .cleanup 2 none, .chunk 1 (.ok lastChunk) none, .closed 1 ]

/-- In every run in which no file gets the name of a destination in progress of another request, the requests
that fail remove only what they created. -/
theorem failed_obtain_removes_own (files : Option FileStore) (disk : Disk) (steps : List ObtainStep)
    (hm : Runs.Admitted (step files) (Undisturbed files) (start disk) steps) :
    (run files (start disk) steps).Clean ∧ (run files (start disk) steps).Numbered := by
  refine ⟨?_, numbered_run files disk steps⟩
  have hcln : (start disk).Clean := by
    intro r hr
    cases hr
  cases files with
  | none =>
    have hstep (s : Obtaining) (x : ObtainStep) (h : s.Clean) : (s.step none x).Clean := by
      unfold step
      cases x.request with
      | none => exact h
      | some id => exact h
    exact Runs.invariant Clean hstep hcln steps
  | some store =>
    have htidy := Runs.induction_admitted (Tidy store) (fun s x h hu => h.effect (effect_step store s x) hu)
        ⟨hcln, all_empty⟩ hm
    exact htidy.clean

/-- A failed request removes the file it created. -/
theorem failed_obtain_removes_one : (run (some {}) (start Filing.sampleDisk) failedOnce).removals = [⟨2, some 2⟩] ∧
      (run (some {}) (start Filing.sampleDisk) failedOnce).Clean :=
  ⟨by decide +kernel, (failed_obtain_removes_own (some {}) Filing.sampleDisk failedOnce (by decide +kernel)).1⟩

/-- The second request removes the file of the first, which is then answered as written. -/
theorem refused_obtain_removes_other :
    (run (some {}) (start {}) setTwice).removals = [⟨0, none⟩] ∧ ¬ (run (some {}) (start {}) setTwice).Clean ∧
      (run (some {}) (start {}) setTwice).disk.nodes.entries = [] ∧
      (run (some {}) (start {}) setTwice).answers.map (fun a => (a.1, a.2.isOk)) = [(2, false), (1, true)] := by
  decide +kernel

end Obtaining
end Iec61850.Server
