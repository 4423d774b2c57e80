import Iec61850.CommandSteps
import Iec61850.FileTransfers

/-! What associations hold besides their subscriptions. -/
namespace Iec61850.Server
open Asn1 Mms List AList Table

/-- The associations and what they hold. `owners` says which association opened a file-read state machine; it
is kept for reasoning. -/
structure Holdings where
  nextConn : ConnId := 1
  conns : List ConnId := []
  controls : Controls
  disk : Disk := {}
  files : FileStoreState := {}
  owners : Table Int32 ConnId := ∅

inductive HoldingStep where
  | associate
  /-- A step of a control command, other than the end of an association. -/
  | control (x : ControlStep)
  | file (conn : ConnId) (maxPdu : ℕ) (req : Request)
  | disk (d : Disk)
  /-- An association has ended, in whichever way, and what it held is released. -/
  | leave (conn : ConnId)

def ControlStep.ends : ControlStep → Bool
  | .endAssociation _ => true
  | _ => false

namespace Holdings

def Idle (s : Holdings) (conn : ConnId) : Prop := conn ∈ s.conns ∧ s.controls.commands.lookup conn = none
deriving Decidable

def owned (s : Holdings) (conn : ConnId) (req : Request) (resp : Except HandlerError Element) : Table Int32 ConnId :=
  match resp with
  | .error _ => s.owners
  | .ok _ =>
    if req.service = svcFileOpen then s.owners.insert s.files.next conn
    else if req.service = svcFileClose then s.owners.erase (frsmOf req.content)
    else s.owners

def request (files : Option FileStore) (others : Request → Except HandlerError Element) (s : Holdings)
    (conn : ConnId) (maxPdu : ℕ) (req : Request) : Holdings :=
  let (resp, st) := fileService files s.disk others maxPdu req s.files
  { s with files := st, owners := s.owned conn req resp }

def release (s : Holdings) (conn : ConnId) : Holdings :=
  { s with
    conns := s.conns.filter fun c => c ≠ conn
    controls := s.controls.step (.endAssociation conn) }

def step (files : Option FileStore) (others : Request → Except HandlerError Element) (s : Holdings) :
    HoldingStep → Holdings
  | .associate => { s with nextConn := s.nextConn + 1, conns := s.nextConn :: s.conns }
  | .control x =>
    if x.ends = false ∧ ∀ conn ∈ x.actor, conn ∈ s.conns then { s with controls := s.controls.step x } else s
  | .file conn maxPdu req => if s.Idle conn then s.request files others conn maxPdu req else s
  | .disk d => { s with disk := d }
  | .leave conn => if s.Idle conn then s.release conn else s

def run (files : Option FileStore) (others : Request → Except HandlerError Element) (s : Holdings)
    (steps : List HoldingStep) : Holdings := steps.foldl (step files others) s

/-- Every open file has an owner that has not ended. -/
def Owned (conns : List ConnId) (st : FileStoreState) (owners : Table Int32 ConnId) : Prop :=
  st.opened.All fun id _ => ∃ conn, owners.lookup id = some conn ∧ conn ∈ conns

/-- Each reservation and each open file is that of an association that has not ended; there are no more open
files than those have opened and not closed. -/
structure Held (s : Holdings) : Prop where
  reservations : s.controls.selections.All fun _ sel => sel.conn ∈ s.conns
  opened : Owned s.conns s.files s.owners
  bound : s.files.opened.entries.length ≤ (s.owners.entries.filter fun e => e.2 ∈ s.conns).length

def Closed (s : Holdings) : HoldingStep → Prop
  | .leave conn => s.Idle conn → s.files.opened.All fun id _ => s.owners.lookup id ≠ some conn
  | _ => True

variable {files : Option FileStore} {others : Request → Except HandlerError Element} {s : Holdings}
  {conn : ConnId} {maxPdu : ℕ} {req : Request}

lemma held_of_opened (hsel : s.controls.selections.All fun _ sel => sel.conn ∈ s.conns)
    (hopened : Owned s.conns s.files s.owners) : s.Held := by
  refine ⟨hsel, hopened, ?_⟩
  let mine := s.owners.entries.filter fun e => e.2 ∈ s.conns
  have hsubset : s.files.opened.keys ⊆ mine.map Sigma.fst := by
    intro id hid
    obtain ⟨f, hf⟩ := Option.isSome_iff_exists.mp (lookup_isSome.mpr hid)
    obtain ⟨conn, how, hop⟩ := hopened id f hf
    refine mem_map.mpr ⟨⟨id, conn⟩, ?_, rfl⟩
    exact mem_filter.mpr ⟨mem_lookup_iff.mp how, decide_eq_true hop⟩
  have hle := (subperm_of_subset (keys_nodup s.files.opened) hsubset).length_le
  calc s.files.opened.entries.length
      = s.files.opened.keys.length := (length_map _).symm
    _ ≤ (mine.map Sigma.fst).length := hle
    _ = mine.length := length_map _

lemma held_associate (h : s.Held) : Held { s with nextConn := s.nextConn + 1, conns := s.nextConn :: s.conns } := by
  apply held_of_opened
  · intro r sel hsel
    exact mem_cons_of_mem _ (h.reservations r sel hsel)
  intro id f hf
  obtain ⟨conn, how, hop⟩ := h.opened id f hf
  exact ⟨conn, how, mem_cons_of_mem _ hop⟩

lemma reservations_control {x : ControlStep} (h : s.controls.selections.All fun _ sel => sel.conn ∈ s.conns)
    (hactor : ∀ conn ∈ x.actor, conn ∈ s.conns) :
    (s.controls.step x).selections.All fun _ sel => sel.conn ∈ s.conns := by
  rcases Controls.turn_of_step s.controls x with hsm | hturn
  · rw [hsm]
    exact h
  generalize s.controls.step x = c' at hturn
  cases hturn with
  | reserve sel now command select own =>
    apply h.insert
    rw [own]
    exact hactor _ rfl
  | clear command stage =>
    intro r sel hsel
    exact h r sel (lookup_erase_eq_some.mp hsel).2
  | leave idle =>
    intro r sel hsel
    exact h r sel (Selections.lookup_releaseConn.mp hsel).1
  | _ => exact h

variable {conns : List ConnId} {id : Int32} {owners : Table Int32 ConnId} {st : FileStoreState}

lemma Owned.insert {next : Int32} {f : OpenFile} (h : Owned conns st owners) (hconn : conn ∈ conns) :
    Owned conns { next := next, opened := st.opened.insert id f } (owners.insert id conn) := by
  intro id' f' hf
  rcases lookup_insert_eq_some.mp hf with ⟨rfl, -⟩ | ⟨hid, hf⟩
  · exact ⟨conn, lookup_insert _, hconn⟩
  · obtain ⟨c, how, hop⟩ := h id' f' hf
    exact ⟨c, by rw [lookup_insert_ne hid, how], hop⟩

lemma Owned.erase (h : Owned conns st owners) : Owned conns (FileStore.closeFile id st) (owners.erase id) := by
  intro id' f' hf
  obtain ⟨hid, hf⟩ := lookup_erase_eq_some.mp hf
  obtain ⟨c, how, hop⟩ := h id' f' hf
  exact ⟨c, by rw [lookup_erase_ne hid, how], hop⟩

lemma owned_request (h : Owned s.conns s.files s.owners) (hconn : conn ∈ s.conns) :
    Owned s.conns (s.request files others conn maxPdu req).files (s.request files others conn maxPdu req).owners := by
  rw [request]
  dsimp only
  by_cases hop : req.service = svcFileOpen
  · rcases fileService_open files s.disk others maxPdu s.files hop with ⟨e, he⟩ | ⟨data, modified, next, -, hok⟩
    · rw [he]
      exact h
    rw [hok, owned]
    rw [if_pos hop]
    exact h.insert hconn
  by_cases hcls : req.service = svcFileClose
  · cases files with
    | none => exact h
    | some store =>
      have hrd : req.service ≠ svcFileRead := by
        rw [hcls]
        decide
      have hok : fileService (some store) s.disk others maxPdu req s.files =
          (.ok (prim (contextPrimitive svcFileClose) []), FileStore.closeFile (frsmOf req.content) s.files) := by
        rw [fileService, if_neg hop, if_neg hrd, if_pos hcls]
      rw [hok, owned, if_neg hop, if_pos hcls]
      exact h.erase
  have howners (resp : Except HandlerError Element) : s.owned conn req resp = s.owners := by
    cases resp with
    | error e => rfl
    | ok el =>
      rw [owned, if_neg hop, if_neg hcls]
  rw [howners]
  by_cases hrd : req.service = svcFileRead
  · rcases fileService_read files s.disk others maxPdu s.files hrd with ⟨e, he⟩ | ⟨f, hf, hok⟩
    · rw [he]
      exact h
    · rw [hok]
      exact Table.All.insert h (h _ f hf)
  · rw [fileService_other files s.disk others maxPdu s.files hop hrd hcls]
    exact h

lemma held_release (h : s.Held) (hidle : s.Idle conn) :
    (s.release conn).Held ↔ s.files.opened.All fun id _ => s.owners.lookup id ≠ some conn := by
  constructor
  · intro h' id f hf how
    obtain ⟨c, hc, hm⟩ := h'.opened id f hf
    have heq : c = conn := Option.mem_unique hc how
    subst heq
    simp [release] at hm
  intro hcl
  apply held_of_opened
  · intro r sel hsel
    have hstep : s.controls.step (.endAssociation conn) =
        { s.controls with selections := s.controls.selections.releaseConn conn } := by
      rw [Controls.step, hidle.2]
    rw [release, hstep] at hsel
    obtain ⟨hsel, hne⟩ := Selections.lookup_releaseConn.mp hsel
    exact mem_filter.mpr ⟨h.reservations r sel hsel, decide_eq_true hne⟩
  intro id f hf
  obtain ⟨c, how, hop⟩ := h.opened id f hf
  refine ⟨c, how, mem_filter.mpr ⟨hop, decide_eq_true ?_⟩⟩
  intro heq
  subst heq
  exact hcl id f hf how

lemma held_step_iff (h : s.Held) (x : HoldingStep) : (s.step files others x).Held ↔ s.Closed x := by
  cases x with
  | associate => exact iff_of_true (held_associate h) trivial
  | control x =>
    apply iff_of_true ?_ trivial
    rw [step]
    split
    · next hactor => exact held_of_opened (reservations_control h.reservations hactor.2) h.opened
    · exact h
  | file conn maxPdu req =>
    apply iff_of_true ?_ trivial
    rw [step]
    split
    · next hidle => exact held_of_opened h.reservations (owned_request h.opened hidle.1)
    · exact h
  | disk d => exact iff_of_true (held_of_opened h.reservations h.opened) trivial
  | leave conn =>
    rw [step, Closed]
    split
    next hidle =>
      rw [held_release h hidle]
      exact ⟨fun hcl _ => hcl, fun hcl => hcl hidle⟩
    · next hbusy => exact iff_of_true h fun hidle => absurd hidle hbusy

def start (m : Model) (clock : Instant) (disk : Disk) : Holdings := { controls := .start m clock, disk := disk }

lemma held_start (m : Model) (clock : Instant) (disk : Disk) : (start m clock disk).Held :=
  held_of_opened all_empty all_empty

/-- Reservations and open files are those of associations that have not ended, in every state of a run,
exactly if no association ends that has a file open. -/
theorem holdings_released_iff (files : Option FileStore) (others : Request → Except HandlerError Element)
    (m : Model) (clock : Instant) (disk : Disk) (steps : List HoldingStep) :
    (∀ part, part <+: steps → (run files others (start m clock disk) part).Held) ↔
      Runs.Admitted (step files others) Closed (start m clock disk) steps :=
  Runs.forall_prefix_iff Held (fun _ x h => held_step_iff h x) (held_start m clock disk)

def leftOpen : List HoldingStep := [.associate, .file 1 0 (Filing.openRequest 0), .leave 1]

/-- The file is still open when there is no association any more. -/
theorem file_left_open :
    let s := run (some {}) (fun _ => .error .other) (start {} 0 Filing.sampleDisk) leftOpen
    s.conns = [] ∧ s.files.opened.lookup 1 = some { data := [1, 2, 3, 4, 5], pos := 0 } ∧ ¬ s.Held := by
  intro s
  have hfile : s.files.opened.lookup 1 = some { data := [1, 2, 3, 4, 5], pos := 0 } := by decide +kernel
  have hconns : s.conns = [] := by decide +kernel
  refine ⟨hconns, hfile, ?_⟩
  intro h
  obtain ⟨conn, -, hm⟩ := h.opened 1 _ hfile
  rw [hconns] at hm
  cases hm

end Holdings
end Iec61850.Server
