import Iec61850.Runs
import Iec61850.ServerState

/-! Control commands of any number of associations at the same time, and reservations under them. -/
namespace Iec61850.Server
open Mms Selections

inductive Stage where
  /-- The time of the command is taken. -/
  | arrived
  /-- The configuration of the object is read. -/
  | informed
  /-- The reservations are checked, and the application is to decide. -/
  | checked
  /-- The command is accepted, and its effect is to follow. -/
  | accepted
  /-- The reservation is to be released. -/
  | clearing
deriving DecidableEq

/-- A command in progress. `selection`, kept for reasoning, is the serial of the reservation that admitted an
operate. -/
structure Command where
  phase : Phase
  ctx : ControlCtx
  now : Instant
  declared : Option CtlModel := none
  sboTimeout : ℕ := 0
  stage : Stage := .arrived
  selection : Option ℕ := none

def Command.ctlModel (c : Command) : CtlModel := c.declared.getD .directNormal

/-- The controls of a server. Kept for reasoning are `issued`, all reservations ever made, and `accepted`, the
serials of those whose operates the application accepted. -/
structure Controls where
  model : Model
  clock : Instant
  selections : Selections := ∅
  commands : Table ConnId Command := ∅
  issued : List (ObjectReference × Selection) := []
  accepted : List ℕ := []

inductive ControlStep where
  | advance (d : ℕ)
  | change (m : Model)
  | write (conn : ConnId) (domain item : String) (v : Value) (peer : Option IpAddr)
  | readSbo (conn : ConnId) (domain item : String)
  | inform (conn : ConnId)
  | check (conn : ConnId)
  /-- The application decides; with no handler for the object everything is accepted. -/
  | application (conn : ConnId) (answer : Option AddCause)
  | reserve (conn : ConnId)
  | apply (conn : ConnId)
  | clear (conn : ConnId)
  | endAssociation (conn : ConnId)

/-- The start of a write to a control attribute, up to the time it takes. -/
def beginWrite (m : Model) (clock : Instant) (conn : ConnId) (domain item : String) (v : Value)
    (peer : Option IpAddr) : Except DataAccessError Command :=
  match splitControl item with
  | none => .error .objectAccessUnsupported
  | some (base, phase) =>
    let reference := controlRef domain base
    if phase = .sbo then .error .objectAccessDenied
    -- The control structure is written whole.
    else if !Text.endsWith item ("$" ++ phase.name) || v.typeOf ≠ .struct then .error .typeInconsistent
    else if (m.attribute (reference.child phase.name) .co).isNone then .error .objectNonExistent
    else
      .ok
        { phase := phase
          ctx := { decodeOper reference v conn peer with select := phase == .sbow }
          now := clock }

/-- The start of a read of `SBO`: only an object of normal security is selected this way. -/
def beginSbo (m : Model) (clock : Instant) (conn : ConnId) (domain item : String) : Option Command :=
  match splitControl item with
  | some (base, .sbo) =>
    let reference := controlRef domain base
    let declared := declaredCtlModel m reference
    if declared.any (· ≠ .sboNormal) then none
    else
      some
        { phase := .sbo
          ctx := { reference := reference, select := true, conn := conn, peer := none }
          now := clock
          declared := declared
          sboTimeout := cfMillis m reference "sboTimeout"
          stage := .accepted }
  | _ => none

def Command.refusal (c : Command) : AddCause :=
  if c.declared = some .statusOnly then AddCause.notSupported
  -- Select with value belongs to enhanced security only.
  else if c.phase = .sbow ∧ c.declared.any (· ≠ .sboEnhanced) = true then AddCause.notSupported
  else if c.ctx.test = true ∧ c.declared.any CtlModel.isEnhanced = true then AddCause.testNotAllowed
  else if maxOrIdentLen < c.ctx.orIdentLen then AddCause.inconsistentParameters
  else AddCause.none

def Command.check (c : Command) (sels : Selections) (conn : ConnId) : AddCause :=
  match c.phase with
  | .cancel => sels.checkCancel c.ctx.reference conn c.ctx.ctlNum c.now
  | .oper =>
    if c.ctlModel.hasSelect then sels.checkOperate c.ctx.reference conn c.ctx.ctlNum c.now
    else AddCause.none
  | _ => AddCause.none

def Command.request (c : Command) (clock : Instant) : Option UInt8 × ℕ × Instant :=
  let timeout := if c.sboTimeout = 0 then selectTimeout else c.sboTimeout
  match c.phase with
  -- A read of `SBO` takes the time under the lock of the table.
  | .sbo => (none, timeout, clock)
  | _ => (some c.ctx.ctlNum, timeout, c.now)

namespace Controls

def start (m : Model) (clock : Instant) : Controls := { model := m, clock := clock }

def proceed (s : Controls) (conn : ConnId) (c : Command) : Controls :=
  { s with commands := s.commands.insert conn c }

def finish (s : Controls) (conn : ConnId) : Controls := { s with commands := s.commands.erase conn }

def atStage (s : Controls) (conn : ConnId) (stage : Stage) : Option Command :=
  (s.commands.lookup conn).filter fun c => c.stage == stage

def inform (s : Controls) (conn : ConnId) (c : Command) : Controls :=
  let c := { c with
    declared := declaredCtlModel s.model c.ctx.reference
    sboTimeout := cfMillis s.model c.ctx.reference "sboTimeout"
    stage := .informed }
  if c.refusal = AddCause.none then s.proceed conn c else s.finish conn

def check (s : Controls) (conn : ConnId) (c : Command) : Controls :=
  if c.check s.selections conn ≠ AddCause.none then s.finish conn
  else if c.phase = .cancel then s.proceed conn { c with stage := .clearing }
  else
    let selection :=
      if c.phase = .oper ∧ c.ctlModel.hasSelect = true then
        (s.selections.lookup c.ctx.reference).map Selection.serial
      else none
    s.proceed conn { c with stage := .checked, selection := selection }

def application (s : Controls) (conn : ConnId) (c : Command) (answer : Option AddCause) : Controls :=
  if answer.getD AddCause.none ≠ AddCause.none then s.finish conn
  else
    let s := s.proceed conn { c with stage := .accepted }
    if c.phase = .oper then { s with accepted := s.accepted ++ c.selection.toList } else s

def reserve (s : Controls) (conn : ConnId) (c : Command) : Controls :=
  let (ctlNum, timeout, now) := c.request s.clock
  let s := s.finish conn
  let serial := s.issued.length
  match s.selections.reserve c.ctx.reference conn ctlNum timeout now serial with
  | none => s
  | some sels =>
    let sel : Selection := { conn := conn, expiry := now + timeout, ctlNum := ctlNum, serial := serial }
    { s with selections := sels, issued := s.issued ++ [(c.ctx.reference, sel)] }

def apply (s : Controls) (conn : ConnId) (c : Command) : Controls :=
  let tx := applyControl { model := s.model } c.ctx.reference c.ctx.value
  { s.proceed conn { c with stage := .clearing } with model := tx.model }

def clear (s : Controls) (conn : ConnId) (c : Command) : Controls :=
  { s.finish conn with selections := s.selections.clear c.ctx.reference }

def step (s : Controls) : ControlStep → Controls
  | .advance d => { s with clock := s.clock + d }
  | .change m => { s with model := m }
  | .write conn domain item v peer =>
    match s.commands.lookup conn, beginWrite s.model s.clock conn domain item v peer with
    | none, .ok c => s.proceed conn c
    | _, _ => s
  | .readSbo conn domain item =>
    match s.commands.lookup conn, beginSbo s.model s.clock conn domain item with
    | none, some c => s.proceed conn c
    | _, _ => s
  | .inform conn => ((s.atStage conn .arrived).map (s.inform conn)).getD s
  | .check conn => ((s.atStage conn .informed).map (s.check conn)).getD s
  | .application conn answer => ((s.atStage conn .checked).map fun c => s.application conn c answer).getD s
  | .reserve conn =>
    (((s.atStage conn .accepted).filter fun c => c.phase == .sbow || c.phase == .sbo).map (s.reserve conn)).getD s
  | .apply conn => (((s.atStage conn .accepted).filter fun c => c.phase == .oper).map (s.apply conn)).getD s
  | .clear conn => ((s.atStage conn .clearing).map (s.clear conn)).getD s
  | .endAssociation conn =>
    match s.commands.lookup conn with
    | some _ => s
    | none => { s with selections := s.selections.releaseConn conn }

def run (s : Controls) (steps : List ControlStep) : Controls := steps.foldl step s

inductive Turn (s : Controls) : ControlStep → Controls → Prop where
  | advance (d : ℕ) : Turn s (.advance d) { s with clock := s.clock + d }
  | change (m : Model) : Turn s (.change m) { s with model := m }
  | start {x : ControlStep} {conn : ConnId} {c : Command} (idle : s.commands.lookup conn = none)
      (now : c.now = s.clock) (fresh : c.selection = none)
      (stage : c.stage = .arrived ∨ c.stage = .accepted ∧ c.phase = .sbo) :
      Turn s x (s.proceed conn c)
  | refuse {x : ControlStep} {conn : ConnId} {c : Command} (command : s.commands.lookup conn = some c)
      (stage : c.stage = .arrived ∨ c.stage = .informed ∨ c.stage = .checked ∨
        c.stage = .accepted ∧ c.phase ≠ .oper) : Turn s x (s.finish conn)
  | inform {conn : ConnId} {c : Command} (command : s.commands.lookup conn = some c)
      (stage : c.stage = .arrived) (declared : Option CtlModel) (sboTimeout : ℕ) :
      Turn s (.inform conn)
        (s.proceed conn { c with declared := declared, sboTimeout := sboTimeout, stage := .informed })
  | pass {conn : ConnId} {c : Command} (command : s.commands.lookup conn = some c)
      (stage : c.stage = .informed) (direct : c.phase = .oper → c.ctlModel.hasSelect = false) :
      Turn s (.check conn) (s.proceed conn { c with stage := .checked, selection := none })
  | grant {conn : ConnId} {c : Command} {sel : Selection}
      (command : s.commands.lookup conn = some c) (stage : c.stage = .informed)
      (operate : c.phase = .oper) (reserved : s.selections.lookup c.ctx.reference = some sel)
      (own : sel.conn = conn) (live : c.now < sel.expiry)
      (number : ∀ n, sel.ctlNum = some n → n = c.ctx.ctlNum) :
      Turn s (.check conn) (s.proceed conn { c with stage := .checked, selection := some sel.serial })
  | cancel {conn : ConnId} {c : Command} (command : s.commands.lookup conn = some c)
      (stage : c.stage = .informed)
      (free : ∀ sel, s.selections.lookup c.ctx.reference = some sel → sel.conn = conn ∨ sel.expiry ≤ c.now) :
      Turn s (.check conn) (s.proceed conn { c with stage := .clearing })
  | accept {conn : ConnId} {c : Command} {answer : Option AddCause}
      (command : s.commands.lookup conn = some c) (stage : c.stage = .checked) :
      Turn s (.application conn answer) { s.proceed conn { c with stage := .accepted } with
        accepted := s.accepted ++ if c.phase = .oper then c.selection.toList else [] }
  | reserve {conn : ConnId} {c : Command} (sel : Selection) (now : Instant)
      (command : s.commands.lookup conn = some c) (select : c.phase ≠ .oper) (own : sel.conn = conn)
      (serial : sel.serial = s.issued.length) (time : now = c.now ∨ now = s.clock)
      (free : ∀ sel', s.selections.lookup c.ctx.reference = some sel' → sel'.conn = conn ∨ sel'.expiry ≤ now) :
      Turn s (.reserve conn) { s.finish conn with
        selections := s.selections.insert c.ctx.reference sel
        issued := s.issued ++ [(c.ctx.reference, sel)] }
  | apply {conn : ConnId} {c : Command} (command : s.commands.lookup conn = some c)
      (stage : c.stage = .accepted) (operate : c.phase = .oper) (m : Model) :
      Turn s (.apply conn) { s.proceed conn { c with stage := .clearing } with model := m }
  | clear {conn : ConnId} {c : Command} (command : s.commands.lookup conn = some c)
      (stage : c.stage = .clearing) : Turn s (.clear conn) (s.clear conn c)
  | leave {conn : ConnId} (idle : s.commands.lookup conn = none) :
      Turn s (.endAssociation conn) { s with selections := s.selections.releaseConn conn }

variable {s : Controls} {conn : ConnId} {c : Command}

lemma atStage_eq_some {stage : Stage} (h : s.atStage conn stage = some c) :
    s.commands.lookup conn = some c ∧ c.stage = stage := by
  obtain ⟨hc, hst⟩ := Option.filter_eq_some_iff.mp h
  exact ⟨hc, by simpa using hst⟩

variable {clock : Instant} {domain item : String} {m : Model}

lemma beginWrite_ok {v : Value} {peer : Option IpAddr} (h : beginWrite m clock conn domain item v peer = .ok c) :
    c.now = clock ∧ c.selection = none ∧ c.stage = .arrived := by
  unfold beginWrite at h
  split at h
  · cases h
  dsimp only at h
  split_ifs at h
  obtain rfl := Except.ok.inj h
  exact ⟨rfl, rfl, rfl⟩

lemma beginSbo_eq_some (h : beginSbo m clock conn domain item = some c) :
    c.now = clock ∧ c.selection = none ∧ c.stage = .accepted ∧ c.phase = .sbo := by
  unfold beginSbo at h
  split at h
  · dsimp only at h
    split_ifs at h
    obtain rfl := Option.some.inj h
    exact ⟨rfl, rfl, rfl, rfl⟩
  · cases h

section
variable (hc : s.commands.lookup conn = some c)
include hc

lemma turn_inform (hs : c.stage = .arrived) : Turn s (.inform conn) (s.inform conn c) := by
  dsimp only [inform]
  split
  · exact .inform hc hs _ _
  · exact .refuse hc (.inl hs)

lemma turn_check (hs : c.stage = .informed) : Turn s (.check conn) (s.check conn c) := by
  unfold check
  split
  · exact .refuse hc (.inr (.inl hs))
  next hchk =>
  have hchk := not_not.mp hchk
  split
  next hph =>
    refine .cancel hc hs ?_
    intro sel hsel
    rw [Command.check, hph] at hchk
    exact checkCancel_eq_none hchk hsel
  split
  next hsbo =>
    rw [Command.check, hsbo.1] at hchk
    rw [if_pos hsbo.2] at hchk
    obtain ⟨sel, hsel, hown, hlv, hnumber⟩ := checkOperate_eq_none hchk
    rw [hsel]
    exact .grant hc hs hsbo.1 hsel hown hlv hnumber
  next hsbo =>
    refine .pass hc hs ?_
    intro hph
    exact Bool.eq_false_iff.mpr fun hselect => hsbo ⟨hph, hselect⟩

lemma turn_application {answer : Option AddCause}
    (hs : c.stage = .checked) : Turn s (.application conn answer) (s.application conn c answer) := by
  unfold application
  split
  · exact .refuse hc (.inr (.inr (.inl hs)))
  have h : Turn s (.application conn answer) _ := .accept hc hs
  split
  next hph =>
    rw [if_pos hph] at h
    exact h
  next hph =>
    rw [if_neg hph, List.append_nil] at h
    exact h

lemma turn_reserve (hs : c.stage = .accepted)
    (hsel : c.phase ≠ .oper) : Turn s (.reserve conn) (s.reserve conn c) := by
  have htime : (c.request s.clock).2.2 = c.now ∨ (c.request s.clock).2.2 = s.clock := by
    dsimp only [Command.request]
    split
    · exact .inr rfl
    · exact .inl rfl
  dsimp only [reserve]
  split
  · exact .refuse hc (.inr (.inr (.inr ⟨hs, hsel⟩)))
  next sels hres =>
    obtain ⟨rfl, hfree⟩ := reserve_eq_some hres
    exact .reserve _ _ hc hsel rfl rfl htime hfree

end

lemma turn_of_step (s : Controls) (x : ControlStep) : s.step x = s ∨ Turn s x (s.step x) := by
  -- A step of a command that has come to a stage.
  have hst {x : ControlStep} {conn : ConnId} {stage : Stage} {p : Command → Bool}
      {f : Command → Controls}
      (h : ∀ c, s.commands.lookup conn = some c → c.stage = stage → p c → Turn s x (f c)) :
      (((s.atStage conn stage).filter p).map f).getD s = s ∨
        Turn s x ((((s.atStage conn stage).filter p).map f).getD s) := by
    rcases hat : (s.atStage conn stage).filter p with _ | c
    · exact .inl rfl
    obtain ⟨hat, hp⟩ := Option.filter_eq_some_iff.mp hat
    obtain ⟨hc, hs⟩ := atStage_eq_some hat
    exact .inr (h c hc hs hp)
  have hany {x : ControlStep} {conn : ConnId} {stage : Stage} {f : Command → Controls}
      (h : ∀ c, s.commands.lookup conn = some c → c.stage = stage → Turn s x (f c)) :
      ((s.atStage conn stage).map f).getD s = s ∨ Turn s x (((s.atStage conn stage).map f).getD s) := by
    cases hat : s.atStage conn stage with
    | none => exact .inl rfl
    | some c =>
      obtain ⟨hc, hs⟩ := atStage_eq_some hat
      exact .inr (h c hc hs)
  cases x with
  | advance d => exact .inr (.advance d)
  | change m => exact .inr (.change m)
  | write conn domain item v peer =>
    rw [step]
    split
    next hidle hbeg =>
      obtain ⟨hnow, hsel, hst⟩ := beginWrite_ok hbeg
      exact .inr (.start hidle hnow hsel (.inl hst))
    · exact .inl rfl
  | readSbo conn domain item =>
    rw [step]
    split
    next hidle hbeg =>
      obtain ⟨hnow, hsel, hst, hph⟩ := beginSbo_eq_some hbeg
      exact .inr (.start hidle hnow hsel (.inr ⟨hst, hph⟩))
    · exact .inl rfl
  | inform conn => exact hany fun c hc hs => turn_inform hc hs
  | check conn => exact hany fun c hc hs => turn_check hc hs
  | application conn answer => exact hany fun c hc hs => turn_application hc hs
  | reserve conn =>
    apply hst
    intro c hc hs hp
    refine turn_reserve hc hs ?_
    intro hoper
    rw [hoper] at hp
    cases hp
  | apply conn =>
    apply hst
    intro c hc hs hp
    exact .apply hc hs (by simpa using hp) _
  | clear conn => exact hany fun c hc hs => .clear hc hs
  | endAssociation conn =>
    rw [step]
    split
    · exact .inl rfl
    · next hidle => exact .inr (.leave hidle)

end Controls

open Command List Option

def ControlStep.actor : ControlStep → Option ConnId
  | .advance _ | .change _ => none
  | .write conn .. | .readSbo conn .. | .inform conn | .check conn | .application conn _ | .reserve conn
  | .apply conn | .clear conn | .endAssociation conn => some conn

def Command.releasing (c : Command) : Bool :=
  c.stage == .clearing || (c.phase == .oper && (c.stage == .checked || c.stage == .accepted))

lemma Command.releasing_iff {c : Command} : c.releasing ↔
    c.stage = .clearing ∨ c.phase = .oper ∧ (c.stage = .checked ∨ c.stage = .accepted) := by
  simp [releasing]

def Command.underway (c : Command) : Bool :=
  c.phase == .oper && (c.stage == .arrived || c.stage == .informed || c.stage == .checked)

namespace Controls

/-- A step removes no live reservation but one of its own association. -/
def KeepsReservations (s : Controls) (x : ControlStep) : Prop :=
  ∀ r sel, s.selections.lookup r = some sel → s.clock < sel.expiry →
    (s.step x).selections.lookup r = some sel ∨ x.actor = some sel.conn

/-- An operate is about to reach the application, on an object that has to be selected before. -/
def Reaches (s : Controls) (conn : ConnId) (c : Command) : Prop :=
  s.commands.lookup conn = some c ∧ c.stage = .checked ∧ c.phase = .oper ∧ c.ctlModel.hasSelect = true

/-- The association holds the live reservation that admitted its command, with the command's number if it has
one. -/
def Selected (s : Controls) (conn : ConnId) (c : Command) : Prop :=
  ∃ sel, s.selections.lookup c.ctx.reference = some sel ∧ c.selection = some sel.serial ∧
    sel.conn = conn ∧ s.clock < sel.expiry ∧ ∀ n, sel.ctlNum = some n → n = c.ctx.ctlNum

/-- No selection is reserved while another command on the object releases one, and a direct operate meets no live
selection of another association. -/
def Orderly (s : Controls) : ControlStep → Prop
  | .reserve conn => ∀ c ∈ s.commands.lookup conn, ∀ e ∈ s.commands.entries,
    e.1 ≠ conn → e.2.releasing = true → e.2.ctx.reference ≠ c.ctx.reference
  | .check conn => ∀ c ∈ s.commands.lookup conn, c.phase = .oper → c.ctlModel.hasSelect = false →
    ∀ sel ∈ s.selections.lookup c.ctx.reference, sel.conn = conn ∨ sel.expiry ≤ s.clock
  | _ => True

instance (s : Controls) (x : ControlStep) : Decidable (Orderly s x) := by
  cases x <;> unfold Orderly <;> infer_instance

/-- No live selection expires while an operate of the association that holds it is underway. -/
def Timely (s : Controls) : ControlStep → Prop
  | .advance d => ∀ e ∈ s.commands.entries, e.2.underway = true →
    ∀ sel ∈ s.selections.lookup e.2.ctx.reference, sel.conn = e.1 → s.clock < sel.expiry → s.clock + d < sel.expiry
  | _ => True

instance (s : Controls) (x : ControlStep) : Decidable (Timely s x) := by
  cases x <;> unfold Timely <;> infer_instance

variable {s : Controls} {conn conn' : ConnId} {c c' : Command}

lemma lookup_proceed : (s.proceed conn c).commands.lookup conn' = some c' ↔
    conn' = conn ∧ c = c' ∨ conn' ≠ conn ∧ s.commands.lookup conn' = some c' := Table.lookup_insert_eq_some

lemma lookup_finish : (s.finish conn).commands.lookup conn' = some c' ↔
    conn' ≠ conn ∧ s.commands.lookup conn' = some c' := Table.lookup_erase_eq_some

lemma mem_entries_of_lookup (h : s.commands.lookup conn = some c) :
    (⟨conn, c⟩ : Sigma fun _ : ConnId => Command) ∈ s.commands.entries :=
  AList.mem_lookup_iff.mp h

variable {sels : Selections} {r r' : ObjectReference} {sel sel' : Selection}

lemma lookup_clear : (sels.clear r).lookup r' = some sel ↔ r' ≠ r ∧ sels.lookup r' = some sel :=
  Table.lookup_erase_eq_some

/-- Commands are not ahead of the clock, and one that is to release a reservation finds none that is
live and another association's. -/
structure Guarded (s : Controls) : Prop where
  past : ∀ conn c, s.commands.lookup conn = some c → c.now ≤ s.clock
  own : ∀ conn c sel, s.commands.lookup conn = some c → c.releasing = true →
    s.selections.lookup c.ctx.reference = some sel → sel.conn = conn ∨ sel.expiry ≤ s.clock

variable {s' : Controls} {x : ControlStep}

lemma past_turn (h : ∀ conn c, s.commands.lookup conn = some c → c.now ≤ s.clock)
    (ht : Turn s x s') : ∀ conn c, s'.commands.lookup conn = some c → c.now ≤ s'.clock := by
  -- A command that goes on keeps its time.
  have hproc {conn : ConnId} {c : Command} (hc : c.now ≤ s.clock) (conn' : ConnId) (c' : Command)
      (hc' : (s.proceed conn c).commands.lookup conn' = some c') : c'.now ≤ s.clock := by
    rcases lookup_proceed.mp hc' with ⟨-, rfl⟩ | ⟨-, hc'⟩
    · exact hc
    · exact h conn' c' hc'
  have hfinish {conn : ConnId} (conn' : ConnId) (c' : Command)
      (hc' : (s.finish conn).commands.lookup conn' = some c') : c'.now ≤ s.clock :=
    h conn' c' (lookup_finish.mp hc').2
  cases ht with
  | advance d => exact fun conn c hc => Nat.le_trans (h conn c hc) (Nat.le_add_right _ _)
  | change m => exact h
  | start idle now fresh stage => exact hproc (Nat.le_of_eq now)
  | refuse | reserve | clear => exact hfinish
  | inform command _ _ _ | pass command _ _ | grant command _ _ _ _ _ _ | cancel command _ _
  | accept command _ | apply command _ _ _ =>
    have hnow := h _ _ command
    exact hproc hnow
  | leave idle => exact h

lemma guarded_turn (h : Guarded s) (hx : Orderly s x) (ht : Turn s x s') : Guarded s' := by
  refine ⟨past_turn h.past ht, ?_⟩
  -- A command that goes on, and the others at the side.
  have hproc {conn : ConnId} {c : Command}
      (hc : c.releasing → ∀ sel, s.selections.lookup c.ctx.reference = some sel →
        sel.conn = conn ∨ sel.expiry ≤ s.clock) (conn' : ConnId) (c' : Command) (sel : Selection)
      (hc' : (s.proceed conn c).commands.lookup conn' = some c') (hr : c'.releasing)
      (hsel : s.selections.lookup c'.ctx.reference = some sel) :
      sel.conn = conn' ∨ sel.expiry ≤ s.clock := by
    rcases lookup_proceed.mp hc' with ⟨rfl, rfl⟩ | ⟨-, hc'⟩
    · exact hc hr sel hsel
    · exact h.own conn' c' sel hc' hr hsel
  cases ht with
  | advance d =>
    intro conn c sel hc hr hsel
    exact (h.own conn c sel hc hr hsel).imp id fun he => Nat.le_trans he (Nat.le_add_right _ _)
  | change m => exact h.own
  | start idle now fresh stage =>
    apply hproc
    intro hr
    rw [releasing_iff] at hr
    rcases stage with hs | ⟨hs, hp⟩
    · simp [hs] at hr
    · simp [hs, hp] at hr
  | refuse command stage =>
    intro conn c sel hc
    exact h.own conn c sel (lookup_finish.mp hc).2
  | inform command stage declared sboTimeout =>
    apply hproc
    intro hr
    simp [releasing_iff] at hr
  | @pass conn c command stage direct =>
    apply hproc
    intro hr sel hsel
    -- Only an operate without a select is past its check here; the order admits it.
    have hp : c.phase = .oper := by simpa [releasing_iff] using hr
    exact hx c command hp (direct hp) sel hsel
  | grant command stage operate reserved own live number =>
    apply hproc
    intro _ sel hsel
    obtain rfl := mem_unique reserved hsel
    exact .inl own
  | cancel command stage free =>
    apply hproc
    intro _ sel hsel
    exact (free sel hsel).imp id fun he => Nat.le_trans he (h.past _ _ command)
  | @accept conn c answer command stage =>
    apply hproc
    intro hr sel hsel
    have hp : c.phase = .oper := by simpa [releasing_iff] using hr
    exact h.own _ c sel command (releasing_iff.mpr (.inr ⟨hp, .inl stage⟩)) hsel
  | @reserve conn c sel now command select own serial time free =>
    intro conn' c' sel' hc' hr hsel
    obtain ⟨hne, hc'⟩ := lookup_finish.mp hc'
    rcases Table.lookup_insert_eq_some.mp hsel with ⟨href, -⟩ | ⟨-, hsel⟩
    · exact absurd href (hx c command ⟨conn', c'⟩ (mem_entries_of_lookup hc') hne hr)
    · exact h.own conn' c' sel' hc' hr hsel
  | @apply conn c command stage operate m =>
    apply hproc
    intro _ sel hsel
    exact h.own _ c sel command (releasing_iff.mpr (.inr ⟨operate, .inr stage⟩)) hsel
  | clear command stage =>
    intro conn c sel hc hr hsel
    exact h.own conn c sel (lookup_finish.mp hc).2 hr (lookup_clear.mp hsel).2
  | leave idle =>
    intro conn c sel hc hr hsel
    exact h.own conn c sel hc hr (lookup_releaseConn.mp hsel).1

lemma guarded_step (h : Guarded s) (hx : Orderly s x) : Guarded (s.step x) := by
  rcases turn_of_step s x with heq | ht
  · rw [heq]
    exact h
  · exact guarded_turn h hx ht

lemma guarded_start (m : Model) (clock : Instant) : Guarded (start m clock) := by
  refine ⟨?_, ?_⟩
  · intro conn c hc
    cases hc
  · intro conn c sel hc
    cases hc

lemma keeps_turn (h : Guarded s) (ht : Turn s x s')
    (hsel : s.selections.lookup r = some sel) (hlv : s.clock < sel.expiry) :
    s'.selections.lookup r = some sel ∨ x.actor = some sel.conn := by
  cases ht with
  | @reserve conn c sel' now command select own serial time free =>
    by_cases href : r = c.ctx.reference
    · -- A reservation in the way would have to be the association's own or expired.
      subst href
      have hnow : now ≤ s.clock := by
        rcases time with rfl | rfl
        · exact h.past conn c command
        · exact Nat.le_refl _
      rcases free sel hsel with hown | hexp
      · right
        rw [hown]
        rfl
      · exact absurd (Nat.le_trans hexp hnow) (Nat.not_le.mpr hlv)
    · left
      exact Table.lookup_insert_eq_some.mpr (.inr ⟨href, hsel⟩)
  | @clear conn c command stage =>
    by_cases href : r = c.ctx.reference
    · subst href
      have hr : c.releasing := releasing_iff.mpr (.inl stage)
      rcases h.own conn c sel command hr hsel with hown | hexp
      · right
        rw [hown]
        rfl
      · exact absurd hexp (Nat.not_le.mpr hlv)
    · left
      exact lookup_clear.mpr ⟨href, hsel⟩
  | @leave conn idle =>
    by_cases hown : sel.conn = conn
    · right
      rw [hown]
      rfl
    · left
      exact lookup_releaseConn.mpr ⟨hsel, hown⟩
  | _ => exact .inl hsel

lemma keepsReservations_of_guarded (h : Guarded s) (x : ControlStep) : KeepsReservations s x := by
  intro r sel hsel hlv
  rcases turn_of_step s x with heq | ht
  · rw [heq]
    exact .inl hsel
  · exact keeps_turn h ht hsel hlv

/-- Every reservation leads to at most one accepted operate, which still has to release the reservation, so that
its association cannot use it again. -/
structure Once (s : Controls) : Prop where
  recorded : ∀ r sel, s.selections.lookup r = some sel → s.issued[sel.serial]? = some (r, sel)
  admitted : ∀ conn c i, s.commands.lookup conn = some c → c.selection = some i →
    ∃ sel, s.issued[i]? = some (c.ctx.reference, sel) ∧ sel.conn = conn
  nodup : s.accepted.Nodup
  known : ∀ i ∈ s.accepted, i < s.issued.length
  waiting : ∀ conn c i, s.commands.lookup conn = some c → c.selection = some i → c.stage = .checked → i ∉ s.accepted
  spent : ∀ r sel, s.selections.lookup r = some sel → sel.serial ∈ s.accepted →
    ∃ c, s.commands.lookup sel.conn = some c ∧ c.phase = .oper ∧ c.ctx.reference = r ∧
      (c.stage = .accepted ∨ c.stage = .clearing)

lemma once_proceed (h : Once s) (hold : ∀ c0, s.commands.lookup conn = some c0 → c0.phase = .oper →
      c0.stage = .accepted ∨ c0.stage = .clearing → c.phase = .oper ∧ c.ctx.reference = c0.ctx.reference ∧
        (c.stage = .accepted ∨ c.stage = .clearing)) (hadm : ∀ i, c.selection = some i →
      ∃ sel, s.issued[i]? = some (c.ctx.reference, sel) ∧ sel.conn = conn)
    (hwait : ∀ i, c.selection = some i → c.stage = .checked → i ∉ s.accepted) : Once (s.proceed conn c) := by
  refine ⟨h.recorded, ?_, h.nodup, h.known, ?_, ?_⟩
  · intro conn' c' i hc' hi
    rcases lookup_proceed.mp hc' with ⟨rfl, rfl⟩ | ⟨-, hc'⟩
    · exact hadm i hi
    · exact h.admitted conn' c' i hc' hi
  · intro conn' c' i hc' hi hs
    rcases lookup_proceed.mp hc' with ⟨rfl, rfl⟩ | ⟨-, hc'⟩
    · exact hwait i hi hs
    · exact h.waiting conn' c' i hc' hi hs
  intro r sel hsel hm
  obtain ⟨c0, hc0, hp, href, hs⟩ := h.spent r sel hsel hm
  by_cases hown : sel.conn = conn
  · obtain ⟨hp', href', hs'⟩ := hold c0 (hown ▸ hc0) hp hs
    exact ⟨c, lookup_proceed.mpr (.inl ⟨hown, rfl⟩), hp', href'.trans href, hs'⟩
  · exact ⟨c0, lookup_proceed.mpr (.inr ⟨hown, hc0⟩), hp, href, hs⟩

section
variable (h : Once s)
include h

lemma once_early (hc : s.commands.lookup conn = some c) (hs : c.stage ≠ .accepted ∧ c.stage ≠ .clearing)
    (hadm : ∀ i, c'.selection = some i → ∃ sel, s.issued[i]? = some (c'.ctx.reference, sel) ∧ sel.conn = conn)
    (hwait : ∀ i, c'.selection = some i → c'.stage = .checked → i ∉ s.accepted) :
    Once (s.proceed conn c') := by
  refine once_proceed h ?_ hadm hwait
  intro c0 hc0 _ hlate
  obtain rfl := mem_unique hc hc0
  exact absurd hlate (not_or.mpr hs)

lemma once_finish (hc : s.commands.lookup conn = some c)
    (hsub : ∀ r sel, sels.lookup r = some sel → s.selections.lookup r = some sel ∧
      (c.phase = .oper → c.ctx.reference = r → c.stage ≠ .accepted ∧ c.stage ≠ .clearing)) :
    Once { s.finish conn with selections := sels } := by
  refine ⟨fun r sel hsel => h.recorded r sel (hsub r sel hsel).1, ?_, h.nodup, h.known, ?_, ?_⟩
  · intro conn' c' i hc'
    exact h.admitted conn' c' i (lookup_finish.mp hc').2
  · intro conn' c' i hc'
    exact h.waiting conn' c' i (lookup_finish.mp hc').2
  intro r sel hsel hm
  obtain ⟨hsel, hearly⟩ := hsub r sel hsel
  obtain ⟨c0, hc0, hp, href, hs0⟩ := h.spent r sel hsel hm
  have hne : sel.conn ≠ conn := by
    rintro rfl
    obtain rfl := mem_unique hc hc0
    exact hs0.elim (hearly hp href).1 (hearly hp href).2
  exact ⟨c0, lookup_finish.mpr ⟨hne, hc0⟩, hp, href, hs0⟩

lemma once_subset (hsub : ∀ r sel, sels.lookup r = some sel → s.selections.lookup r = some sel) :
    Once { s with selections := sels } :=
  ⟨fun r sel hsel => h.recorded r sel (hsub r sel hsel), h.admitted, h.nodup, h.known, h.waiting,
    fun r sel hsel => h.spent r sel (hsub r sel hsel)⟩

lemma once_accept (hc : s.commands.lookup conn = some c) (hs : c.stage = .checked) :
    Once { s.proceed conn { c with stage := .accepted } with
      accepted := s.accepted ++ if c.phase = .oper then c.selection.toList else [] } := by
  have hnew {i : ℕ} (hi : i ∈ if c.phase = .oper then c.selection.toList else []) :
      c.phase = .oper ∧ c.selection = some i := by
    split at hi
    · next hp => exact ⟨hp, by simpa using hi⟩
    · cases hi
  have hnx : Once (s.proceed conn { c with stage := .accepted }) :=
    once_early h hc (by simp [hs]) (fun i => h.admitted conn c i hc) fun i _ hno => by cases hno
  refine ⟨h.recorded, hnx.admitted, ?_, ?_, ?_, ?_⟩
  · rw [List.nodup_append]
    refine ⟨h.nodup, ?_, ?_⟩
    · split
      · cases c.selection <;> simp
      · exact List.nodup_nil
    · rintro i hi j hj rfl
      exact h.waiting conn c i hc (hnew hj).2 hs hi
  · intro i hi
    rcases List.mem_append.mp hi with hi | hi
    · exact h.known i hi
    · obtain ⟨sel, hsel, -⟩ := h.admitted conn c i hc (hnew hi).2
      exact (List.getElem?_eq_some_iff.mp hsel).1
  · intro conn' c' i hc' hi hs' hm
    rcases List.mem_append.mp hm with hm | hm
    · exact hnx.waiting conn' c' i hc' hi hs' hm
    -- A reservation admits commands of its own association only.
    obtain ⟨sel, hsel, hown⟩ := h.admitted conn c i hc (hnew hm).2
    obtain ⟨sel', hsel', hown'⟩ := hnx.admitted conn' c' i hc' hi
    obtain ⟨-, rfl⟩ := Prod.mk.inj (mem_unique hsel hsel')
    rcases lookup_proceed.mp hc' with ⟨-, rfl⟩ | ⟨hne, -⟩
    · cases hs'
    · exact hne (hown'.symm.trans hown)
  · intro r sel hsel hm
    rcases List.mem_append.mp hm with hm | hm
    · exact hnx.spent r sel hsel hm
    obtain ⟨hp, hi⟩ := hnew hm
    obtain ⟨sel', hsel', hown⟩ := h.admitted conn c _ hc hi
    rw [h.recorded r sel hsel] at hsel'
    obtain ⟨rfl, rfl⟩ := Prod.mk.inj (Option.some.inj hsel')
    exact ⟨_, lookup_proceed.mpr (.inl ⟨hown, rfl⟩), hp, rfl, .inl rfl⟩

lemma once_reserve (hserial : sel.serial = s.issued.length) :
    Once { s with selections := s.selections.insert r sel, issued := s.issued ++ [(r, sel)] } := by
  have hold {i : ℕ} {e : ObjectReference × Selection} (hi : s.issued[i]? = some e) :
      (s.issued ++ [(r, sel)])[i]? = some e := by
    rw [List.getElem?_append_left (List.getElem?_eq_some_iff.mp hi).1]
    exact hi
  refine ⟨?_, ?_, h.nodup, ?_, h.waiting, ?_⟩
  · intro r' sel' hsel'
    rcases Table.lookup_insert_eq_some.mp hsel' with ⟨rfl, rfl⟩ | ⟨-, hsel'⟩
    · rw [hserial]
      simp
    · exact hold (h.recorded r' sel' hsel')
  · intro conn c i hc hi
    obtain ⟨sel', hsel', hown⟩ := h.admitted conn c i hc hi
    exact ⟨sel', hold hsel', hown⟩
  · intro i hi
    have := h.known i hi
    rw [List.length_append]
    omega
  · intro r' sel' hsel' hm
    rcases Table.lookup_insert_eq_some.mp hsel' with ⟨rfl, rfl⟩ | ⟨-, hsel'⟩
    · have := h.known _ hm
      omega
    · exact h.spent r' sel' hsel' hm

lemma once_turn (ht : Turn s x s') : Once s' := by
  cases ht with
  | advance | change => exact ⟨h.recorded, h.admitted, h.nodup, h.known, h.waiting, h.spent⟩
  | start idle now fresh stage =>
    refine once_proceed h ?_ ?_ ?_
    · intro c0 hc0
      rw [idle] at hc0
      cases hc0
    · intro i hi
      rw [fresh] at hi
      cases hi
    intro i hi
    rw [fresh] at hi
    cases hi
  | refuse command stage =>
    refine once_finish h command fun r sel hsel => ⟨hsel, fun hp _ => ?_⟩
    rcases stage with hs | hs | hs | ⟨hs, hne⟩
    · simp [hs]
    · simp [hs]
    · simp [hs]
    · exact absurd hp hne
  | @inform conn c command stage _ _ | @cancel conn c command stage _ =>
    refine once_early h command (by simp [stage]) ?_ ?_
    · intro i hi
      exact h.admitted conn c i command hi
    · nofun
  | pass command stage direct =>
    refine once_early h command (by simp [stage]) ?_ ?_
    · nofun
    · nofun
  | @grant conn c sel command stage operate reserved own live number =>
    refine once_early h command (by simp [stage]) ?_ ?_
    · intro i hi
      obtain rfl := some.inj hi
      exact ⟨sel, h.recorded _ sel reserved, own⟩
    -- A reservation whose operate was accepted belongs to an association that is still at it.
    intro i hi _ hm
    obtain rfl := some.inj hi
    obtain ⟨c0, hc0, -, -, hs⟩ := h.spent _ sel reserved hm
    rw [own, command] at hc0
    obtain rfl := some.inj hc0
    rw [stage] at hs
    rcases hs with hs | hs <;> cases hs
  | accept command stage => exact once_accept h command stage
  | reserve sel now command select own serial time free =>
    have hf := once_finish h command fun r sel hsel => ⟨hsel, fun hp => absurd hp select⟩
    exact once_reserve hf serial
  | @apply conn c command stage operate m =>
    have hnx : Once (s.proceed conn { c with stage := .clearing }) := by
      refine once_proceed h ?_ (fun i hi => h.admitted conn c i command hi) fun i _ hs => by cases hs
      intro c0 hc0 hp _
      obtain rfl := mem_unique command hc0
      exact ⟨hp, rfl, .inr rfl⟩
    exact ⟨hnx.recorded, hnx.admitted, hnx.nodup, hnx.known, hnx.waiting, hnx.spent⟩
  | clear command stage =>
    refine once_finish h command fun r sel hsel => ?_
    obtain ⟨href, hsel⟩ := lookup_clear.mp hsel
    exact ⟨hsel, fun _ heq => absurd heq.symm href⟩
  | leave idle =>
    apply once_subset h
    intro r sel hsel
    exact (lookup_releaseConn.mp hsel).1

end

lemma once_step (s : Controls) (x : ControlStep) (h : Once s) : Once (s.step x) := by
  rcases turn_of_step s x with heq | ht
  · rw [heq]
    exact h
  · exact once_turn h ht

lemma once_start (m : Model) (clock : Instant) : Once (start m clock) := by
  refine ⟨?_, ?_, nodup_nil, ?_, ?_, ?_⟩
  · intro r sel hsel
    cases hsel
  · intro conn c i hc
    cases hc
  · intro i hi
    cases hi
  · intro conn c i hc
    cases hc
  · intro r sel hsel
    cases hsel

end Controls
end Iec61850.Server
