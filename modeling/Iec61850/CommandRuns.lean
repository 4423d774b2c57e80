import Iec61850.CommandSteps
import Iec61850.ClientControl

/-! Select before operate over whole runs, and a control handle of the client against the server. -/
namespace Iec61850.Server
open Mms Command

lemma Command.underway_iff {c : Command} : c.underway ↔
    c.phase = .oper ∧ (c.stage = .arrived ∨ c.stage = .informed ∨ c.stage = .checked) := by
  simp [underway, or_assoc]

namespace Controls

/-- A reservation of the association that was live when an operate arrived still is, and an operate that is
about to reach the application is selected. -/
structure Ready (s : Controls) : Prop where
  fresh : ∀ conn c sel, s.commands.lookup conn = some c → c.underway = true →
    s.selections.lookup c.ctx.reference = some sel → sel.conn = conn → c.now < sel.expiry →
    s.clock < sel.expiry
  held : ∀ conn c, Reaches s conn c → Selected s conn c

variable {s s' : Controls} {x : ControlStep}

lemma fresh_turn (h : Ready s) (hx : Timely s x) (ht : Turn s x s') (conn : ConnId) (c : Command)
    (sel : Selection) (hc : s'.commands.lookup conn = some c) (hu : c.underway)
    (hsel : s'.selections.lookup c.ctx.reference = some sel) (hown : sel.conn = conn)
    (hnow : c.now < sel.expiry) : s'.clock < sel.expiry := by
  -- A command that goes on, when before it was on its way with the same time and object.
  have hproc {conn0 : ConnId} {c0 c1 : Command}
      (hc : (s.proceed conn0 c1).commands.lookup conn = some c)
      (hc0 : s.commands.lookup conn0 = some c0) (hbk : c1.underway → c0.underway)
      (href : c1.ctx = c0.ctx) (htime : c1.now = c0.now)
      (hsel : s.selections.lookup c.ctx.reference = some sel) : s.clock < sel.expiry := by
    rcases lookup_proceed.mp hc with ⟨rfl, rfl⟩ | ⟨-, hc⟩
    · rw [href] at hsel
      rw [htime] at hnow
      exact h.fresh conn c0 sel hc0 (hbk hu) hsel hown hnow
    · exact h.fresh conn c sel hc hu hsel hown hnow
  cases ht with
  | advance d =>
    have hlv := h.fresh conn c sel hc hu hsel hown hnow
    exact hx ⟨conn, c⟩ (mem_entries_of_lookup hc) hu sel hsel hown hlv
  | change m => exact h.fresh conn c sel hc hu hsel hown hnow
  | start idle now fresh stage =>
    rcases lookup_proceed.mp hc with ⟨rfl, rfl⟩ | ⟨-, hc⟩
    · rw [now] at hnow
      exact hnow
    · exact h.fresh conn c sel hc hu hsel hown hnow
  | refuse command stage =>
    exact h.fresh conn c sel (lookup_finish.mp hc).2 hu hsel hown hnow
  | inform command stage declared sboTimeout =>
    refine hproc hc command ?_ rfl rfl hsel
    intro hu
    exact underway_iff.mpr ⟨(underway_iff.mp hu).1, .inl stage⟩
  | pass command stage _ | cancel command stage _ =>
    refine hproc hc command ?_ rfl rfl hsel
    intro hu
    exact underway_iff.mpr ⟨(underway_iff.mp hu).1, .inr (.inl stage)⟩
  | grant command stage operate reserved own live number =>
    refine hproc hc command ?_ rfl rfl hsel
    intro _
    exact underway_iff.mpr ⟨operate, .inr (.inl stage)⟩
  | accept command stage =>
    refine hproc hc command ?_ rfl rfl hsel
    intro hu
    exact underway_iff.mpr ⟨(underway_iff.mp hu).1, .inr (.inr stage)⟩
  | @reserve conn0 c0 sel0 now command select own serial time free =>
    obtain ⟨hne, hc⟩ := lookup_finish.mp hc
    rcases Table.lookup_insert_eq_some.mp hsel with ⟨-, rfl⟩ | ⟨-, hsel⟩
    · exact absurd (hown.symm.trans own) hne
    · exact h.fresh conn c sel hc hu hsel hown hnow
  | apply command stage operate m =>
    rcases lookup_proceed.mp hc with ⟨rfl, rfl⟩ | ⟨-, hc⟩
    · have hs := (underway_iff.mp hu).2
      rcases hs with hs | hs | hs <;> cases hs
    · exact h.fresh conn c sel hc hu hsel hown hnow
  | clear command stage =>
    exact h.fresh conn c sel (lookup_finish.mp hc).2 hu (lookup_clear.mp hsel).2 hown hnow
  | leave idle =>
    exact h.fresh conn c sel hc hu (Selections.lookup_releaseConn.mp hsel).1 hown hnow

lemma selected_turn (hg : Guarded s) (h : Ready s) (hx : Timely s x) (ht : Turn s x s')
    {conn : ConnId} {c : Command} (hr : Reaches s conn c) (hc : s'.commands.lookup conn = some c)
    (hoth : x.actor ≠ some conn) : Selected s' conn c := by
  obtain ⟨sel, hsel, hserial, hown, hlv, hnum⟩ := h.held conn c hr
  have hkp := (keeps_turn hg ht hsel hlv).resolve_right fun ha => hoth (hown ▸ ha)
  refine ⟨sel, hkp, hserial, hown, ?_, hnum⟩
  have hu : c.underway := underway_iff.mpr ⟨hr.2.2.1, .inr (.inr hr.2.1)⟩
  refine fresh_turn h hx ht conn c sel hc hu hkp hown ?_
  exact Nat.lt_of_le_of_lt (hg.past conn c hr.1) hlv

lemma held_turn (hg : Guarded s) (h : Ready s) (hx : Timely s x) (ht : Turn s x s') (conn : ConnId)
    (c : Command) (hr : Reaches s' conn c) : Selected s' conn c := by
  obtain ⟨hc, hst, hph, hsbo⟩ := hr
  have ht' := ht
  -- A command that goes on to a stage other than this one, and the others at its side.
  have hproc {conn0 : ConnId} {c1 : Command}
      (hc : (s.proceed conn0 c1).commands.lookup conn = some c) (hs : c1.stage ≠ .checked) :
      Reaches s conn c ∧ conn ≠ conn0 := by
    rcases lookup_proceed.mp hc with ⟨-, rfl⟩ | ⟨hne, hc⟩
    · exact absurd hst hs
    · exact ⟨⟨hc, hst, hph, hsbo⟩, hne⟩
  have hfinish {conn0 : ConnId} (hc : (s.finish conn0).commands.lookup conn = some c) :
      Reaches s conn c ∧ conn ≠ conn0 := by
    obtain ⟨hne, hc⟩ := lookup_finish.mp hc
    exact ⟨⟨hc, hst, hph, hsbo⟩, hne⟩
  -- Where neither the reservations nor the clock change.
  have hsm (hr : Reaches s conn c) (hs : s'.selections = s.selections) (hk : s'.clock = s.clock) :
      Selected s' conn c := by
    obtain ⟨sel, hsel, hrs⟩ := h.held conn c hr
    exact ⟨sel, hs ▸ hsel, hk ▸ hrs⟩
  cases ht with
  | advance d =>
    exact selected_turn hg h hx ht' ⟨hc, hst, hph, hsbo⟩ hc (by simp [ControlStep.actor])
  | change m => exact hsm ⟨hc, hst, hph, hsbo⟩ rfl rfl
  | start idle now fresh stage =>
    refine hsm (hproc hc ?_).1 rfl rfl
    rcases stage with hs | ⟨hs, -⟩ <;> simp [hs]
  | refuse command stage => exact hsm (hfinish hc).1 rfl rfl
  | inform | cancel | accept | apply => exact hsm (hproc hc (by simp)).1 rfl rfl
  | @pass conn0 c0 command stage direct =>
    rcases lookup_proceed.mp hc with ⟨rfl, rfl⟩ | ⟨-, hc⟩
    · -- An operate that passed without a reservation is on an object that needs none.
      have hselect : c0.ctlModel.hasSelect := hsbo
      rw [direct hph] at hselect
      cases hselect
    · exact hsm ⟨hc, hst, hph, hsbo⟩ rfl rfl
  | @grant conn0 c0 sel command stage operate reserved own live number =>
    rcases lookup_proceed.mp hc with ⟨rfl, rfl⟩ | ⟨-, hc⟩
    · have hu : c0.underway := underway_iff.mpr ⟨operate, .inr (.inl stage)⟩
      exact ⟨sel, reserved, rfl, own, h.fresh conn c0 sel command hu reserved own live, number⟩
    · exact hsm ⟨hc, hst, hph, hsbo⟩ rfl rfl
  | reserve | clear =>
    obtain ⟨hr, hne⟩ := hfinish hc
    exact selected_turn hg h hx ht' hr hc fun ha => hne (Option.some.inj ha).symm
  | leave idle =>
    refine selected_turn hg h hx ht' ⟨hc, hst, hph, hsbo⟩ hc ?_
    intro ha
    obtain rfl := Option.some.inj ha
    rw [idle] at hc
    cases hc

lemma ready_step (hg : Guarded s) (h : Ready s) (hx : Timely s x) : Ready (s.step x) := by
  rcases turn_of_step s x with heq | ht
  · rw [heq]
    exact h
  · exact ⟨fresh_turn h hx ht, held_turn hg h hx ht⟩

lemma ready_start (m : Model) (clock : Instant) : Ready (start m clock) := by
  refine ⟨?_, ?_⟩
  · intro conn c sel hc
    cases hc
  · intro conn c hr
    cases hr.1

lemma guarded_run {m : Model} {clock : Instant} {steps : List ControlStep}
    (hm : Runs.Admitted step Orderly (start m clock) steps) : Guarded (run (start m clock) steps) :=
  Runs.induction_admitted Guarded (fun _ _ h hx => guarded_step h hx) (guarded_start m clock) hm

/-- A live reservation is only removed by its own association, in every interleaving in which nobody gets a
reservation while a command of another association on the object is between its check and its end, and direct
operates find none. -/
theorem live_reservation_kept (m : Model) (clock : Instant) (steps : List ControlStep)
    (hm : Runs.Admitted step Orderly (start m clock) steps) (x : ControlStep) :
    KeepsReservations (run (start m clock) steps) x :=
  keepsReservations_of_guarded (guarded_run hm) x

/-- In every interleaving each reservation leads to at most one accepted operate. When the commands keep the
order and no reservation expires under an operate, an operate reaches the application only while its association
holds the reservation. -/
theorem select_before_operate (m : Model) (clock : Instant) (steps : List ControlStep) :
    (run (start m clock) steps).accepted.Nodup ∧
    (Runs.Admitted step (fun s x => Orderly s x ∧ Timely s x) (start m clock) steps →
      ∀ conn c, Reaches (run (start m clock) steps) conn c → Selected (run (start m clock) steps) conn c) := by
  refine ⟨?_, ?_⟩
  · have honce : Once (run (start m clock) steps) :=
      Runs.invariant Once once_step (once_start m clock) steps
    exact honce.nodup
  intro hm
  have hready : Guarded (run (start m clock) steps) ∧ Ready (run (start m clock) steps) := by
    refine Runs.induction_admitted (fun s => Guarded s ∧ Ready s) ?_ ⟨guarded_start m clock, ready_start m clock⟩ hm
    intro s x h hx
    exact ⟨guarded_step h.1 hx.1, ready_step h.1 h.2 hx.2⟩
  exact hready.2.held

def sboObject (name : String) : DataObject :=
  { name := name
    attributes :=
      [ { name := "ctlModel", fc := .cf, value := some (.integer 2) },
        { name := "stVal", fc := .st, kind := some .boolean, value := some (.boolean false) },
        { name := "Oper", fc := .co, kind := some .struct, children := [{ name := "ctlVal", fc := .co }] } ] }

def sboModel : Model :=
  { devices := [{ name := "LD", nodes :=
      [{ name := "GGIO1", objects := [sboObject "SPCSO1", sboObject "SPCSO2"] }] }] }

def selecting (conn : ConnId) (object : String) : List ControlStep :=
  [.readSbo conn "LD" ("GGIO1$CO$" ++ object ++ "$SBO"), .reserve conn]

def operating (conn : ConnId) : List ControlStep :=
  [.write conn "LD" "GGIO1$CO$SPCSO1$Oper" (.struct [.boolean true, .struct [], .unsigned 1]) none,
    .inform conn, .check conn]

def apartSteps : List ControlStep := selecting 1 "SPCSO1" ++ selecting 2 "SPCSO2" ++ operating 1

def racingSteps : List ControlStep :=
  selecting 1 "SPCSO1" ++ operating 1 ++ [.advance (31 * 1000000000)] ++ selecting 2 "SPCSO1"

def started (steps : List ControlStep) : Controls := run (start sboModel 0) steps

/-- The operate is about to reach the application, and its association holds the object. -/
theorem select_before_operate_apart : ∃ c, Reaches (started apartSteps) 1 c ∧ Selected (started apartSteps) 1 c := by
  have hc : ∃ c ∈ (started apartSteps).commands.lookup 1,
      c.stage = .checked ∧ c.phase = .oper ∧ c.ctlModel.hasSelect = true := by decide +kernel
  obtain ⟨c, hc, hrs⟩ := hc
  have hr : Reaches (started apartSteps) 1 c := ⟨hc, hrs⟩
  exact ⟨c, hr, (select_before_operate sboModel 0 apartSteps).2 (by decide +kernel) 1 c hr⟩

/-- The operate reaches the application while another association holds the object. -/
theorem operate_without_selection :
    ∃ c, Reaches (started racingSteps) 1 c ∧ ¬ Selected (started racingSteps) 1 c := by
  have hc : ∃ c ∈ (started racingSteps).commands.lookup 1,
      (c.stage = .checked ∧ c.phase = .oper ∧ c.ctlModel.hasSelect = true) ∧
      ∃ sel ∈ (started racingSteps).selections.lookup c.ctx.reference, sel.conn = 2 := by
    decide +kernel
  obtain ⟨c, hc, hrs, sel, hsel, hconn⟩ := hc
  refine ⟨c, ⟨hc, hrs⟩, ?_⟩
  rintro ⟨sel', hsel', -, hown, -⟩
  have heq : sel = sel' := by
    rw [hsel] at hsel'
    exact Option.some.inj hsel'
  rw [← heq, hconn] at hown
  cases hown

def ending (conn : ConnId) : List ControlStep := [.application conn none, .apply conn]

/-- The first association releases its own object; the second keeps the other one. -/
theorem live_reservation_kept_apart : KeepsReservations (started (apartSteps ++ ending 1)) (.clear 1) ∧
    ∃ sel, (started (apartSteps ++ ending 1)).selections.lookup ⟨"LD/GGIO1.SPCSO2"⟩ = some sel ∧
      ((started (apartSteps ++ ending 1)).step (.clear 1)).selections.lookup ⟨"LD/GGIO1.SPCSO2"⟩ = some sel := by
  have hkeeps := live_reservation_kept sboModel 0 (apartSteps ++ ending 1) (by decide +kernel) (.clear 1)
  refine ⟨hkeeps, ?_⟩
  have hsel : ∃ sel ∈ (started (apartSteps ++ ending 1)).selections.lookup ⟨"LD/GGIO1.SPCSO2"⟩,
      (started (apartSteps ++ ending 1)).clock < sel.expiry ∧ sel.conn = 2 := by decide +kernel
  obtain ⟨sel, hsel, hlv, hconn⟩ := hsel
  refine ⟨sel, hsel, (hkeeps _ sel hsel hlv).resolve_right ?_⟩
  rw [hconn]
  decide

/-- The first association ends its operate and removes the reservation of the second, which is live. -/
theorem live_reservation_removed : ¬ KeepsReservations (started (racingSteps ++ ending 1)) (.clear 1) := by
  have hsel : ∃ sel ∈ (started (racingSteps ++ ending 1)).selections.lookup ⟨"LD/GGIO1.SPCSO1"⟩,
      (started (racingSteps ++ ending 1)).clock < sel.expiry ∧ sel.conn = 2 ∧
      ((started (racingSteps ++ ending 1)).step (.clear 1)).selections.lookup ⟨"LD/GGIO1.SPCSO1"⟩ =
        none := by decide +kernel
  obtain ⟨sel, hsel, hlv, hconn, hgone⟩ := hsel
  intro h
  rcases h _ sel hsel hlv with hkp | hown
  · rw [hgone] at hkp
    cases hkp
  · rw [hconn] at hown
    cases hown

end Controls

open Option Table

def SboObject (m : Model) (reference : ObjectReference) : Prop :=
  declaredCtlModel m reference = some .sboNormal ∨ declaredCtlModel m reference = some .sboEnhanced
deriving Decidable

/-- The command selects, and the configuration of its object is read. A read of `SBO` starts with that. -/
def Command.Selects (c : Command) : Prop := c.phase = .sbow ∧ c.stage ≠ .arrived ∨ c.phase = .sbo

/-- The object is of select before operate, or has no control model at all. -/
def Passed (m : Model) (reference : ObjectReference) : Prop :=
  (declaredCtlModel m reference).isSome = true → SboObject m reference

lemma passed_of_any {m : Model} {reference : ObjectReference} {k : CtlModel} (hk : k = .sboNormal ∨ k = .sboEnhanced)
    (h : ¬ (declaredCtlModel m reference).any (· ≠ k)) : Passed m reference := by
  intro hsome
  obtain ⟨k', hk'⟩ := isSome_iff_exists.mp hsome
  have heq : k' = k := by simpa [hk'] using h
  subst heq
  exact hk.imp (fun h => by rw [hk', h]) fun h => by rw [hk', h]

namespace Controls

/-- The reservations in the table, and all that were ever granted, are of objects of select before
operate. -/
def SboOnly (s : Controls) : Prop :=
  Table.All (fun reference _ => SboObject s.model reference) s.selections ∧
    ∀ granted ∈ s.issued, SboObject s.model granted.1
deriving Decidable

/-- Selecting, operating up to the effect, cancelling and ending associations leave the model alone. What
is reserved has a control model. -/
def selectsConfigured (s : Controls) : ControlStep → Bool
  | .change _ | .apply _ => false
  | .reserve conn => (s.atStage conn .accepted).all fun c =>
      c.phase == .oper || (declaredCtlModel s.model c.ctx.reference).isSome
  | _ => true

/-- The selects on their way have passed the configuration of their objects. -/
structure Configured (s : Controls) : Prop where
  granted : SboOnly s
  commands : Table.All (fun _ c => c.Selects → Passed s.model c.ctx.reference) s.commands

variable {s : Controls} {conn : ConnId} {c : Command}

lemma Configured.proceed (h : Configured s) (hc : c.Selects → Passed s.model c.ctx.reference) :
    Configured (s.proceed conn c) :=
  ⟨h.granted, h.commands.insert hc⟩

lemma Configured.finish (h : Configured s) : Configured (s.finish conn) := by
  refine ⟨h.granted, ?_⟩
  intro conn' c hc
  exact h.commands conn' c (lookup_erase_eq_some.mp hc).2

/-- A command goes on to its next stage. -/
theorem Configured.next (h : Configured s) (hc : s.commands.lookup conn = some c) {c' : Command}
    (hst : c.stage ≠ .arrived) (hph : c'.phase = c.phase) (hctx : c'.ctx = c.ctx) :
    Configured (s.proceed conn c') := by
  apply h.proceed
  intro hsel
  rw [Command.Selects, hph] at hsel
  rw [hctx]
  exact h.commands conn c hc (hsel.imp_left fun h => ⟨h.1, hst⟩)

lemma configured_start (m : Model) (clock : Instant) : Configured (start m clock) :=
  ⟨⟨all_empty, by simp [start]⟩, all_empty⟩

variable {domain item : String}

lemma configured_write {v : Value} {peer : Option IpAddr} (h : Configured s)
    (hbeg : beginWrite s.model s.clock conn domain item v peer = .ok c) : Configured (s.proceed conn c) := by
  apply h.proceed
  unfold beginWrite at hbeg
  split at hbeg
  · cases hbeg
  dsimp only at hbeg
  split_ifs at hbeg with hsbo
  obtain rfl := Except.ok.inj hbeg
  rintro (⟨-, hst⟩ | hph)
  · exact absurd rfl hst
  · exact absurd hph hsbo

lemma configured_readSbo (h : Configured s)
    (hbeg : beginSbo s.model s.clock conn domain item = some c) : Configured (s.proceed conn c) := by
  apply h.proceed
  intro _
  unfold beginSbo at hbeg
  split at hbeg
  · dsimp only at hbeg
    split_ifs at hbeg with hany
    obtain rfl := some.inj hbeg
    exact passed_of_any (.inl rfl) hany
  · cases hbeg

lemma configured_inform (h : Configured s) (hc : s.commands.lookup conn = some c) : Configured (s.inform conn c) := by
  dsimp only [inform]
  split
  next hrefusal =>
    apply h.proceed
    rintro (⟨hph, -⟩ | hph)
    · refine passed_of_any (.inr rfl) ?_
      intro hany
      unfold Command.refusal at hrefusal
      rw [if_pos (c := _ ∧ _) ⟨hph, hany⟩, ite_self] at hrefusal
      cases hrefusal
    · exact h.commands conn c hc (.inr hph)
  · exact h.finish

lemma configured_check (h : Configured s) (hc : s.commands.lookup conn = some c)
    (hs : c.stage = .informed) : Configured (s.check conn c) := by
  have hst : c.stage ≠ .arrived := by simp [hs]
  unfold check
  split
  · exact h.finish
  split
  · exact h.next hc hst rfl rfl
  · exact h.next hc hst rfl rfl

lemma configured_application {answer : Option AddCause} (h : Configured s)
    (hc : s.commands.lookup conn = some c) (hs : c.stage = .checked) :
    Configured (s.application conn c answer) := by
  unfold application
  split
  · exact h.finish
  have hnx : Configured (s.proceed conn { c with stage := .accepted }) := h.next hc (by simp [hs]) rfl rfl
  split
  · exact ⟨hnx.granted, hnx.commands⟩
  · exact hnx

lemma configured_reserve (h : Configured s) (hobj : SboObject s.model c.ctx.reference) :
    Configured (s.reserve conn c) := by
  dsimp only [reserve]
  split
  · exact h.finish
  next sels hres =>
  obtain ⟨rfl, -⟩ := Selections.reserve_eq_some hres
  refine ⟨⟨h.granted.1.insert hobj, ?_⟩, h.finish.commands⟩
  intro granted hgranted
  obtain hgranted | hnew := List.mem_append.mp hgranted
  · exact h.granted.2 granted hgranted
  · rw [List.mem_singleton.mp hnew]
    exact hobj

lemma configured_step (h : Configured s) {x : ControlStep} (hx : selectsConfigured s x) : Configured (s.step x) := by
  -- A step of a command that has come to a stage.
  have hat {conn : ConnId} {stage : Stage} {f : Command → Controls}
      (hf : ∀ c, s.commands.lookup conn = some c → c.stage = stage → Configured (f c)) :
      Configured (((s.atStage conn stage).map f).getD s) := by
    cases hat : s.atStage conn stage with
    | none => exact h
    | some c =>
      obtain ⟨hc, hs⟩ := atStage_eq_some hat
      exact hf c hc hs
  cases x with
  | advance d => exact ⟨h.granted, h.commands⟩
  | change m => cases hx
  | write conn domain item v peer =>
    rw [step]
    split
    · next hbeg => exact configured_write h hbeg
    · exact h
  | readSbo conn domain item =>
    rw [step]
    split
    · next hbeg => exact configured_readSbo h hbeg
    · exact h
  | inform conn => exact hat fun c hc _ => configured_inform h hc
  | check conn => exact hat fun c hc hs => configured_check h hc hs
  | application conn answer => exact hat fun c hc hs => configured_application h hc hs
  | reserve conn =>
    rw [step]
    cases hat : (s.atStage conn .accepted).filter fun c => c.phase == .sbow || c.phase == .sbo with
    | none => exact h
    | some c =>
      obtain ⟨hat, hph⟩ := filter_eq_some_iff.mp hat
      obtain ⟨hc, hs⟩ := atStage_eq_some hat
      have hselects : c.Selects := by
        obtain hph | hph := Bool.or_eq_true_iff.mp hph
        · exact .inl ⟨beq_iff_eq.mp hph, by simp [hs]⟩
        · exact .inr (beq_iff_eq.mp hph)
      have hoper : c.phase ≠ .oper := by
        rintro hoper
        rw [hoper] at hph
        cases hph
      rw [selectsConfigured, hat, all_some, Bool.or_eq_true_iff, beq_iff_eq] at hx
      exact configured_reserve h (h.commands conn c hc hselects (hx.resolve_left hoper))
  | apply conn => cases hx
  | clear conn =>
    refine hat ?_
    intro c _ _
    refine ⟨⟨?_, h.granted.2⟩, h.finish.commands⟩
    intro r sel hsel
    exact h.granted.1 r sel (lookup_erase_eq_some.mp hsel).2
  | endAssociation conn =>
    rw [step]
    split
    · exact h
    refine ⟨⟨?_, h.granted.2⟩, h.commands⟩
    intro r sel hsel
    exact h.granted.1 r sel (Selections.lookup_releaseConn.mp hsel).1

/-- As long as what is reserved has a control model, every reservation is of an object of select before
operate. -/
theorem reservations_sbo (m : Model) (clock : Instant) (steps : List ControlStep)
    (h : Runs.Admitted step (fun s x => selectsConfigured s x = true) (start m clock) steps) :
    SboOnly (run (start m clock) steps) :=
  (Runs.induction_admitted Configured (fun _ _ hs hx => configured_step hs hx) (configured_start m clock) h).granted

theorem reservations_sbo_apart : SboOnly (started apartSteps) ∧ (started apartSteps).selections.entries.length = 2 :=
  ⟨reservations_sbo sboModel 0 apartSteps (by decide +kernel), by decide +kernel⟩

/-- A read of `SBO` selects an object that the model does not have. -/
theorem reserved_unknown : (started (selecting 1 "SPCSO9")).issued.map Prod.fst = [⟨"LD/GGIO1.SPCSO9"⟩] ∧
      ¬ SboOnly (started (selecting 1 "SPCSO9")) := by
  decide +kernel

end Controls

open Client Selections Handle

/-- A control object as the server has it, and the association of the client. -/
structure ControlPoint where
  reference : ObjectReference
  conn : ConnId
  declared : Option CtlModel := none
  sboTimeout : ℕ := 0
  offers : Phase → Bool := fun _ => true

/-- A request of the handle, the time at which it arrives, and what the application will say. -/
structure ControlRequest where
  service : ControlService
  ctlVal : Value := .none
  origin : Value := .none
  rest : List Value := []
  now : Instant := 0
  decision : AddCause := AddCause.none

def phaseOf : ControlService → Phase
  | .sbo => .sbo
  | .sbow => .sbow
  | .oper => .oper
  | .cancel => .cancel

def selects : ControlService → Bool
  | .sbo | .sbow => true
  | _ => false

def ControlPoint.command (p : ControlPoint) (q : ControlRequest) (num : UInt8) : Command where
  phase := phaseOf q.service
  ctx := { decodeOper p.reference (.struct (q.ctlVal :: q.origin :: .uint8 num :: q.rest)) p.conn none with
    select := selects q.service }
  now := q.now
  declared := p.declared
  sboTimeout := p.sboTimeout

def Command.take (c : Command) (sels : Selections) : Option Selections :=
  let (ctlNum, timeout, now) := c.request c.now
  sels.reserve c.ctx.reference c.ctx.conn ctlNum timeout now 0

/-- The command from its arrival to its end; nothing if it is refused. -/
def Command.serve (c : Command) (offered : Bool) (decision : AddCause) (sels : Selections) : Option Selections :=
  if c.phase = .sbo then if c.declared.any (· ≠ .sboNormal) then none else c.take sels
  else if offered = false ∨ c.refusal ≠ AddCause.none ∨ c.check sels c.ctx.conn ≠ AddCause.none then none
  else if c.phase = .cancel then some (sels.clear c.ctx.reference)
  else if decision ≠ AddCause.none then none
  else if c.phase = .sbow then c.take sels
  else some (sels.clear c.ctx.reference)

/-- The two ends. `selected` says that the last request was a select that was accepted. -/
structure Dialogue where
  handle : Handle
  selections : Selections := ∅
  selected : Bool := false

namespace Dialogue

def served (p : ControlPoint) (s : Dialogue) (q : ControlRequest) : Option Selections :=
  (p.command q s.handle.nextNum).serve (p.offers (phaseOf q.service)) q.decision s.selections

def step (p : ControlPoint) (s : Dialogue) (q : ControlRequest) : Dialogue :=
  let selected := (s.served p q).isSome && selects q.service
  { handle := if selected then s.handle.beginSequence else s.handle.beginSequence.endSequence
    selections := (s.served p q).getD s.selections
    selected := selected }

def held (p : ControlPoint) (s : Dialogue) : Option Selection := s.selections.lookup p.reference

/-- No operate right after an accepted select, and no cancel, would be refused for its number while the
selection lasts. -/
def Agrees (p : ControlPoint) (s : Dialogue) : Prop := ∀ now, (∀ sel ∈ s.held p, now < sel.expiry) →
  (s.selected = true → s.selections.checkOperate p.reference p.conn s.handle.nextNum now = AddCause.none) ∧
    s.selections.checkCancel p.reference p.conn s.handle.nextNum now = AddCause.none

/-- Neither the model, nor the server, the application or the time of `sel` stands against the request. -/
def Allowed (p : ControlPoint) (s : Dialogue) (q : ControlRequest) (sel : Selection) : Prop :=
  let c := p.command q s.handle.nextNum
  if c.phase = .sbo then c.declared.any (· ≠ .sboNormal) = false
  else p.offers c.phase = true ∧ c.refusal = AddCause.none ∧
    (c.phase = .oper → c.ctlModel.hasSelect = true → q.now < sel.expiry) ∧
    (c.phase = .cancel ∨ q.decision = AddCause.none)

/-- Nothing but the number can refuse the request while the server holds a selection with a number. -/
def Concluded (p : ControlPoint) (s : Dialogue) (q : ControlRequest) : Prop :=
  ∀ sel ∈ s.held p, sel.ctlNum.isSome = true → Allowed p s q sel

/-- What the server holds is the client's, and an accepted select is held. -/
structure Own (p : ControlPoint) (s : Dialogue) : Prop where
  conn : ∀ sel ∈ s.held p, sel.conn = p.conn ∧ 0 < sel.expiry
  held : s.selected = true → (s.held p).isSome = true

def Numbered (p : ControlPoint) (s : Dialogue) : Prop :=
  ∀ sel ∈ s.held p, ∀ n, sel.ctlNum = some n → n = s.handle.nextNum

variable {p : ControlPoint} {s : Dialogue} {q : ControlRequest}

lemma request_fst {c : Command} {n : UInt8} (h : (c.request c.now).1 = some n) : n = c.ctx.ctlNum := by
  unfold request at h
  cases hph : c.phase <;> rw [hph] at h <;> cases h <;> rfl

lemma request_pos (c : Command) : 0 < (c.request c.now).2.2 + (c.request c.now).2.1 := by
  have hpos : 0 < if c.sboTimeout = 0 then selectTimeout else c.sboTimeout := by
    split
    · decide
    · omega
  unfold request
  cases c.phase <;> exact Nat.add_pos_right _ hpos

lemma command_ctlNum (num : UInt8) : (p.command q num).ctx.ctlNum = num := by
  apply UInt8.toBitVec_inj.mp
  simp [ControlPoint.command, decodeOper, Value.uint8, Value.asI64, BitVec.signExtend_eq_setWidth_of_le]

lemma serve_cases (c : Command) (offered : Bool) (decision : AddCause) (sels : Selections) :
    c.serve offered decision sels = none ∨
      (c.phase = .sbo ∨ c.phase = .sbow) ∧ c.serve offered decision sels = c.take sels ∨
      (c.phase = .oper ∨ c.phase = .cancel) ∧ c.serve offered decision sels = some (sels.clear c.ctx.reference) := by
  unfold serve
  split_ifs with hsbo _ _ hcancel _ hsbow
  · exact .inl rfl
  · exact .inr (.inl ⟨.inl hsbo, rfl⟩)
  · exact .inl rfl
  · exact .inr (.inr ⟨.inr hcancel, rfl⟩)
  · exact .inl rfl
  · exact .inr (.inl ⟨.inr hsbow, rfl⟩)
  · refine .inr (.inr ⟨.inl ?_, rfl⟩)
    cases hph : c.phase <;> simp_all

/-- What the server can do with a request: refuse it, select the object, or release it. -/
theorem served_cases : s.served p q = none ∨
    (selects q.service ∧ ∃ sel : Selection, s.served p q = some (s.selections.insert p.reference sel) ∧
      sel.conn = p.conn ∧ 0 < sel.expiry ∧ ∀ n, sel.ctlNum = some n → n = s.handle.nextNum) ∨
    selects q.service = false ∧ s.served p q = some (s.selections.clear p.reference) := by
  let c := p.command q s.handle.nextNum
  rcases serve_cases c (p.offers (phaseOf q.service)) q.decision s.selections with h | ⟨hph, h⟩ | ⟨hph, h⟩
  · exact .inl h
  · have hselects : selects q.service := by
      cases hq : q.service <;> simp [c, ControlPoint.command, phaseOf, hq] at hph <;> rfl
    rcases htaken : c.take s.selections with _ | sels
    · exact .inl (h.trans htaken)
    refine .inr (.inl ⟨hselects, _, h.trans (htaken.trans (congrArg some (reserve_eq_some htaken).1)),
      rfl, request_pos c, ?_⟩)
    intro n hn
    rw [request_fst hn]
    exact command_ctlNum _
  · have hselects : selects q.service = false := by
      cases hq : q.service <;> simp [c, ControlPoint.command, phaseOf, hq] at hph <;> rfl
    exact .inr (.inr ⟨hselects, h⟩)

lemma own_step (h : Own p s) : Own p (s.step p q) := by
  rcases served_cases (p := p) (s := s) (q := q) with hs | ⟨hq, sel, hs, hconn, hexpiry, -⟩ | ⟨hq, hs⟩
  · refine ⟨?_, ?_⟩ <;> simp only [held, step, hs] <;> simp
    exact h.conn
  · refine ⟨?_, ?_⟩ <;> simp [held, step, hs, hconn, hexpiry]
  · refine ⟨?_, ?_⟩ <;> simp [held, step, hs, hq, clear]

section
variable {sel : Selection} (hsel : s.held p = some sel) (hconn : sel.conn = p.conn)
  (hnum : sel.ctlNum = some s.handle.nextNum)
include hsel hconn hnum

lemma check_command_iff : (p.command q s.handle.nextNum).check s.selections p.conn = AddCause.none ↔
    (phaseOf q.service = .oper → (p.command q s.handle.nextNum).ctlModel.hasSelect = true → q.now < sel.expiry) := by
  have hlk : s.selections.lookup p.reference = some sel := hsel
  have hnumber : checkNumber sel s.handle.nextNum = AddCause.none := by simp [checkNumber, hnum]
  have hwrong : AddCause.objectNotSelected ≠ AddCause.none := by decide
  unfold Command.check
  rw [command_ctlNum]
  cases hq : phaseOf q.service <;>
    simp [ControlPoint.command, decodeOper, hq, checkCancel, checkOperate, hlk, hconn, hnumber, hwrong]

lemma served_isSome_iff : (s.served p q).isSome = true ↔ Allowed p s q sel := by
  have hlk : s.selections.lookup p.reference = some sel := hsel
  have htake : ((p.command q s.handle.nextNum).take s.selections).isSome = true := by
    simp [Command.take, reserve, ControlPoint.command, decodeOper, hlk, hconn]
  have hphase : (p.command q s.handle.nextNum).phase = phaseOf q.service := rfl
  have hown : (p.command q s.handle.nextNum).ctx.conn = p.conn := rfl
  unfold served Command.serve Allowed
  simp only [hphase, hown, ne_eq, check_command_iff hsel hconn hnum]
  generalize p.command q s.handle.nextNum = c at htake ⊢
  cases phaseOf q.service <;> grind

end

lemma concluded_iff (ho : Own p s) (h : Numbered p s) :
    Concluded p s q ↔ (s.served p q).isSome = true ∨ ∀ sel ∈ s.held p, sel.ctlNum = none := by
  unfold Concluded
  cases hsel : s.held p with
  | none => simp
  | some sel =>
    cases hnum : sel.ctlNum with
    | none => simp [hnum]
    | some n =>
      obtain rfl := h sel hsel n hnum
      simp [hnum, served_isSome_iff hsel (ho.conn sel hsel).1 hnum]

lemma numbered_step_iff (ho : Own p s) (h : Numbered p s) : Numbered p (s.step p q) ↔ Concluded p s q := by
  rw [concluded_iff ho h]
  rcases served_cases (p := p) (s := s) (q := q) with hs | ⟨hq, sel, hs, -, -, hnum⟩ | ⟨hq, hs⟩
  · -- A refusal makes the client take a new number, whatever the server holds.
    have hheld : (s.step p q).held p = s.held p := by simp [held, step, hs]
    have hnum : (s.step p q).handle.nextNum = s.handle.nextNum + 1 := by
      simp [step, hs, nextNum, beginSequence, endSequence]
    have hnew : s.handle.nextNum ≠ s.handle.nextNum + 1 := by simp
    unfold Numbered
    rw [hheld, hnum, hs]
    constructor
    · intro hall
      refine .inr fun sel hsel => Option.eq_none_iff_forall_not_mem.mpr fun n hn => hnew ?_
      rw [← h sel hsel n hn]
      exact (hall sel hsel n hn).trans (by rw [h sel hsel n hn])
    rintro (hacc | hno) sel hsel n hn
    · cases hacc
    · rw [hno sel hsel] at hn
      cases hn
  · simp [Numbered, held, step, hs, hq, nextNum, beginSequence] at hnum ⊢
    exact hnum
  · simp [Numbered, held, step, hs, hq, clear]

lemma agrees_iff (h : Own p s) : Agrees p s ↔ Numbered p s := by
  cases hsel : s.held p with
  | none =>
    have hlk : s.selections.lookup p.reference = none := hsel
    have hselected : s.selected ≠ true := by
      intro hs
      have := h.held hs
      simp [hsel] at this
    simp [Agrees, Numbered, hsel, checkCancel, hlk, hselected]
  | some sel =>
    have hlk : s.selections.lookup p.reference = some sel := hsel
    obtain ⟨hconn, hexpiry⟩ := h.conn sel hsel
    have hchk : checkNumber sel s.handle.nextNum = AddCause.none ↔
        ∀ n, sel.ctlNum = some n → n = s.handle.nextNum := by
      refine ⟨checkNumber_eq_none, ?_⟩
      intro hnum
      unfold checkNumber
      cases hn : sel.ctlNum with
      | none => rfl
      | some n => exact if_neg (not_not.mpr (hnum n hn))
    simp only [Agrees, Numbered, hsel, Option.mem_def, Option.some.injEq, forall_eq', checkOperate,
      checkCancel, hlk, hconn, ← hchk]
    constructor
    · intro hall
      have := (hall 0 hexpiry).2
      rwa [if_neg (not_le.mpr hexpiry), if_neg (by simp)] at this
    intro hnum now hlv
    have hnow : ¬ sel.expiry ≤ now := not_le.mpr hlv
    simp [hnow, hnum]

def breaker : ControlPoint := { reference := ⟨"LD0/CSWI1.Pos"⟩, conn := 1, declared := some .sboEnhanced }

end Dialogue
end Iec61850.Server
